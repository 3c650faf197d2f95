import FormCompiler.Toml.Table
import FormCompiler.Toml.Text

namespace FormCompiler

namespace Toml

def digitRun (ok : Char → Bool) : List Char → List Char × List Char
  | '_' :: c :: rest =>
    if ok c then
      let (digits, rest) := digitRun ok rest
      (c :: digits, rest)
    else ([], '_' :: c :: rest)
  | c :: rest =>
    if ok c then
      let (digits, rest) := digitRun ok rest
      (c :: digits, rest)
    else ([], c :: rest)
  | [] => ([], [])

def digits (ok : Char → Bool) (cs : List Char) : Option (List Char × List Char) :=
  match cs with
  | c :: _ => if ok c then some (digitRun ok cs) else none
  | [] => none

def wholeDigits : List Char → Option (List Char × List Char)
  | '0' :: rest => some (['0'], rest)
  | cs => digits Text.isDigit cs

def decimalValue (digits : List Char) : Nat := (Text.digitsFrom 0 digits).getD 0

def basedInteger (base : Nat) (cs : List Char) : Option (Value × List Char) := do
  let ok (c : Char) : Bool := (Text.hexValue? c).any (· < base)
  let (ds, rest) ← digits ok cs
  let n := ds.foldl (fun acc c => acc * base + (Text.hexValue? c).getD 0) 0
  if n < Nat.pow 2 63 then some (.integer n, rest) else none

def exponentRest (cs : List Char) : Option (Int × List Char) := do
  let (sign, cs) : Int × List Char := match cs with
    | '-' :: rest => (-1, rest)
    | '+' :: rest => (1, rest)
    | rest => (1, rest)
  let (ds, rest) ← digits Text.isDigit cs
  some (sign * decimalValue ds, rest)

def exponent : List Char → Option (Option Int × List Char)
  | 'e' :: rest => (exponentRest rest).map fun (e, rest) => (some e, rest)
  | 'E' :: rest => (exponentRest rest).map fun (e, rest) => (some e, rest)
  | cs => some (none, cs)

def clampExponent (count : Nat) (e : Int) : Int :=
  max (-(count + 400 : Nat)) (min (count + 400 : Nat) e)

/-- The float nearest to a decimal. One that is too large is an error if it is positive, and not
finite if it is negative. -/
def decimalFloat (negative : Bool) (ds : List Char) (power : Int) : Option Value :=
  let n := decimalValue ds
  match Binary64.ofDecimal negative n (if n = 0 then 0 else clampExponent ds.length power) with
  | some x => some (.float (some x))
  | none => if negative then some (.float none) else none

def decimal (negative : Bool) (cs : List Char) : Option (Value × List Char) := do
  let (whole, rest) ← wholeDigits cs
  match rest with
  | '.' :: rest =>
    let (fraction, rest) ← digits Text.isDigit rest
    let (e, rest) ← exponent rest
    let v ← decimalFloat negative (whole ++ fraction) ((e.getD 0) - fraction.length)
    some (v, rest)
  | rest =>
    let (e, rest) ← exponent rest
    match e with
    | some e =>
      let v ← decimalFloat negative whole e
      some (v, rest)
    | none =>
      let n := decimalValue whole
      if negative then
        if n ≤ Nat.pow 2 63 then some (.integer (-n), rest) else none
      else if n < Nat.pow 2 63 then some (.integer n, rest) else none

def signed (negative : Bool) : List Char → Option (Value × List Char)
  | 'i' :: 'n' :: 'f' :: rest => some (.float none, rest)
  | 'n' :: 'a' :: 'n' :: rest => some (.float none, rest)
  | cs => decimal negative cs

def scalar (cs : List Char) : Option (Value × List Char) :=
  if startsDate cs || startsTime cs then
    (dateTime cs).map fun (d, rest) => (.dateTime d, rest)
  else match cs with
    | '0' :: 'x' :: rest => basedInteger 16 rest
    | '0' :: 'o' :: rest => basedInteger 8 rest
    | '0' :: 'b' :: rest => basedInteger 2 rest
    | '+' :: rest => signed false rest
    | '-' :: rest => signed true rest
    | cs => signed false cs

mutual

def value : Nat → Nat → List Char → Option (Value × List Char)
  | 0, _, _ => none
  | fuel + 1, depth, cs =>
    match cs with
    | 't' :: 'r' :: 'u' :: 'e' :: rest => some (.bool true, rest)
    | 'f' :: 'a' :: 'l' :: 's' :: 'e' :: rest => some (.bool false, rest)
    | '"' :: _ => (string cs).map fun (s, rest) => (.string s, rest)
    | '\'' :: _ => (string cs).map fun (s, rest) => (.string s, rest)
    | '[' :: rest =>
      match depth with
      | 0 => none
      | depth + 1 => do
        let (items, rest) ← arrayRest fuel depth rest
        some (.array items, rest)
    | '\x7b' :: rest =>
      match depth with
      | 0 => none
      | depth + 1 =>
        match skipBlanks rest with
        | '\x7d' :: rest => some (.table [], rest)
        | rest => do
          let (entries, rest) ← tableRest fuel depth [] rest
          some (.table (Item.entryValues entries), rest)
    | cs => scalar cs

def arrayRest : Nat → Nat → List Char → Option (List Value × List Char)
  | 0, _, _ => none
  | fuel + 1, depth, cs =>
    match skipLines fuel cs with
    | ']' :: rest => some ([], rest)
    | cs => do
      let (v, rest) ← value fuel depth cs
      match skipLines fuel rest with
      | ',' :: rest =>
        let (items, rest) ← arrayRest fuel depth rest
        some (v :: items, rest)
      | ']' :: rest => some ([v], rest)
      | _ => none

def tableRest : Nat → Nat → Entries → List Char → Option (Entries × List Char)
  | 0, _, _, _ => none
  | fuel + 1, depth, entries, cs => do
    let ((path, name), rest) ← key cs
    let rest ← expect '=' rest
    let (v, rest) ← value fuel depth (skipBlanks rest)
    let entries ← entries.addValue path name v
    match skipBlanks rest with
    | ',' :: rest => tableRest fuel depth entries rest
    | '\x7d' :: rest => some (entries, rest)
    | _ => none

end

inductive Section where
  | top
  | table (path : List String) (name : String)
  | element (path : List String) (name : String)

structure Draft where
  finished : Entries := []
  current : Section := .top
  entries : Entries := []

namespace Draft

def close (d : Draft) : Option Entries :=
  match d.current with
  | .top => some d.entries
  | .table path name => d.finished.closeTable path name d.entries
  | .element path name => d.finished.closeArray path name d.entries

def table (d : Draft) (path : List String) (name : String) : Option Draft := do
  let (inner, finished) ← (← d.close).openTable path name
  some ⟨finished, .table path name, inner⟩

def element (d : Draft) (path : List String) (name : String) : Option Draft := do
  let finished ← (← d.close).openArray path name
  some ⟨finished, .element path name, []⟩

end Draft

def header (d : Draft) (cs : List Char) : Option (Draft × List Char) :=
  match cs with
  | '[' :: cs => do
    let ((path, name), rest) ← key cs
    let rest ← lineEnd (← expect ']' (← expect ']' rest))
    some (← d.element path name, rest)
  | cs => do
    let ((path, name), rest) ← key cs
    let rest ← lineEnd (← expect ']' rest)
    some (← d.table path name, rest)

def keyValue (fuel : Nat) (d : Draft) (cs : List Char) : Option (Draft × List Char) := do
  let ((path, name), rest) ← key cs
  let rest ← expect '=' rest
  let (v, rest) ← value fuel 79 (skipBlanks rest)
  let rest ← lineEnd rest
  let entries ← d.entries.addValue path name v
  some ({ d with entries }, rest)

def lines : Nat → Draft → List Char → Option Draft
  | 0, _, _ => none
  | fuel + 1, d, cs =>
    match skipBlanks cs with
    | [] => some d
    | '#' :: rest => do lines fuel d (← lineEnd ('#' :: rest))
    | '\n' :: rest => lines fuel d rest
    | '\r' :: rest => do lines fuel d (← expect '\n' rest)
    | '[' :: rest => do
      let (d, rest) ← header d rest
      lines fuel d rest
    | cs => do
      let (d, rest) ← keyValue fuel d cs
      lines fuel d rest

def skipMark : List Char → List Char
  | '\ufeff' :: rest => rest
  | cs => cs

def parse (text : String) : Option Value := do
  let cs := skipMark text.toList
  let d ← lines (2 * cs.length + 2) { } cs
  let entries ← d.close
  some (.table (Item.entryValues entries))

end Toml

end FormCompiler
