import FormCompiler.Json.Basic
import FormCompiler.Json.Shape
import FormCompiler.Json.Skim

/-!
Reading JSON text: the strict grammar, at most 127 containers inside one another, no lone
surrogate escapes. Members that the shape of the document does not take are skimmed. A reader takes
the characters ahead and gives its result and the rest, or nothing when the text is wrong. The
recursive readers count down the characters that are left.
-/
namespace FormCompiler

namespace Json

namespace Parser

def hexUnit : List Char → Option (Nat × List Char)
  | a :: b :: c :: d :: rest => do
    let a ← Text.hexValue? a
    let b ← Text.hexValue? b
    let c ← Text.hexValue? c
    let d ← Text.hexValue? d
    some (((a * 16 + b) * 16 + c) * 16 + d, rest)
  | _ => none

def unicodeEscape (cs : List Char) : Option (Char × List Char) := do
  let (unit, rest) ← hexUnit cs
  if 0xDC00 ≤ unit ∧ unit ≤ 0xDFFF then none
  else if 0xD800 ≤ unit ∧ unit ≤ 0xDBFF then
    match rest with
    | '\\' :: 'u' :: rest =>
      let (low, rest) ← hexUnit rest
      if 0xDC00 ≤ low ∧ low ≤ 0xDFFF then
        some (Char.ofNat (0x10000 + (unit - 0xD800) * 0x400 + (low - 0xDC00)), rest)
      else none
    | _ => none
  else some (Char.ofNat unit, rest)

def escape : List Char → Option (Char × List Char)
  | '"' :: rest => some ('"', rest)
  | '\\' :: rest => some ('\\', rest)
  | '/' :: rest => some ('/', rest)
  | 'b' :: rest => some ('\x08', rest)
  | 'f' :: rest => some ('\x0c', rest)
  | 'n' :: rest => some ('\n', rest)
  | 'r' :: rest => some ('\r', rest)
  | 't' :: rest => some ('\t', rest)
  | 'u' :: rest => unicodeEscape rest
  | _ => none

def stringRest : Nat → List Char → List Char → Option (String × List Char)
  | 0, _, _ => none
  | _ + 1, _, [] => none
  | _ + 1, seen, '"' :: rest => some (String.ofList seen.reverse, rest)
  | fuel + 1, seen, '\\' :: rest => do
    let (c, rest) ← escape rest
    stringRest fuel (c :: seen) rest
  | fuel + 1, seen, c :: rest =>
    if c.toNat < 32 then none else stringRest fuel (c :: seen) rest

def takeDigits (significand taken : Nat) : List Char → Nat × Nat × List Char
  | [] => (significand, taken, [])
  | c :: rest =>
    match Text.digitValue? c with
    | none => (significand, taken, c :: rest)
    | some d =>
      if significand * 10 + d < Nat.pow 2 64 then takeDigits (significand * 10 + d) (taken + 1) rest
      else (significand, taken, c :: rest)

def scaled (negative : Bool) (significand : Nat) (power : Int) : Option Number := do
  let x ← Binary64.ofNat significand
  let x ← x.scale power
  some (.float { x with negative := negative })

/-- An exponent, after its letter. One that does not fit 31 bits makes zero of a number, or is an
error when it would make it infinite. -/
def exponentPart (negative : Bool) (significand : Nat) (power : Int) (cs : List Char) :
    Option (Number × List Char) :=
  let (minus, cs) := match cs with
    | '+' :: rest => (false, rest)
    | '-' :: rest => (true, rest)
    | cs => (false, cs)
  let digits := cs.takeWhile Text.isDigit
  let rest := cs.dropWhile Text.isDigit
  if digits.isEmpty then none
  else
    let e := digits.foldl (fun n c => n * 10 + (Text.digitValue? c).getD 0) 0
    if Nat.pow 2 31 ≤ e then
      if significand ≠ 0 ∧ !minus then none
      else some (.float (Binary64.zero negative), rest)
    else do
      let x ← scaled negative significand (if minus then power - e else power + e)
      some (x, rest)

def floatEnd (negative : Bool) (significand : Nat) (power : Int) :
    List Char → Option (Number × List Char)
  | 'e' :: rest => exponentPart negative significand power rest
  | 'E' :: rest => exponentPart negative significand power rest
  | rest => do
    let x ← scaled negative significand power
    some (x, rest)

def fractionPart (negative : Bool) (significand : Nat) (power : Int) (cs : List Char) :
    Option (Number × List Char) :=
  if startsWithDigit cs then
    let (significand, taken, rest) := takeDigits significand 0 cs
    floatEnd negative significand (power - taken) (rest.dropWhile Text.isDigit)
  else none

def numberEnd (negative : Bool) (significand : Nat) (cs : List Char) :
    Option (Number × List Char) :=
  match cs with
  | '.' :: rest => fractionPart negative significand 0 rest
  | 'e' :: _ => floatEnd negative significand 0 cs
  | 'E' :: _ => floatEnd negative significand 0 cs
  | cs =>
    if startsWithDigit cs then
      -- digits that no longer fit the significand raise the power of ten
      let further := cs.takeWhile Text.isDigit
      match cs.dropWhile Text.isDigit with
      | '.' :: rest => fractionPart negative significand further.length rest
      | rest => floatEnd negative significand further.length rest
    else if !negative then some (.integer significand, cs)
    else if significand = 0 ∨ Nat.pow 2 63 < significand then do
      let x ← scaled true significand 0
      some (x, cs)
    else some (.integer (-significand), cs)

def unsignedNumber (negative : Bool) (cs : List Char) : Option (Number × List Char) :=
  match cs with
  | '0' :: rest => if startsWithDigit rest then none else numberEnd negative 0 rest
  | cs =>
    if startsWithDigit cs then
      let (significand, _, rest) := takeDigits 0 0 cs
      numberEnd negative significand rest
    else none

def number : List Char → Option (Number × List Char)
  | '-' :: rest => unsignedNumber true rest
  | cs => unsignedNumber false cs

mutual

def value : Shape → Nat → Nat → List Char → Option (Json × List Char)
  | _, 0, _, _ => none
  | shape, fuel + 1, depth, cs =>
    match skipBlanks cs with
    | 'n' :: 'u' :: 'l' :: 'l' :: rest => some (.null, rest)
    | 't' :: 'r' :: 'u' :: 'e' :: rest => some (.bool true, rest)
    | 'f' :: 'a' :: 'l' :: 's' :: 'e' :: rest => some (.bool false, rest)
    | '"' :: rest => do
      let (s, rest) ← stringRest fuel [] rest
      some (.string s, rest)
    | '[' :: rest =>
      match depth with
      | 0 => none
      | depth + 1 =>
        match skipBlanks rest with
        | ']' :: rest => some (.array [], rest)
        | rest => do
          let (items, rest) ← itemsRest shape fuel depth rest
          some (.array items, rest)
    | '\x7b' :: rest =>
      match depth with
      | 0 => none
      | depth + 1 =>
        match skipBlanks rest with
        | '\x7d' :: rest => some (.object [], rest)
        | rest => do
          let (ms, rest) ← membersRest shape fuel depth rest
          some (.object ms, rest)
    | cs => do
      let (n, rest) ← number cs
      some (.number n, rest)

def itemsRest : Shape → Nat → Nat → List Char → Option (List Json × List Char)
  | _, 0, _, _ => none
  | shape, fuel + 1, depth, cs => do
    let (j, rest) ← value shape.item fuel depth cs
    match skipBlanks rest with
    | ',' :: rest =>
      let (items, rest) ← itemsRest shape.afterItem fuel depth rest
      some (j :: items, rest)
    | ']' :: rest => some ([j], rest)
    | _ => none

def membersRest : Shape → Nat → Nat → List Char → Option (Members Json × List Char)
  | _, 0, _, _ => none
  | shape, fuel + 1, depth, cs =>
    match skipBlanks cs with
    | '"' :: rest => do
      let (name, rest) ← stringRest fuel [] rest
      match skipBlanks rest with
      | ':' :: rest =>
        let (taken, rest) ← memberValue shape fuel depth name rest
        match skipBlanks rest with
        | ',' :: rest =>
          let (ms, rest) ← membersRest shape fuel depth rest
          some (taken ++ ms, rest)
        | '\x7d' :: rest => some (taken, rest)
        | _ => none
      | _ => none
    | _ => none

def memberValue : Shape → Nat → Nat → String → List Char → Option (Members Json × List Char)
  | _, 0, _, _, _ => none
  | shape, fuel + 1, depth, name, cs =>
    match shape.member? name with
    | some inner => do
      let (j, rest) ← value inner fuel depth cs
      some ([(name, j)], rest)
    | none => do
      let rest ← Skim.value fuel [] cs
      some ([], rest)

end

end Parser

mutual

def merged : Json → Json
  | .array items => .array (mergedItems items)
  | .object ms => .object (Members.merged (mergedMembers ms))
  | j => j

def mergedItems : List Json → List Json
  | [] => []
  | j :: rest => merged j :: mergedItems rest

def mergedMembers : Members Json → Members Json
  | [] => []
  | (k, v) :: rest => (k, merged v) :: mergedMembers rest

end

def parseShape (shape : Shape) (text : String) : Option Json := do
  let cs := text.toList
  let (j, rest) ← Parser.value shape (3 * cs.length + 3) 127 cs
  if (skipBlanks rest).isEmpty then some j else none

def parse (text : String) : Option Json := (parseShape .whole text).map merged

end Json

end FormCompiler
