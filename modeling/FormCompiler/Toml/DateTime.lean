import FormCompiler.Text.Numeral

namespace FormCompiler

namespace Toml

structure Date where
  year : Nat
  month : Nat
  day : Nat
  deriving DecidableEq, Repr

structure Time where
  hour : Nat
  minute : Nat
  second : Nat
  nanosecond : Nat
  deriving DecidableEq, Repr

inductive Offset where
  | utc
  | minutes (n : Int)
  deriving DecidableEq, Repr

structure DateTime where
  date : Option Date
  time : Option Time
  offset : Option Offset
  deriving DecidableEq, Repr

def padded (width n : Nat) : String :=
  let digits := toString n
  String.ofList (List.replicate (width - digits.length) '0') ++ digits

def Date.text (d : Date) : String :=
  padded 4 d.year ++ "-" ++ padded 2 d.month ++ "-" ++ padded 2 d.day

def Time.text (t : Time) : String :=
  let fraction := ((padded 9 t.nanosecond).toList.reverse.dropWhile (· == '0')).reverse
  padded 2 t.hour ++ ":" ++ padded 2 t.minute ++ ":" ++ padded 2 t.second ++
    if fraction.isEmpty then "" else "." ++ String.ofList fraction

def Offset.text : Offset → String
  | .utc => "Z"
  | .minutes n =>
    (if n < 0 then "-" else "+") ++ padded 2 (n.natAbs / 60) ++ ":" ++ padded 2 (n.natAbs % 60)

def DateTime.text (d : DateTime) : String :=
  ((d.date.map Date.text).getD "") ++
    (if d.date.isSome && d.time.isSome then "T" else "") ++
    ((d.time.map Time.text).getD "") ++ ((d.offset.map Offset.text).getD "")

def daysOf (year month : Nat) : Nat :=
  if month = 2 then
    if year % 4 = 0 ∧ (year % 100 ≠ 0 ∨ year % 400 = 0) then 29 else 28
  else if month = 4 ∨ month = 6 ∨ month = 9 ∨ month = 11 then 30
  else 31

def pair : List Char → Option (Nat × List Char)
  | a :: b :: rest => do
    let a ← Text.digitValue? a
    let b ← Text.digitValue? b
    some (a * 10 + b, rest)
  | _ => none

def expect (c : Char) : List Char → Option (List Char)
  | d :: rest => if c = d then some rest else none
  | [] => none

def startsDate : List Char → Bool
  | a :: b :: c :: d :: '-' :: _ => [a, b, c, d].all Text.isDigit
  | _ => false

def startsTime (cs : List Char) : Bool :=
  match pair cs with
  | some (hour, ':' :: _) => decide (hour ≤ 23)
  | _ => false

def date (cs : List Char) : Option (Date × List Char) := do
  let (century, cs) ← pair cs
  let (years, cs) ← pair cs
  let (month, cs) ← pair (← expect '-' cs)
  let (day, cs) ← pair (← expect '-' cs)
  let year := century * 100 + years
  if 1 ≤ month ∧ month ≤ 12 ∧ 1 ≤ day ∧ day ≤ daysOf year month then
    some (⟨year, month, day⟩, cs)
  else none

def nanoseconds (digits : List Char) : Nat :=
  let kept := digits.take 9
  ((Text.digitsFrom 0 kept).getD 0) * Nat.pow 10 (9 - kept.length)

def fraction : List Char → Nat × List Char
  | '.' :: rest =>
    if (rest.takeWhile Text.isDigit).isEmpty then (0, '.' :: rest)
    else (nanoseconds (rest.takeWhile Text.isDigit), rest.dropWhile Text.isDigit)
  | cs => (0, cs)

def time (cs : List Char) : Option (Time × List Char) := do
  let (hour, cs) ← pair cs
  let (minute, cs) ← pair (← expect ':' cs)
  let (second, cs) ← pair (← expect ':' cs)
  let (nanosecond, cs) := fraction cs
  if hour ≤ 23 ∧ minute ≤ 59 ∧ second ≤ 60 then
    some (⟨hour, minute, second, nanosecond⟩, cs)
  else none

def signedOffset (sign : Int) (cs : List Char) : Option (Option Offset × List Char) := do
  let (hour, cs) ← pair cs
  let (minute, cs) ← pair (← expect ':' cs)
  if hour ≤ 23 ∧ minute ≤ 59 then some (some (.minutes (sign * (hour * 60 + minute))), cs)
  else none

def offset : List Char → Option (Option Offset × List Char)
  | 'Z' :: rest => some (some .utc, rest)
  | 'z' :: rest => some (some .utc, rest)
  | '+' :: rest => signedOffset 1 rest
  | '-' :: rest => signedOffset (-1) rest
  | cs => some (none, cs)

def isTimeMark (c : Char) : Bool := c == 'T' || c == 't' || c == ' '

def dateTime (cs : List Char) : Option (DateTime × List Char) :=
  if startsDate cs then do
    let (d, rest) ← date cs
    match rest with
    | mark :: after =>
      if isTimeMark mark && startsTime after then
        let (t, rest) ← time after
        let (o, rest) ← offset rest
        some (⟨some d, some t, o⟩, rest)
      else some (⟨some d, none, none⟩, rest)
    | [] => some (⟨some d, none, none⟩, [])
  else do
    let (t, rest) ← time cs
    some (⟨none, some t, none⟩, rest)

def DateTime.ofText? (s : String) : Option DateTime :=
  match dateTime s.toList with
  | some (d, []) => some d
  | _ => none

end Toml

end FormCompiler
