namespace FormCompiler

namespace Text

def digitValue? (c : Char) : Option Nat :=
  if '0' ≤ c ∧ c ≤ '9' then some (c.toNat - '0'.toNat) else none

def hexValue? (c : Char) : Option Nat :=
  if '0' ≤ c ∧ c ≤ '9' then some (c.toNat - '0'.toNat)
  else if 'a' ≤ c ∧ c ≤ 'f' then some (c.toNat - 'a'.toNat + 10)
  else if 'A' ≤ c ∧ c ≤ 'F' then some (c.toNat - 'A'.toNat + 10)
  else none

def isDigit (c : Char) : Bool := (digitValue? c).isSome

def digitsFrom (acc : Nat) : List Char → Option Nat
  | [] => some acc
  | c :: rest =>
    match digitValue? c with
    | none => none
    | some d => digitsFrom (acc * 10 + d) rest

def digits? (cs : List Char) : Option Nat := if cs.isEmpty then none else digitsFrom 0 cs

def unsigned : List Char → List Char
  | '+' :: rest => rest
  | cs => cs

def numeral? (cs : List Char) : Option Nat := (digits? (unsigned cs)).filter (· < Nat.pow 2 64)

end Text

end FormCompiler
