import FormCompiler.Decimal.Binary64

namespace FormCompiler

namespace Binary64

def interval (x : Binary64) : Nat × Nat × Nat :=
  let m := 4 * x.significand
  -- below a power of two the spacing halves
  (if x.significand = Nat.pow 2 52 ∧ -1074 < x.exponent then m - 1 else m - 2, m, m + 2)

def covers (x : Binary64) (num den : Nat) : Bool :=
  let (low, _, high) := x.interval
  -- a tie goes to the even significand, so the ends belong to it
  if x.significand % 2 = 0 then low * den ≤ num && num ≤ high * den
  else low * den < num && num < high * den

def decimalExponent (num den : Nat) : Int :=
  let p : Int := ((Nat.toDigits 10 num).length : Int) - ((Nat.toDigits 10 den).length : Int)
  let reached := if 0 ≤ p then den * Nat.pow 10 p.toNat ≤ num else den ≤ num * Nat.pow 10 (-p).toNat
  if reached then p else p - 1

def quarters (x : Binary64) (digits : Nat) (power : Int) : Nat × Nat :=
  if 0 ≤ power then shifted (digits * Nat.pow 10 power.toNat) 1 (x.exponent - 2)
  else shifted digits (Nat.pow 10 (-power).toNat) (x.exponent - 2)

def onGrid (x : Binary64) (power : Int) : Option Nat :=
  let (n, d) := x.ratio
  let (n, d) := if 0 ≤ power then (n, d * Nat.pow 10 power.toNat) else (n * Nat.pow 10 (-power).toNat, d)
  let below := n / d
  let inside (digits : Nat) : Bool :=
    let (a, b) := x.quarters digits power
    x.covers a b
  match inside below, inside (below + 1) with
  | false, false => none
  | true, false => some below
  | false, true => some (below + 1)
  | true, true => some (roundHalfEven n d)

def shortestFrom (x : Binary64) (first : Int) : List Nat → Option (Nat × Int)
  | [] => none
  | count :: rest =>
    let power := first - count
    match x.onGrid power with
    -- a value just below a power of ten rounds up to it, which is one digit of the next power
    | some digits => some (if digits = 10 then (1, power + 1) else (digits, power))
    | none => x.shortestFrom first rest

def shortest (x : Binary64) : Nat × Int :=
  if x.isZero then (0, 0)
  else
    let (n, d) := x.ratio
    (x.shortestFrom (decimalExponent n d + 1) ((List.range 17).map (· + 1))).getD (0, 0)

def zeros (n : Nat) : String := String.ofList (List.replicate n '0')

def layout (digits : String) (power : Int) : String :=
  let count := digits.length
  let first := power + count - 1
  if -5 ≤ first ∧ first ≤ 15 then
    if 0 ≤ power then digits ++ zeros power.toNat ++ ".0"
    else if 0 ≤ first then
      let whole := (first + 1).toNat
      String.ofList (digits.toList.take whole) ++ "." ++ String.ofList (digits.toList.drop whole)
    else "0." ++ zeros (-first - 1).toNat ++ digits
  else
    let mantissa := match digits.toList with
      | [] => ""
      | [d] => String.ofList [d]
      | d :: rest => String.ofList (d :: '.' :: rest)
    mantissa ++ "e" ++ (if first < 0 then "-" else "+") ++ toString first.natAbs

def text (x : Binary64) : String :=
  let (digits, power) := x.shortest
  (if x.negative then "-" else "") ++ layout (toString digits) power

end Binary64

end FormCompiler
