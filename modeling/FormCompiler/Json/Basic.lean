import FormCompiler.Decimal.Binary64
import FormCompiler.Members

namespace FormCompiler

inductive Number where
  | integer (n : Int)
  | float (x : Binary64)
  deriving DecidableEq, Repr

inductive Json where
  | null
  | bool (b : Bool)
  | number (n : Number)
  | string (s : String)
  | array (items : List Json)
  | object (members : List (String × Json))
  deriving Repr, Inhabited

namespace Number

def isZero : Number → Bool
  | .integer n => n == 0
  | .float x => x.isZero

def unsigned? : Number → Option Nat
  | .integer n => if 0 ≤ n ∧ n.toNat < Nat.pow 2 64 then some n.toNat else none
  | .float _ => none

end Number

namespace Json

instance : Coe String Json := ⟨.string⟩

def ofNat (n : Nat) : Json := .number (.integer n)

def emptyObject : Json := .object []

def get? : Json → String → Option Json
  | .object ms, name => ms.lookup name
  | _, _ => none

def string? : Json → Option String
  | .string s => some s
  | _ => none

def isString (j : Json) : Bool := j.string?.isSome

def truthy : Json → Bool
  | .null => false
  | .bool b => b
  | .number n => !n.isZero
  | .string s => s != ""
  | .array _ => true
  | .object _ => true

end Json

end FormCompiler
