import FormCompiler.Notice
import FormCompiler.Text.Blank
import FormCompiler.Text.Numeral

/-!
Forgiving readers for the members of descriptors: null and the empty text count as unset, a value of
the wrong shape is converted or dropped with a notice.
-/
namespace FormCompiler

inductive FieldType where
  | string
  | number
  | array
  deriving DecidableEq, Repr

namespace FieldType

def text : FieldType → String
  | .string => "string"
  | .number => "number"
  | .array => "array"

def ofText? (s : String) : Option FieldType :=
  match s.map Char.toLower with
  | "string" => some .string
  | "number" => some .number
  | "array" => some .array
  | _ => none

def errorText (s : String) : String := unknownTypeText (s.map Char.toLower)

end FieldType

structure Lenient (α : Type) where
  value : Option α
  notice : Option Notice
  deriving Repr

namespace Lenient

def unset {α : Type} : Lenient α := ⟨none, none⟩

def isSet {α : Type} (value : α) : Lenient α := ⟨some value, none⟩

def dropped {α : Type} (notice : Notice) : Lenient α := ⟨none, some notice⟩

def text : Json → Lenient String
  | .null => unset
  | .string s => if s = "" then unset else isSet s
  | .number n => isSet n.text
  | .bool b => isSet (if b then "true" else "false")
  | j => dropped (.notText j)

def count : Json → Lenient Nat
  | .null => unset
  -- a number that does not count is dropped without a notice, unlike a text
  | .number n => ⟨n.unsigned?.filter (0 < ·), none⟩
  | .string s =>
    if s = "" then unset
    else match Text.numeral? (Text.trim s.toList) with
      | some n => ⟨if 0 < n then some n else none, none⟩
      | none => dropped (.notNumeral s)
  | j => dropped (.notNumeric j)

def type (j : Json) : Lenient FieldType :=
  match text j with
  | ⟨some s, notice⟩ =>
    match FieldType.ofText? s with
    | some t => ⟨some t, notice⟩
    | none => dropped (.unknownType (s.map Char.toLower))
  | ⟨none, notice⟩ => ⟨none, notice⟩

end Lenient

end FormCompiler
