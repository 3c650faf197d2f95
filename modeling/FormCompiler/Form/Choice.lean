import FormCompiler.Json.Record
import FormCompiler.Json.Printer

namespace FormCompiler

/-- One entry as written. The option's code is the first truthy one of `code` and `value`, its label
the first truthy one of `name` and `label`. -/
structure Choice where
  code? : Option Json := none
  value? : Option Json := none
  name? : Option Json := none
  label? : Option Json := none
  deriving Repr

namespace Choice

def memberNames : List String := ["code", "value", "name", "label"]

def set? (ms : Members Json) (name : String) : Option Json :=
  (ms.lookup name).bind fun j => match j with
    | .null => none
    | j => some j

def read? (j : Json) : Option Choice :=
  (j.record? memberNames).map fun ms =>
    { code? := set? ms "code", value? := set? ms "value", name? := set? ms "name",
      label? := set? ms "label" }

def ofJson (j : Json) : Choice := (read? j).getD { }

def firstTruthy (a b : Option Json) : Option Json :=
  (a.filter Json.truthy).or (b.filter Json.truthy)

def code (c : Choice) : Json := (firstTruthy c.code? c.value?).getD .null

def label (c : Choice) : String :=
  match firstTruthy c.name? c.label? with
  | some (.string s) => s
  | some j => j.render
  | none => ""

def toJson (c : Choice) : Json :=
  .object ((memberNames.zip [c.code?, c.value?, c.name?, c.label?]).filterMap
    fun (name, j) => j.map (name, ·))

end Choice

structure ChoiceList where
  codes : List Json
  labels : List String
  deriving Repr

namespace ChoiceList

def empty : ChoiceList := ⟨[], []⟩

def ofChoices (choices : List Choice) : ChoiceList :=
  ⟨choices.map Choice.code, choices.map Choice.label⟩

def ofEntries (entries : List Json) : ChoiceList := ofChoices (entries.map Choice.ofJson)

def size (l : ChoiceList) : Nat := l.codes.length

def isEmpty (l : ChoiceList) : Bool := l.codes.isEmpty

end ChoiceList

end FormCompiler
