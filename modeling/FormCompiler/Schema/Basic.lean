import FormCompiler.Form.Lenient
import FormCompiler.Form.Choice

namespace FormCompiler

namespace Schema

structure UiOptions where
  disabled : Bool := false
  placeholder : Option String := none
  clearable : Option Bool := none
  pattern : Option String := none
  patternMessage : Option String := none
  maxLength : Option Nat := none
  fieldClass : Option Json := none
  maxCount : Option Nat := none
  maxSize : Option Nat := none
  fileTypes : Option String := none
  deriving Repr

structure Field where
  type : FieldType := .string
  title : String := ""
  emptyValue : Json := .null
  hidden : Option Bool := none
  uniqueItems : Option Bool := none
  codes : Option (List Json) := none
  labels : Option (List String) := none
  minItems : Option Nat := none
  maxItems : Option Nat := none
  itemType : Option String := none
  ui : UiOptions := { }
  widget : Option String := none
  bindBlock : Option String := none
  bindCode : Option String := none
  extProperties : Members Json := []
  requiredMessage : Option String := none
  attributes : Members Json := []
  deriving Repr

structure Block where
  title : String := ""
  required : List String := []
  fields : Members Field := []
  uiOptions : Option (Members Json) := none
  attributes : Members Json := []
  deriving Repr

end Schema

structure Schema where
  title : String
  type : String := "object"
  required : List String := []
  blocks : Members Schema.Block := []
  uiOptions : Members Json
  deriving Repr

namespace Schema

namespace Field

def isChoice (f : Field) : Bool := f.codes.isSome

def isHidden (f : Field) : Bool := f.hidden.getD false

def withChoices (f : Field) (l : ChoiceList) : Field :=
  { f with
    codes := some l.codes
    labels := some l.labels
    uniqueItems := some false
    ui := { f.ui with clearable := some true } }

end Field

def block? (s : Schema) (block : String) : Option Block := s.blocks.lookup block

def field? (s : Schema) (block field : String) : Option Field :=
  (s.block? block).bind fun b => b.fields.lookup field

def updateField (s : Schema) (block field : String) (f : Field → Field) : Schema :=
  { s with blocks := s.blocks.update block fun b => { b with fields := b.fields.update field f } }

end Schema

end FormCompiler
