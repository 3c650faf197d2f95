import FormCompiler.Form.Choice
import FormCompiler.Form.Lenient

namespace FormCompiler

namespace Form

structure Field where
  title : Option String := none
  type : Option FieldType := none
  emptyValue : Option Json := none
  required : Bool := false
  requiredMessage : Option String := none
  disabled : Bool := false
  hidden : Bool := false
  placeholder : Option String := none
  pattern : Option String := none
  patternMessage : Option String := none
  maxLength : Option Nat := none
  enums : Option (List Choice) := none
  enumDict : Option String := none
  enumApi : Option String := none
  enumApiParams : Option Json := none
  widget : Option String := none
  bindBlock : Option String := none
  bindCode : Option String := none
  maxCount : Option Nat := none
  maxSize : Option Nat := none
  fileTypes : Option String := none
  fieldClass : Option Json := none
  attributes : Members Json := []
  deriving Repr

inductive OptionSource where
  | inline (choices : List Choice)
  | dictionary (path : String)
  | lookup (path : String) (params : Json)
  deriving Repr

inductive MemberRole where
  | text
  | type
  | count
  | flag
  | value
  | choices
  deriving DecidableEq, Repr

namespace Field

def role? : String → Option MemberRole
  | "title" | "requiredMessage" | "placeholder" | "pattern" | "patternMessage" | "enumDict"
  | "enumApi" | "widget" | "bindBlock" | "bindCode" | "fileTypes" => some .text
  | "type" => some .type
  | "maxLength" | "maxCount" | "maxSize" => some .count
  | "required" | "disabled" | "hidden" => some .flag
  | "emptyValue" | "enumApiParams" | "fieldClass" => some .value
  | "enums" => some .choices
  | _ => none

def choices? : Json → Option (Option (List Choice)) := Json.optional? (Json.listOf? Choice.read?)

def readable (name : String) (j : Json) : Bool :=
  match role? name with
  | some .choices => (choices? j).isSome
  | _ => true

def notice? (name : String) (j : Json) : Option Notice :=
  match role? name with
  | some .text => (Lenient.text j).notice
  | some .type => (Lenient.type j).notice
  | some .count => (Lenient.count j).notice
  | _ => none

def lenient {α : Type} (read : Json → Lenient α) (ms : Members Json) (name : String) : Option α :=
  (ms.lookup name).bind fun j => (read j).value

def flag (ms : Members Json) (name : String) : Bool := ((ms.lookup name).map Json.truthy).getD false

def ofMembers (ms : Members Json) : Field where
  title := lenient Lenient.text ms "title"
  type := lenient Lenient.type ms "type"
  emptyValue := Choice.set? ms "emptyValue"
  required := flag ms "required"
  requiredMessage := lenient Lenient.text ms "requiredMessage"
  disabled := flag ms "disabled"
  hidden := flag ms "hidden"
  placeholder := lenient Lenient.text ms "placeholder"
  pattern := lenient Lenient.text ms "pattern"
  patternMessage := lenient Lenient.text ms "patternMessage"
  maxLength := lenient Lenient.count ms "maxLength"
  enums := ((ms.lookup "enums").bind choices?).join
  enumDict := lenient Lenient.text ms "enumDict"
  enumApi := lenient Lenient.text ms "enumApi"
  enumApiParams := Choice.set? ms "enumApiParams"
  widget := lenient Lenient.text ms "widget"
  bindBlock := lenient Lenient.text ms "bindBlock"
  bindCode := lenient Lenient.text ms "bindCode"
  maxCount := lenient Lenient.count ms "maxCount"
  maxSize := lenient Lenient.count ms "maxSize"
  fileTypes := lenient Lenient.text ms "fileTypes"
  fieldClass := Choice.set? ms "fieldClass"
  attributes := ms.filter fun (name, _) => (role? name).isNone

def notices : Json → List Notice
  | .object ms => (ms.takeWhile fun (name, j) => readable name j).filterMap fun (name, j) =>
      notice? name j
  | _ => []

def read? : Json → Option Field
  | .object ms => if ms.all (fun (name, j) => readable name j) then some (ofMembers ms) else none
  | _ => none

def kind (f : Field) : FieldType := f.type.getD .string

def hasOptionSource (f : Field) : Bool := f.enums.isSome || f.enumDict.isSome || f.enumApi.isSome

def optionSource? (f : Field) : Option OptionSource :=
  match f.enums.filter (!·.isEmpty), f.enumDict, f.enumApi with
  | some choices, _, _ => some (.inline choices)
  | none, some path, _ => some (.dictionary path)
  | none, none, some path => some (.lookup path (f.enumApiParams.getD Json.emptyObject))
  | none, none, none => none

def companion? (f : Field) : Option String := if f.bindBlock.isSome then f.bindCode else none

def extensions (f : Field) (start : String) : Members Json := f.attributes.startingWith start

def usesWidget (f : Field) (widget : String) : Bool := f.widget == some widget

end Field

end Form

end FormCompiler
