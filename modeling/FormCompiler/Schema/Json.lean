import FormCompiler.Json.Record
import FormCompiler.Schema.Basic

namespace FormCompiler

namespace Schema

def member? {α : Type} (name : String) (write : α → Json) (value : Option α) : Members Json :=
  match value with
  | none => []
  | some v => [(name, write v)]

def writeTexts (texts : List String) : Json := .array (texts.map .string)

namespace UiOptions

def memberNames : List String :=
  ["disabled", "placeholder", "clearable", "pattern", "err:pattern", "maxLength", "fieldClass",
    "maxCount", "maxSize", "fileTypes"]

def toJson (u : UiOptions) : Json :=
  .object ([("disabled", Json.bool u.disabled)] ++ member? "placeholder" .string u.placeholder ++
    member? "clearable" .bool u.clearable ++ member? "pattern" .string u.pattern ++
    member? "err:pattern" .string u.patternMessage ++ member? "maxLength" .ofNat u.maxLength ++
    member? "fieldClass" id u.fieldClass ++ member? "maxCount" .ofNat u.maxCount ++
    member? "maxSize" .ofNat u.maxSize ++ member? "fileTypes" .string u.fileTypes)

def read? (j : Json) : Option UiOptions := do
  let ms ← j.record? memberNames
  let disabled ← Json.required? ms "disabled" Json.bool?
  let placeholder ← Json.unset? ms "placeholder" Json.string?
  let clearable ← Json.unset? ms "clearable" Json.bool?
  let pattern ← Json.unset? ms "pattern" Json.string?
  let patternMessage ← Json.unset? ms "err:pattern" Json.string?
  let maxLength ← Json.unset? ms "maxLength" Json.unsigned?
  let fieldClass ← Json.unset? ms "fieldClass" some
  let maxCount ← Json.unset? ms "maxCount" Json.unsigned?
  let maxSize ← Json.unset? ms "maxSize" Json.unsigned?
  let fileTypes ← Json.unset? ms "fileTypes" Json.string?
  some { disabled, placeholder, clearable, pattern, patternMessage, maxLength, fieldClass, maxCount,
         maxSize, fileTypes }

end UiOptions

namespace Field

def memberNames : List String :=
  ["type", "title", "ui:emptyValue", "ui:hidden", "uniqueItems", "enum", "enumNames", "minItems",
    "maxItems", "items", "ui:options", "ui:widget", "bindBlock", "bindCode", "extProperties",
    "err:required"]

def writeItems (type : String) : Json := .object [("type", .string type)]

def readItems (j : Json) : Option String := do
  let ms ← j.record? ["type"]
  Json.required? ms "type" Json.string?

def members (f : Field) : Members Json :=
  [("type", .string f.type.text), ("title", .string f.title), ("ui:emptyValue", f.emptyValue)] ++
    member? "ui:hidden" .bool f.hidden ++ member? "uniqueItems" .bool f.uniqueItems ++
    member? "enum" .array f.codes ++ member? "enumNames" writeTexts f.labels ++
    member? "minItems" .ofNat f.minItems ++ member? "maxItems" .ofNat f.maxItems ++
    member? "items" writeItems f.itemType ++ [("ui:options", f.ui.toJson)] ++
    member? "ui:widget" .string f.widget ++ member? "bindBlock" .string f.bindBlock ++
    member? "bindCode" .string f.bindCode ++ [("extProperties", .object f.extProperties)] ++
    member? "err:required" .string f.requiredMessage ++ f.attributes

def toJson (f : Field) : Json := .object f.members

def readType (j : Json) : Option FieldType := j.string?.bind FieldType.ofText?

def read? (j : Json) : Option Field := do
  let ms ← j.members?
  let type ← Json.required? ms "type" readType
  let title ← Json.required? ms "title" Json.string?
  let emptyValue ← Json.required? ms "ui:emptyValue" some
  let hidden ← Json.unset? ms "ui:hidden" Json.bool?
  let uniqueItems ← Json.unset? ms "uniqueItems" Json.bool?
  let codes ← Json.unset? ms "enum" Json.items?
  let labels ← Json.unset? ms "enumNames" (Json.listOf? Json.string?)
  let minItems ← Json.unset? ms "minItems" Json.unsigned?
  let maxItems ← Json.unset? ms "maxItems" Json.unsigned?
  let itemType ← Json.unset? ms "items" readItems
  let ui ← Json.required? ms "ui:options" UiOptions.read?
  let widget ← Json.unset? ms "ui:widget" Json.string?
  let bindBlock ← Json.unset? ms "bindBlock" Json.string?
  let bindCode ← Json.unset? ms "bindCode" Json.string?
  let extProperties ← Json.defaulted? ms "extProperties" [] Json.members?
  let requiredMessage ← Json.unset? ms "err:required" Json.string?
  some { type, title, emptyValue, hidden, uniqueItems, codes, labels, minItems, maxItems, itemType,
         ui, widget, bindBlock, bindCode, extProperties, requiredMessage
         attributes := ms.filter fun (name, _) => !memberNames.contains name }

end Field

namespace Block

def memberNames : List String := ["title", "required", "properties", "ui:options"]

def members (b : Block) : Members Json :=
  [("title", .string b.title), ("required", writeTexts b.required),
    ("properties", .object (b.fields.map fun (key, f) => (key, f.toJson)))] ++
    member? "ui:options" .object b.uiOptions ++ b.attributes

def toJson (b : Block) : Json := .object b.members

def read? (j : Json) : Option Block := do
  let ms ← j.members?
  let title ← Json.required? ms "title" Json.string?
  let required ← Json.required? ms "required" (Json.listOf? Json.string?)
  let fields ← Json.required? ms "properties" (Json.membersOf? Field.read?)
  let uiOptions ← Json.unset? ms "ui:options" Json.members?
  some { title, required, fields, uiOptions
         attributes := ms.filter fun (name, _) => !memberNames.contains name }

end Block

def memberNames : List String := ["title", "type", "required", "properties", "ui:options"]

def toJson (s : Schema) : Json :=
  .object [("title", .string s.title), ("type", .string s.type),
    ("required", writeTexts s.required),
    ("properties", .object (s.blocks.map fun (key, b) => (key, b.toJson))),
    ("ui:options", .object s.uiOptions)]

def read? (j : Json) : Option Schema := do
  let ms ← j.record? memberNames
  let title ← Json.required? ms "title" Json.string?
  let type ← Json.required? ms "type" Json.string?
  let required ← Json.required? ms "required" (Json.listOf? Json.string?)
  let blocks ← Json.required? ms "properties" (Json.membersOf? Block.read?)
  let uiOptions ← Json.required? ms "ui:options" Json.members?
  some { title, type, required, blocks, uiOptions }

end Schema

end FormCompiler
