import FormCompiler.Form.Field
import FormCompiler.Options
import FormCompiler.Schema.Basic

namespace FormCompiler

namespace Form.Field

def displayTitle (f : Form.Field) (o : CompilerOptions) : String :=
  f.title.getD (if f.usesWidget areaWidget then o.areaTitle else "")

def promptsChoice (f : Form.Field) : Bool := f.hasOptionSource || f.usesWidget areaWidget

def isUpload (f : Form.Field) : Bool := f.kind == .array && f.usesWidget uploadWidget

def uploadLimits (f : Form.Field) (o : CompilerOptions) : UploadDefaults where
  maxCount := f.maxCount.getD o.upload.maxCount
  maxSize := f.maxSize.getD o.upload.maxSize
  fileTypes := f.fileTypes.getD o.upload.fileTypes

def plainUi (f : Form.Field) (o : CompilerOptions) : Schema.UiOptions where
  disabled := f.disabled
  placeholder := some (f.placeholder.getD (o.prompt f.promptsChoice))
  pattern := f.pattern
  patternMessage := f.pattern.map fun _ => f.patternMessage.getD o.patternMessage
  maxLength := f.maxLength

def plain (f : Form.Field) (o : CompilerOptions) : Schema.Field where
  type := f.kind
  title := f.title.getD ""
  emptyValue := (f.emptyValue.filter Json.truthy).getD (.string "")
  hidden := if f.hidden then some true else none
  ui := f.plainUi o
  widget := f.widget.filter (· != uploadWidget)
  bindBlock := f.bindBlock
  bindCode := f.bindCode
  requiredMessage :=
    some (f.requiredMessage.getD (o.prompt f.promptsChoice ++ f.displayTitle o))
  attributes := f.extensions o.extensionPrefix

def withUpload (f : Form.Field) (o : CompilerOptions) (s : Schema.Field) : Schema.Field :=
  let limits := f.uploadLimits o
  { s with
    minItems := some 0
    maxItems := some limits.maxCount
    itemType := some "object"
    widget := some uploadWidget
    ui := { s.ui with
      maxCount := some limits.maxCount
      maxSize := some limits.maxSize
      fileTypes := some limits.fileTypes
      fieldClass := f.fieldClass } }

def synthesize (f : Form.Field) (o : CompilerOptions) : Schema.Field :=
  if f.isUpload then f.withUpload o (f.plain o) else f.plain o

def withInline (f : Form.Field) (s : Schema.Field) : Schema.Field :=
  match f.optionSource? with
  | some (.inline choices) => s.withChoices (ChoiceList.ofChoices choices)
  | _ => s

end Form.Field

structure BoundPair where
  primary : Schema.Field
  target : String
  companionKey : String
  companion : Schema.Field
  deriving Repr

namespace BoundPair

def primaryOf (f : Form.Field) (o : CompilerOptions) : Schema.Field :=
  f.withInline { f.synthesize o with hidden := some f.hidden }

def companionOf (block key : String) (f : Form.Field) (o : CompilerOptions) : Schema.Field where
  type := .string
  title := f.displayTitle o ++ "Code"
  emptyValue := .string ""
  hidden := some true
  ui := { disabled := f.disabled }
  bindBlock := some block
  bindCode := some key
  requiredMessage := some ""

def expand? (block key : String) (f : Form.Field) (o : CompilerOptions) : Option BoundPair :=
  f.companion?.map fun companionKey =>
    { primary := primaryOf f o
      target := f.bindBlock.getD ""
      companionKey
      companion := companionOf block key f o }

end BoundPair

end FormCompiler
