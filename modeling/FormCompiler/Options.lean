import FormCompiler.Json.Record

namespace FormCompiler

def areaWidget : String := "AreaWidget"

def uploadWidget : String := "uploadWidget"

structure UploadDefaults where
  maxCount : Nat := 50
  maxSize : Nat := 20 * 1024 * 1024
  fileTypes : String := "jpeg,jpg,png"
  deriving Repr

structure CompilerOptions where
  defaultTitle : String := "title"
  selectPrompt : String := "请选择"
  inputPrompt : String := "请输入"
  patternMessage : String := "格式不正确"
  areaTitle : String := "省市区"
  extensionPrefix : String := "hr"
  uiOptions : Members Json := [("canBeFolded", .bool true), ("hrBlockType", .string "0")]
  upload : UploadDefaults := { }
  deriving Repr

namespace UploadDefaults

def memberNames : List String := ["maxCount", "maxSize", "fileTypes"]

def read? (j : Json) : Option UploadDefaults := do
  let ms ← j.record? memberNames
  let defaults : UploadDefaults := { }
  let maxCount ← Json.defaulted? ms "maxCount" defaults.maxCount Json.unsigned?
  let maxSize ← Json.defaulted? ms "maxSize" defaults.maxSize Json.unsigned?
  let fileTypes ← Json.defaulted? ms "fileTypes" defaults.fileTypes Json.string?
  some { maxCount, maxSize, fileTypes }

def toJson (u : UploadDefaults) : Json :=
  .object [("maxCount", .ofNat u.maxCount), ("maxSize", .ofNat u.maxSize),
    ("fileTypes", .string u.fileTypes)]

end UploadDefaults

namespace CompilerOptions

def prompt (o : CompilerOptions) (choice : Bool) : String :=
  if choice then o.selectPrompt else o.inputPrompt

def memberNames : List String :=
  ["defaultTitle", "selectPrompt", "inputPrompt", "patternMessage", "areaTitle", "extensionPrefix",
    "uiOptions", "upload"]

def read? (j : Json) : Option CompilerOptions := do
  let ms ← j.record? memberNames
  let defaults : CompilerOptions := { }
  let defaultTitle ← Json.defaulted? ms "defaultTitle" defaults.defaultTitle Json.string?
  let selectPrompt ← Json.defaulted? ms "selectPrompt" defaults.selectPrompt Json.string?
  let inputPrompt ← Json.defaulted? ms "inputPrompt" defaults.inputPrompt Json.string?
  let patternMessage ← Json.defaulted? ms "patternMessage" defaults.patternMessage Json.string?
  let areaTitle ← Json.defaulted? ms "areaTitle" defaults.areaTitle Json.string?
  let extensionPrefix ← Json.defaulted? ms "extensionPrefix" defaults.extensionPrefix Json.string?
  let uiOptions ← Json.defaulted? ms "uiOptions" defaults.uiOptions Json.members?
  let upload ← Json.defaulted? ms "upload" defaults.upload UploadDefaults.read?
  some { defaultTitle, selectPrompt, inputPrompt, patternMessage, areaTitle, extensionPrefix,
         uiOptions, upload }

def toJson (o : CompilerOptions) : Json :=
  .object [("defaultTitle", .string o.defaultTitle), ("selectPrompt", .string o.selectPrompt),
    ("inputPrompt", .string o.inputPrompt), ("patternMessage", .string o.patternMessage),
    ("areaTitle", .string o.areaTitle), ("extensionPrefix", .string o.extensionPrefix),
    ("uiOptions", .object o.uiOptions), ("upload", o.upload.toJson)]

end CompilerOptions

end FormCompiler
