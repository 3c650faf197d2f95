import FormCompiler.Endpoint.Basic
import FormCompiler.Json.Parser
import FormCompiler.Options
import FormCompiler.Toml.Parser

namespace FormCompiler

structure Wording where
  select : Option String := none
  input : Option String := none
  patternMessage : Option String := none
  defaultTitle : Option String := none
  areaTitle : Option String := none
  deriving DecidableEq, Repr

structure Settings where
  wording : Wording := { }
  dictionaries : List String := []
  endpoints : Members Endpoint := []
  deriving DecidableEq, Repr

inductive SettingsError where
  | unsupportedExtension (extension : String)
  | json
  | toml
  deriving DecidableEq, Repr

def SettingsError.text : SettingsError → String
  | .unsupportedExtension extension =>
    "unsupported settings file extension: " ++ Text.quoted extension
  | .json => "malformed JSON settings"
  | .toml => "malformed TOML settings"

namespace Wording

def memberNames : List String :=
  ["select", "input", "pattern_message", "default_title", "area_title"]

def shape : Json.Shape := .flat memberNames

def read? (record : Json.RecordReader) (j : Json) : Option Wording := do
  let ms ← record memberNames j
  let select ← Json.unset? ms "select" Json.string?
  let input ← Json.unset? ms "input" Json.string?
  let patternMessage ← Json.unset? ms "pattern_message" Json.string?
  let defaultTitle ← Json.unset? ms "default_title" Json.string?
  let areaTitle ← Json.unset? ms "area_title" Json.string?
  some { select, input, patternMessage, defaultTitle, areaTitle }

def textOrNull (text : Option String) : Json := (text.map Json.string).getD .null

def toJson (w : Wording) : Json :=
  .object [("select", textOrNull w.select), ("input", textOrNull w.input),
    ("pattern_message", textOrNull w.patternMessage), ("default_title", textOrNull w.defaultTitle),
    ("area_title", textOrNull w.areaTitle)]

end Wording

namespace Settings

def memberNames : List String := ["prompts", "dictionaries", "lookups"]

def shape : Json.Shape :=
  .record [("prompts", Wording.shape), ("dictionaries", .whole), ("lookups", .each Endpoint.shape)]

def readEndpoints? (record : Json.RecordReader) (j : Json) : Option (Members Endpoint) :=
  (Json.membersOf? (Endpoint.read? record) j).map Members.sorted

def read? (record : Json.RecordReader) (j : Json) : Option Settings := do
  let ms ← record memberNames j
  let wording ← Json.defaulted? ms "prompts" { } (Wording.read? record)
  let dictionaries ← Json.defaulted? ms "dictionaries" [] (Json.listOf? Json.string?)
  let endpoints ← Json.defaulted? ms "lookups" [] (readEndpoints? record)
  some { wording, dictionaries, endpoints }

def parse (text extension : String) : Except SettingsError Settings :=
  match extension with
  | "toml" =>
    match (Toml.parse text).bind fun v => read? Json.openRecord? v.recordJson with
    | some settings => .ok settings
    | none => .error .toml
  | "json" =>
    match (Json.parseShape shape text).bind (read? Json.uniqueRecord?) with
    | some settings => .ok settings
    | none => .error .json
  | other => .error (.unsupportedExtension other)

def toJson (s : Settings) : Json :=
  .object [("prompts", s.wording.toJson), ("dictionaries", .array (s.dictionaries.map .string)),
    ("lookups", .object (s.endpoints.map fun (path, e) => (path, e.toJson)))]

def options (s : Settings) : CompilerOptions :=
  let defaults : CompilerOptions := { }
  { defaults with
    selectPrompt := s.wording.select.getD defaults.selectPrompt
    inputPrompt := s.wording.input.getD defaults.inputPrompt
    patternMessage := s.wording.patternMessage.getD defaults.patternMessage
    defaultTitle := s.wording.defaultTitle.getD defaults.defaultTitle
    areaTitle := s.wording.areaTitle.getD defaults.areaTitle }

end Settings

end FormCompiler
