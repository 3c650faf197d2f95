import FormCompiler.Compile
import FormCompiler.Endpoint.Table
import FormCompiler.Schema.Json
import FormCompiler.Settings.Basic

namespace FormCompiler

inductive RunError where
  | settingsUnreadable (path : String) (error : FileError)
  | settingsInvalid (path : String) (error : SettingsError)
  | document (error : DocumentError)
  | noForm (path : String)
  | notWritten (error : FileError)
  deriving DecidableEq, Repr

def RunError.failure : RunError → Failure
  | .settingsUnreadable path error =>
    ⟨["can not open settings file " ++ path ++ ": " ++ error.text]⟩
  | .settingsInvalid path error => ⟨["invalid settings file " ++ path ++ ": " ++ error.text]⟩
  | .document error => error.failure
  | .noForm path => ⟨[path ++ " has no usable form config"]⟩
  | .notWritten error => ⟨[error.text]⟩

/-- The files of support tables that a run is given beside those of the settings. -/
structure TableFiles where
  dictionaries : List String := []
  lookups : Option String := none
  deriving DecidableEq, Repr

def dictionaryFile (files : FileTree) (path : String) : Strategy Json where
  name := "file:" ++ path
  attempt _ :=
    { delay := .background, outcome := (Document.load files path).mapError DocumentError.failure }

def endpointFile (env : Environment) (files : FileTree) (path : String) :
    Strategy (LookupTable Remote) where
  name := "file:" ++ path
  attempt _ := EndpointTable.ofFile env files path

def tableAtHand {τ : Type} (name : String) (table : τ) : Strategy τ where
  name := name
  attempt _ := { delay := .polls 0, outcome := .ok table }

structure Workspace where
  directory : String
  settings : Settings := { }
  settingsPath : Option String := none
  deriving DecidableEq, Repr

namespace Workspace

def settingsFile : String := ".formc.toml"

def settingsPath? (files : FileTree) (directory : String) : Option String → Option String
  | some path => some (Path.resolve directory path)
  | none =>
    let path := Path.resolve directory settingsFile
    if files.exists? path then some path else none

def settingsExtension (path : String) : String :=
  if Path.extension path = "" then "toml" else Path.extension path

def load (files : FileTree) (directory : String) (settings : Option String) :
    Except RunError Workspace :=
  match settingsPath? files directory settings with
  | none => .ok { directory }
  | some path =>
    match files.read path with
    | .error e => .error (.settingsUnreadable path e)
    | .ok text =>
      match Settings.parse text (settingsExtension path) with
      | .error e => .error (.settingsInvalid path e)
      | .ok settings => .ok { directory, settings, settingsPath := some path }

def resolve (w : Workspace) (path : String) : String := Path.resolve w.directory path

def dictionaryPaths (w : Workspace) (tables : TableFiles) : List String :=
  (w.settings.dictionaries ++ tables.dictionaries).map w.resolve

def dictionaryStrategies (w : Workspace) (files : FileTree) (tables : TableFiles) :
    List (Strategy Json) :=
  (w.dictionaryPaths tables).map (dictionaryFile files)

def lookupStrategies (w : Workspace) (env : Environment) (files : FileTree) (tables : TableFiles) :
    List (Strategy (LookupTable Remote)) :=
  (if w.settings.endpoints.isEmpty then []
    else [tableAtHand "settings" (EndpointTable.ofEndpoints env w.settings.endpoints)]) ++
  (tables.lookups.map fun path => endpointFile env files (w.resolve path)).toList

def cache (w : Workspace) (env : Environment) (files : FileTree) (tables : TableFiles) :
    Cache Remote :=
  (Cache.ofStrategies (w.dictionaryStrategies files tables)
    (w.lookupStrategies env files tables)).note
      (EndpointTable.noticesOfEndpoints env w.settings.endpoints)

def inputs (w : Workspace) (form : String) (tables : TableFiles) : List String :=
  w.dictionaryPaths tables ++ (tables.lookups.map w.resolve).toList ++ [w.resolve form]

def references (w : Workspace) (files : FileTree) (tables : TableFiles) : List String :=
  let further := match tables.lookups.map fun path => Document.load files (w.resolve path) with
    | some (.ok document) => EndpointTable.prepared document
    | _ => []
  (w.settings.endpoints.map (·.2) ++ further).flatMap fun e =>
    e.texts.flatMap Environment.references

def compileForm (w : Workspace) (files : FileTree) (form : String) (backend : Backend Remote)
    (c : Cache Remote) : Cache Remote × Except RunError Schema :=
  let path := w.resolve form
  match Document.load files path with
  | .error e => (c, .error (.document e))
  | .ok document =>
    match compile document w.settings.options backend c with
    | (c, none) => (c, .error (.noForm path))
    | (c, some schema) => (c, .ok schema)

def schemaText (schema : Schema) : String := schema.toJson.pretty

def write (w : Workspace) (files : FileTree) (out : String) (schema : Schema) :
    Except RunError FileTree :=
  (files.write (w.resolve out) (schemaText schema ++ "\n")).mapError .notWritten

end Workspace

end FormCompiler
