import FormCompiler.Failure
import FormCompiler.Files.Tree
import FormCompiler.Json.Parser
import FormCompiler.Notice
import FormCompiler.Toml.Parser

namespace FormCompiler

inductive DocumentError where
  | unsupportedExtension (extension : String)
  | unreadable (path : String) (error : FileError)
  | json
  | toml
  | noConfig
  deriving DecidableEq, Repr

namespace DocumentError

def text : DocumentError → String
  | .unsupportedExtension extension =>
    s!"unsupported config file extension: {Text.quoted extension}"
  | .unreadable path error => s!"failed to read {path}: {error.text}"
  | .json => "malformed JSON text"
  | .toml => "malformed TOML text"
  | .noConfig => noConfigText

def failure : DocumentError → Failure
  | .unreadable path error => ⟨[text (.unreadable path error), error.text]⟩
  | e => ⟨[e.text]⟩

end DocumentError

namespace Document

def parse (text extension : String) : Except DocumentError Json :=
  match extension with
  | "json" => match Json.parse text with
    | some j => .ok j
    | none => .error .json
  | "toml" => match (Toml.parse text).bind Toml.Value.document? with
    | some j => .ok j
    | none => .error .toml
  | other => .error (.unsupportedExtension other)

def load (files : FileTree) (path : String) : Except DocumentError Json :=
  match files.read path with
  | .error e => .error (.unreadable path e)
  | .ok text => parse text (Path.extension path)

end Document

end FormCompiler
