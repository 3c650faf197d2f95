import FormCompiler.Failure
import FormCompiler.Json.Printer
import FormCompiler.Text.Quoted

namespace FormCompiler

inductive OptionError where
  | table (error : LoadError)
  | missingDictionary (path : String)
  | notCallable (path : String)
  | callFailed (path : String) (failure : Failure)
  | unusableResponse (path : String) (response : Json)
  deriving Repr

def OptionError.text : OptionError → String
  | .table error => error.text
  | .missingDictionary path => s!"dictionary entry `{path}` is missing or not a list"
  | .notCallable path => s!"lookup target `{path}` is not callable"
  | .callFailed path failure => s!"lookup `{path}` failed: {failure.text}"
  | .unusableResponse path response =>
    s!"lookup `{path}` returned an unusable response: {response.render}"

inductive Notice where
  | notText (value : Json)
  | notNumeric (value : Json)
  | notNumeral (text : String)
  | unknownType (name : String)
  | malformedBlock (block : String)
  | malformedField (block field : String)
  | noConfig
  | unknownTarget (block field target companion : String)
  | strategyFailed (table : TableId) (failure : StrategyFailure)
  | tableUnavailable (error : LoadError)
  | degraded (path : String) (error : OptionError)
  | unsetVariable (name : String)
  deriving Repr

def unknownTypeText (name : String) : String :=
  s!"unknown field type `{name}`, expected string, number or array"

def noConfigText : String := "form document has no `config` object"

namespace Notice

def text : Notice → String
  | .notText value => s!"ignoring non-text value {value.render}"
  | .notNumeric value => s!"ignoring non-numeric value {value.render}"
  | .notNumeral text => s!"ignoring non-numeric value {Text.quoted text}"
  | .unknownType name => unknownTypeText name ++ ", using string"
  | .malformedBlock block => s!"block `{block}` is malformed"
  | .malformedField block field => s!"field `{block}.{field}` is malformed"
  | .noConfig => "form config rejected: " ++ noConfigText
  | .unknownTarget block field target companion =>
    s!"`{block}.{field}` binds to unknown block `{target}`, keeping `{companion}` in `{block}`"
  | .strategyFailed table failure =>
    s!"{table.text} table: strategy `{failure.strategy}` failed: {failure.failure.text}"
  | .tableUnavailable error => error.text
  | .degraded path error => s!"options of `{path}` degraded to empty: {error.text}"
  | .unsetVariable name => s!"environment variable {name} is not set"

def isError : Notice → Bool
  | .tableUnavailable _ => true
  | _ => false

def line (n : Notice) : String := (if n.isError then "ERROR " else "WARN ") ++ n.text

end Notice

end FormCompiler
