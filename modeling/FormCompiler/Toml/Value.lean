import FormCompiler.Json.Basic
import FormCompiler.Toml.DateTime

namespace FormCompiler

namespace Toml

inductive Value where
  | string (s : String)
  | integer (n : Int)
  | float (x : Option Binary64)
  | bool (b : Bool)
  | dateTime (d : DateTime)
  | array (items : List Value)
  | table (entries : List (String × Value))

def dateTimeKey : String := "$__toml_private_datetime"

def dateTimeJson (d : DateTime) : Json := .object [(dateTimeKey, .string d.text)]

def taggedDateTime? : List (String × Value) → Option (Option DateTime)
  | (key, v) :: _ =>
    if key = dateTimeKey then
      match v with
      | .string s => some (DateTime.ofText? s)
      | _ => some none
    else none
  | [] => none

namespace Value

mutual

/-- The JSON document of a value: floats that are not finite become null. A table whose first key is
the one for dates and times has to hold such a text. -/
def document? : Value → Option Json
  | .string s => some (.string s)
  | .integer n => some (.number (.integer n))
  | .float none => some .null
  | .float (some x) => some (.number (.float x))
  | .bool b => some (.bool b)
  | .dateTime d => some (dateTimeJson d)
  | .array items => (documents? items).map .array
  | .table entries =>
    match taggedDateTime? entries with
    | some d => d.map dateTimeJson
    | none => (entryDocuments? entries).map .object

def documents? : List Value → Option (List Json)
  | [] => some []
  | v :: rest => do
    let j ← document? v
    let js ← documents? rest
    some (j :: js)

def entryDocuments? : List (String × Value) → Option (Members Json)
  | [] => some []
  | (k, v) :: rest => do
    let j ← document? v
    let js ← entryDocuments? rest
    some ((k, j) :: js)

end

mutual

def recordJson : Value → Json
  | .string s => .string s
  | .integer n => .number (.integer n)
  | .float x => .number (.float (x.getD (Binary64.zero false)))
  | .bool b => .bool b
  | .dateTime d => dateTimeJson d
  | .array items => .array (recordItems items)
  | .table entries => .object (recordEntries entries)

def recordItems : List Value → List Json
  | [] => []
  | v :: rest => recordJson v :: recordItems rest

def recordEntries : List (String × Value) → Members Json
  | [] => []
  | (k, v) :: rest => (k, recordJson v) :: recordEntries rest

end

end Value

end Toml

end FormCompiler
