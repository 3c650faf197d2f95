import FormCompiler.Environment
import FormCompiler.Json.Record
import FormCompiler.Json.Shape

namespace FormCompiler

structure Endpoint where
  url : String
  headers : Members String := []
  timeout : Option Nat := none
  deriving DecidableEq, Repr

structure Remote where
  url : String
  headers : Members String
  timeout : Option Nat
  deriving DecidableEq, Repr

namespace Endpoint

def memberNames : List String := ["url", "headers", "timeout_secs"]

def shape : Json.Shape := .flat memberNames

def readHeaders? (j : Json) : Option (Members String) :=
  (Json.membersOf? Json.string? j).map Members.sorted

def read? (record : Json.RecordReader) (j : Json) : Option Endpoint := do
  let ms ← record memberNames j
  let url ← Json.required? ms "url" Json.string?
  let headers ← Json.defaulted? ms "headers" [] readHeaders?
  let timeout ← Json.unset? ms "timeout_secs" Json.unsigned?
  some { url, headers, timeout }

def toJson (e : Endpoint) : Json :=
  .object [("url", .string e.url),
    ("headers", .object (e.headers.map fun (name, value) => (name, .string value))),
    ("timeout_secs", (e.timeout.map Json.ofNat).getD .null)]

def texts (e : Endpoint) : List String := e.url :: e.headers.map (·.2)

def prepare (env : Environment) (e : Endpoint) : Remote where
  url := env.expand e.url
  headers := e.headers.map fun (name, value) => (name, env.expand value)
  timeout := e.timeout

def notices (env : Environment) (e : Endpoint) : List Notice := e.texts.flatMap env.notices

end Endpoint

end FormCompiler
