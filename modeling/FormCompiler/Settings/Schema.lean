import FormCompiler.Settings.Basic

namespace FormCompiler

namespace Settings

namespace Schema

def described (description : String) (keywords : Members Json) : Json :=
  .object (("description", .string description) :: keywords)

def record (required : List String) (properties : Members Json) : Members Json :=
  [("type", .string "object")] ++
    (if required.isEmpty then [] else [("required", .array (required.map .string))]) ++
    [("properties", .object properties)]

def nullable (type : String) : Members Json :=
  [("default", .null), ("type", .array [.string type, .string "null"])]

def map (value : Json) : Members Json :=
  [("default", .emptyObject), ("type", .string "object"), ("additionalProperties", value)]

def text : Json := .object [("type", .string "string")]

def reference (definition : String) : Json :=
  .object [("$ref", .string ("#/definitions/" ++ definition))]

def endpoint : Json :=
  described ("A remote lookup reached over HTTP.\n\n" ++
      "The field's `enumApiParams` are POSTed as the JSON body and the JSON response body is " ++
      "handed back to the compiler unchanged.") <|
    record ["url"]
      [("headers", described ("Extra request headers. `$\x7benv:VAR\x7d` placeholders in values " ++
          "are expanded.") (map text)),
        ("timeout_secs", described "Request timeout in seconds." (nullable "integer" ++
          [("format", .string "uint64"), ("minimum", .number (.float (Binary64.zero false)))])),
        ("url", described "Endpoint URL. `$\x7benv:VAR\x7d` placeholders are expanded."
          [("type", .string "string")])]

def wording : Json :=
  described "Wording overrides. Unset entries keep the compiler defaults." <|
    record []
      [("area_title", described "Title of area selector fields that declare none."
          (nullable "string")),
        ("default_title", described "Schema title when the form declares none."
          (nullable "string")),
        ("input", described "Prompt of free-input fields, e.g. \"请输入\"." (nullable "string")),
        ("pattern_message", described "Message used when a pattern has no message of its own."
          (nullable "string")),
        ("select", described "Prompt of choice fields, e.g. \"请选择\"." (nullable "string"))]

end Schema

def schema : Json :=
  let defaults : Wording := { }
  .object ([("$schema", .string "http://json-schema.org/draft-07/schema#"),
      ("title", .string "Settings"), ("description", .string "Root of the settings file.")] ++
    Schema.record []
      [("dictionaries", Schema.described ("Dictionary files, tried in order before the ones " ++
          "given on the command line. Relative paths start at the working directory.")
          [("default", .array []), ("type", .string "array"), ("items", Schema.text)]),
        ("lookups", Schema.described ("HTTP lookup endpoints keyed by the dotted path fields " ++
          "use in `enumApi`.") (Schema.map (Schema.reference "HttpEndpoint"))),
        ("prompts", Schema.described "Wording overrides for generated prompts and messages."
          [("default", defaults.toJson),
            ("allOf", .array [Schema.reference "PromptSettings"])])] ++
    [("definitions", .object
      [("HttpEndpoint", Schema.endpoint), ("PromptSettings", Schema.wording)])])

end Settings

end FormCompiler
