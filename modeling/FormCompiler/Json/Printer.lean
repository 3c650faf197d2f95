import FormCompiler.Decimal.Shortest
import FormCompiler.Json.Basic

namespace FormCompiler

def Number.text : Number → String
  | .integer n => toString n
  | .float x => x.text

namespace Json

def hexDigit (n : Nat) : Char := "0123456789abcdef".toList.getD n '0'

def escapeChar (c : Char) : List Char :=
  match c with
  | '"' => ['\\', '"']
  | '\\' => ['\\', '\\']
  | '\n' => ['\\', 'n']
  | '\r' => ['\\', 'r']
  | '\t' => ['\\', 't']
  | '\x08' => ['\\', 'b']
  | '\x0c' => ['\\', 'f']
  | c =>
    if c.toNat < 32 then ['\\', 'u', '0', '0', hexDigit (c.toNat / 16), hexDigit (c.toNat % 16)]
    else [c]

def quoted (s : String) : String :=
  String.ofList ('"' :: s.toList.flatMap escapeChar ++ ['"'])

mutual

def render : Json → String
  | .null => "null"
  | .bool b => if b then "true" else "false"
  | .number n => n.text
  | .string s => quoted s
  | .array items => "[" ++ ",".intercalate (renderItems items) ++ "]"
  | .object ms => "\x7b" ++ ",".intercalate (renderMembers ms) ++ "\x7d"

def renderItems : List Json → List String
  | [] => []
  | j :: rest => render j :: renderItems rest

def renderMembers : Members Json → List String
  | [] => []
  | (k, v) :: rest => (quoted k ++ ":" ++ render v) :: renderMembers rest

end

def enclose (opening closing indent : String) (parts : List String) : String :=
  if parts.isEmpty then opening ++ closing
  else
    let inner := "\n" ++ indent ++ "  "
    opening ++ inner ++ ("," ++ inner).intercalate parts ++ "\n" ++ indent ++ closing

mutual

def renderPretty (indent : String) : Json → String
  | .null => "null"
  | .bool b => if b then "true" else "false"
  | .number n => n.text
  | .string s => quoted s
  | .array items => enclose "[" "]" indent (prettyItems (indent ++ "  ") items)
  | .object ms => enclose "\x7b" "\x7d" indent (prettyMembers (indent ++ "  ") ms)

def prettyItems (indent : String) : List Json → List String
  | [] => []
  | j :: rest => renderPretty indent j :: prettyItems indent rest

def prettyMembers (indent : String) : Members Json → List String
  | [] => []
  | (k, v) :: rest => (quoted k ++ ": " ++ renderPretty indent v) :: prettyMembers indent rest

end

def pretty (j : Json) : String := j.renderPretty ""

end Json

end FormCompiler
