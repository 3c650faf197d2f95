import FormCompiler.Text.Numeral

namespace FormCompiler

namespace Toml

def isBlank (c : Char) : Bool := c == ' ' || c == '\t'

def skipBlanks (cs : List Char) : List Char := cs.dropWhile isBlank

def isControl (c : Char) : Bool := (c.toNat < 0x20 && c != '\t') || c.toNat == 0x7f

def newline? : List Char → Option (List Char)
  | '\n' :: rest => some rest
  | '\r' :: '\n' :: rest => some rest
  | _ => none

def skipNewline (cs : List Char) : List Char := (newline? cs).getD cs

def skipComment : List Char → List Char
  | '#' :: rest => rest.dropWhile (!isControl ·)
  | cs => cs

def lineEnd (cs : List Char) : Option (List Char) :=
  match skipComment (skipBlanks cs) with
  | [] => some []
  | rest => newline? rest

def skipLines : Nat → List Char → List Char
  | 0, cs => cs
  | fuel + 1, cs =>
    match newline? (skipComment (skipBlanks cs)) with
    | some rest => skipLines fuel rest
    | none => skipBlanks cs

def codePoint (digits : List Char) : Option Char := do
  let values ← digits.mapM Text.hexValue?
  let n := values.foldl (fun acc d => acc * 16 + d) 0
  if n < 0xd800 ∨ (0xdfff < n ∧ n < 0x110000) then some (Char.ofNat n) else none

def escaped? : Char → Option Char
  | 'b' => some '\x08'
  | 't' => some '\t'
  | 'n' => some '\n'
  | 'f' => some '\x0c'
  | 'r' => some '\r'
  | '"' => some '"'
  | '\\' => some '\\'
  | _ => none

def finished (seen : List Char) (rest : List Char) : Option (String × List Char) :=
  some (String.ofList seen.reverse, rest)

def basicRest (seen : List Char) : List Char → Option (String × List Char)
  | [] => none
  | '"' :: rest => finished seen rest
  | '\\' :: 'u' :: a :: b :: c :: d :: rest =>
    match codePoint [a, b, c, d] with
    | some ch => basicRest (ch :: seen) rest
    | none => none
  | '\\' :: 'U' :: a :: b :: c :: d :: e :: f :: g :: h :: rest =>
    match codePoint [a, b, c, d, e, f, g, h] with
    | some ch => basicRest (ch :: seen) rest
    | none => none
  | '\\' :: c :: rest =>
    match escaped? c with
    | some ch => basicRest (ch :: seen) rest
    | none => none
  | c :: rest => if isControl c || c == '\\' then none else basicRest (c :: seen) rest

def literalRest (seen : List Char) : List Char → Option (String × List Char)
  | [] => none
  | '\'' :: rest => finished seen rest
  | c :: rest => if isControl c then none else literalRest (c :: seen) rest

def hidesLine (cs : List Char) : Bool := (newline? (skipBlanks cs)).isSome

/-- A string over several lines after its opening quotes. Up to two quotes may stand before the
closing three. While `hidden` holds, blanks and line ends are skipped. -/
def linesRest (hidden : Bool) (seen : List Char) : List Char → Option (String × List Char)
  | [] => none
  | '"' :: '"' :: '"' :: '"' :: '"' :: rest => finished ('"' :: '"' :: seen) rest
  | '"' :: '"' :: '"' :: '"' :: rest => finished ('"' :: seen) rest
  | '"' :: '"' :: '"' :: rest => finished seen rest
  | '\r' :: '\n' :: rest => linesRest hidden (if hidden then seen else '\n' :: seen) rest
  | '\n' :: rest => linesRest hidden (if hidden then seen else '\n' :: seen) rest
  | '\\' :: 'u' :: a :: b :: c :: d :: rest =>
    match codePoint [a, b, c, d] with
    | some ch => linesRest false (ch :: seen) rest
    | none => none
  | '\\' :: 'U' :: a :: b :: c :: d :: e :: f :: g :: h :: rest =>
    match codePoint [a, b, c, d, e, f, g, h] with
    | some ch => linesRest false (ch :: seen) rest
    | none => none
  | '\\' :: c :: rest =>
    match escaped? c with
    | some ch => linesRest false (ch :: seen) rest
    | none =>
      if hidesLine (c :: rest) then linesRest true seen (c :: rest) else none
  | c :: rest =>
    if isControl c || c == '\\' then none
    else if hidden && isBlank c then linesRest true seen rest
    else linesRest false (c :: seen) rest

def literalLinesRest (seen : List Char) : List Char → Option (String × List Char)
  | [] => none
  | '\'' :: '\'' :: '\'' :: '\'' :: '\'' :: rest => finished ('\'' :: '\'' :: seen) rest
  | '\'' :: '\'' :: '\'' :: '\'' :: rest => finished ('\'' :: seen) rest
  | '\'' :: '\'' :: '\'' :: rest => finished seen rest
  | '\r' :: '\n' :: rest => literalLinesRest ('\n' :: seen) rest
  | '\n' :: rest => literalLinesRest ('\n' :: seen) rest
  | c :: rest => if isControl c then none else literalLinesRest (c :: seen) rest

def string : List Char → Option (String × List Char)
  | '"' :: '"' :: '"' :: rest => linesRest false [] (skipNewline rest)
  | '"' :: rest => basicRest [] rest
  | '\'' :: '\'' :: '\'' :: rest => literalLinesRest [] (skipNewline rest)
  | '\'' :: rest => literalRest [] rest
  | _ => none

def isKeyChar (c : Char) : Bool := c.isAlphanum || c == '_' || c == '-'

def simpleKey : List Char → Option (String × List Char)
  | '"' :: rest => basicRest [] rest
  | '\'' :: rest => literalRest [] rest
  | cs =>
    if (cs.takeWhile isKeyChar).isEmpty then none
    else some (String.ofList (cs.takeWhile isKeyChar), cs.dropWhile isKeyChar)

def keyParts : Nat → List Char → Option (List String × List Char)
  | 0, _ => none
  | fuel + 1, cs => do
    let (part, rest) ← simpleKey (skipBlanks cs)
    match skipBlanks rest with
    | '.' :: rest =>
      let (parts, rest) ← keyParts fuel rest
      some (part :: parts, rest)
    | rest => some ([part], rest)

def key (cs : List Char) : Option ((List String × String) × List Char) := do
  let (parts, rest) ← keyParts 79 cs
  let last ← parts.getLast?
  some ((parts.dropLast, last), rest)

end Toml

end FormCompiler
