import FormCompiler.Text.Numeral

/-!
Skimming a JSON value that nobody reads: its grammar is checked and nothing else. Numbers may have
any size, escapes may be lone surrogates, and containers may stand inside one another to any depth.
A skimmer takes the characters ahead and gives the rest, or nothing when the text is wrong.
-/
namespace FormCompiler

namespace Json

def isBlank (c : Char) : Bool := c == ' ' || c == '\t' || c == '\n' || c == '\r'

def skipBlanks (cs : List Char) : List Char := cs.dropWhile isBlank

def startsWithDigit : List Char → Bool
  | c :: _ => Text.isDigit c
  | [] => false

namespace Skim

def isEscape (c : Char) : Bool := ['"', '\\', '/', 'b', 'f', 'n', 'r', 't'].contains c

def isHexDigit (c : Char) : Bool := (Text.hexValue? c).isSome

def string : List Char → Option (List Char)
  | '"' :: rest => some rest
  | '\\' :: 'u' :: a :: b :: c :: d :: rest =>
    if [a, b, c, d].all isHexDigit then string rest else none
  | '\\' :: c :: rest => if isEscape c then string rest else none
  | c :: rest => if c.toNat < 32 then none else string rest
  | [] => none

def digits (cs : List Char) : Option (List Char) :=
  if startsWithDigit cs then some (cs.dropWhile Text.isDigit) else none

def whole : List Char → Option (List Char)
  | '0' :: rest => if startsWithDigit rest then none else some rest
  | cs => digits cs

def fraction : List Char → Option (List Char)
  | '.' :: rest => digits rest
  | cs => some cs

def exponentRest : List Char → Option (List Char)
  | '+' :: rest => digits rest
  | '-' :: rest => digits rest
  | cs => digits cs

def exponent : List Char → Option (List Char)
  | 'e' :: rest => exponentRest rest
  | 'E' :: rest => exponentRest rest
  | cs => some cs

def number (cs : List Char) : Option (List Char) := do
  let rest ← match cs with
    | '-' :: rest => whole rest
    | cs => whole cs
  exponent (← fraction rest)

inductive Opened where
  | array
  | object
  deriving DecidableEq, Repr

mutual

def value : Nat → List Opened → List Char → Option (List Char)
  | 0, _, _ => none
  | fuel + 1, opened, cs =>
    match skipBlanks cs with
    | 'n' :: 'u' :: 'l' :: 'l' :: rest => next fuel opened rest
    | 't' :: 'r' :: 'u' :: 'e' :: rest => next fuel opened rest
    | 'f' :: 'a' :: 'l' :: 's' :: 'e' :: rest => next fuel opened rest
    | '"' :: rest =>
      match string rest with
      | some rest => next fuel opened rest
      | none => none
    | '[' :: rest =>
      match skipBlanks rest with
      | ']' :: rest => next fuel opened rest
      | rest => value fuel (.array :: opened) rest
    | '\x7b' :: rest =>
      match skipBlanks rest with
      | '\x7d' :: rest => next fuel opened rest
      | rest => member fuel (.object :: opened) rest
    | cs =>
      match number cs with
      | some rest => next fuel opened rest
      | none => none

def next : Nat → List Opened → List Char → Option (List Char)
  | 0, _, _ => none
  | _ + 1, [], cs => some cs
  | fuel + 1, .array :: opened, cs =>
    match skipBlanks cs with
    | ',' :: rest => value fuel (.array :: opened) rest
    | ']' :: rest => next fuel opened rest
    | _ => none
  | fuel + 1, .object :: opened, cs =>
    match skipBlanks cs with
    | ',' :: rest => member fuel (.object :: opened) rest
    | '\x7d' :: rest => next fuel opened rest
    | _ => none

def member : Nat → List Opened → List Char → Option (List Char)
  | 0, _, _ => none
  | fuel + 1, opened, cs =>
    match skipBlanks cs with
    | '"' :: rest =>
      match string rest with
      | none => none
      | some rest =>
        match skipBlanks rest with
        | ':' :: rest => value fuel opened rest
        | _ => none
    | _ => none

end

end Skim

end Json

end FormCompiler
