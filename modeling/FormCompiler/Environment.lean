import FormCompiler.Notice

/-!
Environment variables in texts. A placeholder, a dollar sign and a name in braces with `env:` before
it, stands for the value of a variable. A text is cut into pieces from its left end; the values are
copied as they are and not searched again.
-/
namespace FormCompiler

abbrev Environment := Members String

namespace Environment

def setting (name value : String) : List Char := name.toList ++ '=' :: value.toList

/-- The value behind a name: of the settings, the first that begins with the name and an equals
sign. So a name may go on into a value, up to an equals sign in it. Nothing stands behind an empty
name. -/
def value? (env : Environment) (name : String) : Option String :=
  if name = "" then none
  else env.findSome? fun (key, value) =>
    ((setting name "").isPrefixOf? (setting key value)).map String.ofList

end Environment

inductive Piece where
  | literal (c : Char)
  | variable (name : String)
  deriving DecidableEq, Repr

namespace Piece

def isNameChar (c : Char) : Bool := c != '\x7b' && c != '\x7d'

def placeholder? : List Char → Option (List Char × List Char)
  | '$' :: '\x7b' :: 'e' :: 'n' :: 'v' :: ':' :: text =>
    match text.dropWhile isNameChar with
    | '\x7d' :: rest => some (text.takeWhile isNameChar, rest)
    | _ => none
  | _ => none

theorem length_dropWhile_le (p : Char → Bool) (l : List Char) :
    (l.dropWhile p).length ≤ l.length :=
  (List.dropWhile_sublist p).length_le

theorem placeholder?_length {text name rest : List Char}
    (h : placeholder? text = some (name, rest)) : rest.length < text.length := by
  unfold placeholder? at h
  split at h
  case h_1 text =>
    split at h
    case h_1 rest' hrest =>
      cases h
      have := length_dropWhile_le isNameChar text
      simp only [hrest, List.length_cons] at this ⊢
      omega
    case h_2 => simp at h
  case h_2 => simp at h

def ofText (text : List Char) : List Piece :=
  match text with
  | [] => []
  | c :: rest =>
    match _h : placeholder? (c :: rest) with
    | some (name, after) => .variable (String.ofList name) :: ofText after
    | none => .literal c :: ofText rest
termination_by text.length
decreasing_by
  · exact placeholder?_length _h
  · simp

def expand (env : Environment) : Piece → List Char
  | .literal c => [c]
  | .variable name => ((env.value? name).getD "").toList

def name? : Piece → Option String
  | .literal _ => none
  | .variable name => some name

end Piece

namespace Environment

def references (text : String) : List String := (Piece.ofText text.toList).filterMap Piece.name?

def expand (env : Environment) (text : String) : String :=
  String.ofList ((Piece.ofText text.toList).flatMap (Piece.expand env))

def notices (env : Environment) (text : String) : List Notice :=
  ((references text).filter fun name => (env.value? name).isNone).map .unsetVariable

end Environment

end FormCompiler
