import FormCompiler.Json.Basic
import FormCompiler.Text.Numeral
import FormCompiler.Text.Segments

namespace FormCompiler

variable {α : Type}

def walk (child : α → String → Option α) : α → List String → Option α
  | node, [] => some node
  | node, segment :: rest => (child node segment).bind fun next => walk child next rest

/-- The node at a path. -/
def nodeAt? (child : α → String → Option α) (root : α) (path : String) : Option α :=
  if path = "" then none else walk child root (Text.segments path)

theorem walk_append (child : α → String → Option α) (node : α) (p q : List String) :
    walk child node (p ++ q) = (walk child node p).bind fun next => walk child next q := by
  induction p generalizing node with
  | nil => rfl
  | cons segment rest ih =>
    simp only [List.cons_append, walk]
    cases child node segment with
    | none => rfl
    | some next => simp [ih]

namespace Json

def child? : Json → String → Option Json
  | .object ms, key => ms.lookup key
  | .array items, key => (Text.numeral? key.toList).bind fun i => items[i]?
  | _, _ => none

def at? (root : Json) (path : String) : Option Json := nodeAt? child? root path

end Json

end FormCompiler
