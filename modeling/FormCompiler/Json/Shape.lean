namespace FormCompiler

namespace Json

inductive Shape where
  | whole
  | record (members : List (String × Shape))
  | each (inner : Shape)

namespace Shape

def flat (names : List String) : Shape := .record (names.map fun name => (name, .whole))

def member? : Shape → String → Option Shape
  | .whole, _ => some .whole
  | .record members, name => members.lookup name
  | .each inner, _ => some inner

def item : Shape → Shape
  | .whole => .whole
  | .record [] => .whole
  | .record ((_, inner) :: _) => inner
  | .each inner => inner

def afterItem : Shape → Shape
  | .record (_ :: members) => .record members
  | shape => shape

end Shape

end Json

end FormCompiler
