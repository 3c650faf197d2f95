import FormCompiler.Json.Printer
import FormCompiler.Table.Path
import FormCompiler.Text.Quoted

namespace FormCompiler

inductive LookupNode (φ : Type) where
  | group (children : List (String × LookupNode φ))
  | function (f : φ)
  | value (j : Json)

abbrev LookupTable (φ : Type) := LookupNode φ

namespace LookupNode

variable {φ : Type}

def empty : LookupTable φ := .group []

instance : Inhabited (LookupNode φ) := ⟨empty⟩

def child? : LookupNode φ → String → Option (LookupNode φ)
  | .group children, key => children.lookup key
  | _, _ => none

def at? (root : LookupNode φ) (path : String) : Option (LookupNode φ) := nodeAt? child? root path

def children : LookupNode φ → Members (LookupNode φ)
  | .group children => children
  | _ => []

/-- Put a node below another, with groups along the way; whatever is no group there gives way. -/
def insertAt (node : LookupNode φ) : List String → LookupNode φ → LookupNode φ
  | [], _ => node
  | segment :: rest, current =>
    let below := (current.children.lookup segment).getD empty
    .group (Members.set current.children segment (insertAt node rest below))

def insert (table : LookupTable φ) (path : String) (node : LookupNode φ) : LookupTable φ :=
  insertAt node (Text.segments path) table

mutual

def text : LookupNode φ → String
  | .group children => "\x7b" ++ ", ".intercalate (childTexts children) ++ "\x7d"
  | .function _ => "<function>"
  | .value j => j.render

def childTexts : List (String × LookupNode φ) → List String
  | [] => []
  | (key, node) :: rest => (Text.quoted key ++ ": " ++ text node) :: childTexts rest

end

end LookupNode

end FormCompiler
