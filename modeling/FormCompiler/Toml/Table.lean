import FormCompiler.Toml.Value

/-!
Tables under construction. A table is defined once: by a header, by dotted keys, or on the way to
another table; what may be added to it later depends on which.
-/
namespace FormCompiler

namespace Toml

inductive Item where
  | value (v : Value)
  | table (implicit dotted : Bool) (entries : List (String × Item))
  | tables (elements : List (List (String × Item)))

abbrev Entries := Members Item

namespace Item

mutual

def toValue : Item → Value
  | .value v => v
  | .table _ _ entries => .table (entryValues entries)
  | .tables elements => .array (elementValues elements)

def entryValues : List (String × Item) → List (String × Value)
  | [] => []
  | (k, item) :: rest => (k, toValue item) :: entryValues rest

def elementValues : List (List (String × Item)) → List Value
  | [] => []
  | entries :: rest => .table (entryValues entries) :: elementValues rest

end

end Item

namespace Entries

variable {α : Type}

/-- Change the table at a path, making the tables on the way. In an array of tables the path goes on
in the last one. Dotted keys must not enter a table that a header has defined. `change` is told
whether the table has been made by dotted keys. -/
def descend (dotted : Bool) (change : Bool → Entries → Option (α × Entries)) :
    List String → Bool → Entries → Option (α × Entries)
  | [], isDotted, entries => change isDotted entries
  | key :: rest, _, entries =>
    match entries.lookup key with
    | none => do
      let (a, below) ← descend dotted change rest dotted []
      some (a, entries ++ [(key, .table true dotted below)])
    | some (.value _) => none
    | some (.tables elements) => do
      let last ← elements.getLast?
      let (a, below) ← descend dotted change rest false last
      some (a, Members.set entries key (.tables (elements.dropLast ++ [below])))
    | some (.table implicit isDotted below) =>
      if dotted && !implicit then none
      else do
        let (a, below) ← descend dotted change rest isDotted below
        some (a, Members.set entries key (.table implicit isDotted below))

def addValue (entries : Entries) (path : List String) (key : String) (v : Value) :
    Option Entries := do
  let change (isDotted : Bool) (below : Entries) : Option (Unit × Entries) :=
    if isDotted = path.isEmpty ∨ Members.has below key then none
    else some ((), below ++ [(key, .value v)])
  let (_, entries) ← descend true change path false entries
  some entries

def openTable (entries : Entries) (path : List String) (key : String) :
    Option (Entries × Entries) :=
  let change (_ : Bool) (below : Entries) : Option (Entries × Entries) :=
    match below.lookup key with
    | none => some ([], below)
    | some (.table true false inner) => some (inner, Members.erase below key)
    | some _ => none
  descend false change path false entries

def closeTable (entries : Entries) (path : List String) (key : String) (table : Entries) :
    Option Entries := do
  let change (_ : Bool) (below : Entries) : Option (Unit × Entries) :=
    match below.lookup key with
    | none => some ((), below ++ [(key, .table false false table)])
    | some (.table true _ _) => some ((), Members.set below key (.table false false table))
    | some _ => none
  let (_, entries) ← descend false change path false entries
  some entries

def openArray (entries : Entries) (path : List String) (key : String) : Option Entries := do
  let change (_ : Bool) (below : Entries) : Option (Unit × Entries) :=
    match below.lookup key with
    | none => some ((), below ++ [(key, .tables [])])
    | some (.tables _) => some ((), below)
    | some _ => none
  let (_, entries) ← descend false change path false entries
  some entries

def closeArray (entries : Entries) (path : List String) (key : String) (table : Entries) :
    Option Entries := do
  let change (_ : Bool) (below : Entries) : Option (Unit × Entries) :=
    match below.lookup key with
    | some (.tables elements) => some ((), Members.set below key (.tables (elements ++ [table])))
    | _ => none
  let (_, entries) ← descend false change path false entries
  some entries

end Entries

end Toml

end FormCompiler
