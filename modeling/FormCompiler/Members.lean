namespace FormCompiler

/-- Members in order; readers and writers here keep each name at most once. -/
abbrev Members (α : Type) := List (String × α)

namespace Members

variable {α : Type}

def names (ms : Members α) : List String := ms.map (·.1)

def has (ms : Members α) (name : String) : Bool := ms.any (·.1 == name)

def erase (ms : Members α) (name : String) : Members α := ms.filter (·.1 != name)

def set (ms : Members α) (name : String) (value : α) : Members α :=
  match ms with
  | [] => [(name, value)]
  | (k, v) :: rest => if k = name then (k, value) :: rest else (k, v) :: set rest name value

def moveToEnd (ms : Members α) (name : String) (value : α) : Members α :=
  ms.erase name ++ [(name, value)]

def offer (ms : Members α) (name : String) (value : α) : Members α :=
  if ms.has name then ms else ms ++ [(name, value)]

def update (ms : Members α) (name : String) (f : α → α) : Members α :=
  ms.map fun (k, v) => (k, if k = name then f v else v)

def swapErase (ms : Members α) (name : String) : Members α :=
  match ms with
  | [] => []
  | (k, v) :: rest =>
    if k = name then
      match rest.getLast? with
      | none => []
      | some last => last :: rest.dropLast
    else (k, v) :: swapErase rest name

def merged (ms : Members α) : Members α :=
  ms.foldl (fun acc (k, v) => set acc k v) []

def insertSorted (ms : Members α) (name : String) (value : α) : Members α :=
  match ms with
  | [] => [(name, value)]
  | (k, v) :: rest =>
    if name < k then (name, value) :: (k, v) :: rest
    else if name = k then (name, value) :: rest
    else (k, v) :: insertSorted rest name value

def sorted (ms : Members α) : Members α :=
  ms.foldl (fun acc (k, v) => insertSorted acc k v) []

def startingWith (ms : Members α) (start : String) : Members α :=
  ms.filter fun (k, _) => k.startsWith start

end Members

end FormCompiler
