import FormCompiler.Json.Basic

/-!
Reading records with a fixed list of members from JSON. A record is written as an object, in which
further members count for nothing, or as an array of its members in their declared order, in which
the last ones may be missing.
-/
namespace FormCompiler

namespace Json

def record? (names : List String) : Json → Option (Members Json)
  | .object ms => some ms
  | .array items => if items.length ≤ names.length then some (names.zip items) else none
  | _ => none

abbrev RecordReader := List String → Json → Option (Members Json)

def uniqueRecord? : RecordReader := fun names j =>
  (record? names j).filter fun ms =>
    names.all fun name => (ms.filter (·.1 == name)).length ≤ 1

def openRecord? : RecordReader := fun names j =>
  match j with
  | .object ms => some ms
  | .array items => some (names.zip items)
  | _ => none

def members? : Json → Option (Members Json)
  | .object ms => some ms
  | _ => none

def items? : Json → Option (List Json)
  | .array items => some items
  | _ => none

def bool? : Json → Option Bool
  | .bool b => some b
  | _ => none

def unsigned? : Json → Option Nat
  | .number n => n.unsigned?
  | _ => none

variable {α : Type}

def listOf? (read : Json → Option α) : Json → Option (List α)
  | .array items => items.mapM read
  | _ => none

def membersOf? (read : Json → Option α) : Json → Option (Members α)
  | .object ms => ms.mapM fun (k, v) => (read v).map (k, ·)
  | _ => none

def optional? (read : Json → Option α) : Json → Option (Option α)
  | .null => some none
  | j => (read j).map some

def required? (ms : Members Json) (name : String) (read : Json → Option α) : Option α :=
  (ms.lookup name).bind read

def defaulted? (ms : Members Json) (name : String) (default : α) (read : Json → Option α) :
    Option α :=
  match ms.lookup name with
  | none => some default
  | some j => read j

def unset? (ms : Members Json) (name : String) (read : Json → Option α) : Option (Option α) :=
  defaulted? ms name none (optional? read)

end Json

end FormCompiler
