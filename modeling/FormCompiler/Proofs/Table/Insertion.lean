import FormCompiler.Proofs.Members
import FormCompiler.Table.Lookup

namespace FormCompiler

namespace LookupNode

variable {φ : Type}

theorem child?_eq (node : LookupNode φ) (key : String) :
    node.child? key = node.children.lookup key := by
  cases node <;> rfl

theorem child?_insertAt (node root : LookupNode φ) (segment key : String) (rest : List String) :
    (insertAt node (segment :: rest) root).child? key =
      if key = segment then some (insertAt node rest ((root.child? segment).getD empty))
      else root.child? key := by
  rw [insertAt, child?, Members.lookup_set, child?_eq, child?_eq]

theorem walk_empty {query : List String} (h : query ≠ []) :
    walk child? (empty : LookupNode φ) query = none := by
  cases query with
  | nil => exact absurd rfl h
  | cons segment rest => rfl

theorem walk_insertAt_append (node root : LookupNode φ) (path rest : List String) :
    walk child? (insertAt node path root) (path ++ rest) = walk child? node rest := by
  induction path generalizing root with
  | nil => rfl
  | cons segment path ih =>
    rw [List.cons_append, walk, child?_insertAt, if_pos rfl, Option.bind_some, ih]

theorem walk_insertAt_above (node root : LookupNode φ) {query rest : List String}
    (h : rest ≠ []) :
    ∃ children,
      walk child? (insertAt node (query ++ rest) root) query = some (.group children) := by
  induction query generalizing root with
  | nil =>
    cases rest with
    | nil => exact absurd rfl h
    | cons segment rest => exact ⟨_, rfl⟩
  | cons segment query ih =>
    obtain ⟨children, hwalk⟩ := ih ((root.child? segment).getD empty)
    refine ⟨children, ?_⟩
    rw [List.cons_append, walk, child?_insertAt, if_pos rfl, Option.bind_some, hwalk]

theorem walk_insertAt_beside (node root : LookupNode φ) {path query : List String}
    (h : ¬ path <+: query) (h' : ¬ query <+: path) :
    walk child? (insertAt node path root) query = walk child? root query := by
  induction path generalizing query root with
  | nil => exact absurd List.nil_prefix h
  | cons segment path ih =>
    cases query with
    | nil => exact absurd List.nil_prefix h'
    | cons key query =>
      rw [walk, walk, child?_insertAt]
      by_cases hk : key = segment
      · subst hk
        rw [List.cons_prefix_cons, and_iff_right rfl] at h h'
        rw [if_pos rfl, Option.bind_some, ih _ h h']
        -- the paths part further down, so a group that was made for the insert holds nothing here
        cases root.child? key with
        | some next => rfl
        | none =>
          apply walk_empty
          rintro rfl
          exact h' List.nil_prefix
      · rw [if_neg hk]

end LookupNode

/-- What stands in a table after a node has been put at a path: the node and what is in it on the
path and below, groups above, and all else as it was, whatever the path has run through. -/
theorem at?_insert {φ : Type} (table : LookupTable φ) (path : String) (node : LookupNode φ) :
    (path ≠ "" → (table.insert path node).at? path = some node) ∧
      ∀ query, query ≠ "" →
        (∀ rest, Text.segments query = Text.segments path ++ rest →
          (table.insert path node).at? query = walk LookupNode.child? node rest) ∧
        (∀ rest, rest ≠ [] → Text.segments path = Text.segments query ++ rest →
          ∃ children, (table.insert path node).at? query = some (.group children)) ∧
        (¬ Text.segments path <+: Text.segments query →
          ¬ Text.segments query <+: Text.segments path →
          (table.insert path node).at? query = table.at? query) := by
  have hbelow : ∀ query rest, query ≠ "" → Text.segments query = Text.segments path ++ rest →
      (table.insert path node).at? query = walk LookupNode.child? node rest := by
    intro query rest hquery hrest
    rw [LookupNode.at?, nodeAt?, if_neg hquery, LookupNode.insert, hrest]
    exact LookupNode.walk_insertAt_append node table _ rest
  constructor
  · intro hpath
    exact hbelow path [] hpath (List.append_nil _).symm
  · intro query hquery
    refine ⟨fun rest => hbelow query rest hquery, ?_, ?_⟩
    · intro rest hne hrest
      rw [LookupNode.at?, nodeAt?, if_neg hquery, LookupNode.insert, hrest]
      exact LookupNode.walk_insertAt_above node table hne
    · intro hpath hquery'
      rw [LookupNode.at?, nodeAt?, if_neg hquery, LookupNode.insert, LookupNode.at?, nodeAt?,
        if_neg hquery]
      exact LookupNode.walk_insertAt_beside node table hpath hquery'

def settledTable : LookupTable Nat :=
  .group [("a", .group [("b", .value .null), ("f", .function 0)])]

theorem at?_insert_leaf :
    let table := settledTable.insert "a.b.c" (.value (.bool true))
    table.at? "a.b.c" = some (.value (.bool true)) ∧ table.at? "a.b.c.d" = none ∧
      (∃ children, table.at? "a.b" = some (.group children)) ∧
      table.at? "a.f" = some (.function 0) := by
  intro table
  obtain ⟨hself, hothers⟩ := at?_insert settledTable "a.b.c" (.value (.bool true))
  have hbelow := (hothers "a.b.c.d" (by decide)).1 ["d"] (by decide)
  have habove := (hothers "a.b" (by decide)).2.1 ["c"] (by decide) (by decide)
  have hbeside := (hothers "a.f" (by decide)).2.2 (by decide) (by decide)
  exact ⟨hself (by decide), hbelow, habove, hbeside⟩

end FormCompiler
