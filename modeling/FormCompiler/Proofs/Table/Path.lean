import FormCompiler.Proofs.Text.Numeral
import FormCompiler.Proofs.Text.Segments
import FormCompiler.Table.Lookup

namespace FormCompiler

variable {α : Type} {child : α → String → Option α}

theorem walk_eq_foldlM (node : α) (names : List String) :
    walk child node names = names.foldlM child node := by
  induction names generalizing node with
  | nil => rfl
  | cons name names ih =>
    rw [walk, List.foldlM_cons]
    simp only [ih]
    rfl

theorem nodeAt?_of_ne {path : String} (h : path ≠ "") (root : α) :
    nodeAt? child root path = walk child root (Text.segments path) :=
  if_neg h

theorem nodeAt?_above {p : String} (hp : p ≠ "") (s : String) (root : α) :
    nodeAt? child root (p ++ "." ++ s) =
      (nodeAt? child root p).bind fun node => walk child node (Text.segments s) := by
  have hjoined : p ++ "." ++ s ≠ "" := by simp [hp]
  rw [nodeAt?_of_ne hjoined, nodeAt?_of_ne hp, Text.segments_dotted, walk_append]

theorem nodeAt?_dotted {p q : String} (hp : p ≠ "") (hq : q ≠ "") (root : α) :
    nodeAt? child root (p ++ "." ++ q) =
      (nodeAt? child root p).bind fun node => nodeAt? child node q := by
  simp only [nodeAt?_above hp, nodeAt?_of_ne hq]

theorem nodeAt?_intercalate {paths : List String} (hne : paths ≠ []) (h : ∀ p ∈ paths, p ≠ "")
    (root : α) :
    nodeAt? child root (".".intercalate paths) = paths.foldlM (nodeAt? child) root := by
  induction paths generalizing root with
  | nil => exact absurd rfl hne
  | cons p paths ih =>
    rw [List.forall_mem_cons] at h
    rw [List.foldlM_cons]
    cases paths with
    | nil =>
      rw [String.intercalate_singleton]
      exact (bind_pure _).symm
    | cons q paths =>
      have hrest := Text.intercalate_ne_empty (List.cons_ne_nil q paths) h.2
      rw [String.intercalate_cons_cons, nodeAt?_dotted h.1 hrest]
      simp only [ih (List.cons_ne_nil q paths) h.2]
      rfl

theorem walk_of_childless {leaf : α} (h : ∀ key, child leaf key = none) (path : String) :
    walk child leaf (Text.segments path) = none := by
  cases hs : Text.segments path with
  | nil => exact absurd hs (Text.segments_ne_nil path)
  | cons segment rest => rw [walk, h, Option.bind_none]

/-- What holds of the paths into trees of one kind, by the children of their nodes and by the leaves
among these. -/
structure PathLaws (child : α → String → Option α) (at? : α → String → Option α)
    (IsLeaf : α → Prop) : Prop where
  steps (root : α) {names : List String} : (∀ name ∈ names, '.' ∉ name.toList) →
    ".".intercalate names ≠ "" → at? root (".".intercalate names) = names.foldlM child root
  dotted (root : Option α) {p q : String} : p ≠ "" → q ≠ "" →
    (root.bind fun tree => at? tree (p ++ "." ++ q)) =
      (root.bind fun tree => at? tree p).bind fun node => at? node q
  joined (root : α) {paths : List String} : paths ≠ [] → (∀ p ∈ paths, p ≠ "") →
    at? root (".".intercalate paths) = paths.foldlM at? root
  above (root : α) {p path : String} : p ≠ "" → Text.Above p path →
    (at? root path).isSome = true → (at? root p).isSome = true
  leaf {root : α} (path : String) : IsLeaf root → at? root path = none
  below {root node : α} {p path : String} : at? root p = some node → IsLeaf node →
    Text.Above p path → at? root path = none

theorem pathLaws {IsLeaf : α → Prop} (hleaf : ∀ node, IsLeaf node → ∀ key, child node key = none) :
    PathLaws child (nodeAt? child) IsLeaf where
  steps root names hnames hpath := by
    have hne : names ≠ [] := by
      rintro rfl
      exact hpath rfl
    rw [nodeAt?_of_ne hpath, Text.segments_intercalate hne hnames, walk_eq_foldlM]
  dotted root p q hp hq := by
    cases root with
    | none => rfl
    | some tree => exact nodeAt?_dotted hp hq tree
  joined root paths hne h := nodeAt?_intercalate hne h root
  above root p path hp habove hpath := by
    obtain ⟨s, rfl⟩ := habove
    rw [nodeAt?_above hp] at hpath
    exact Option.isSome_of_isSome_bind hpath
  leaf path hroot := by
    unfold nodeAt?
    split
    · rfl
    · exact walk_of_childless (hleaf _ hroot) path
  below {root node p path} hnode hnone habove := by
    obtain ⟨s, rfl⟩ := habove
    have hp : p ≠ "" := by
      rintro rfl
      cases hnode
    rw [nodeAt?_above hp, hnode, Option.bind_some]
    exact walk_of_childless (hleaf node hnone) s

def Json.IsScalar : Json → Prop
  | .array _ => False
  | .object _ => False
  | _ => True

def LookupNode.IsLeaf {φ : Type} : LookupNode φ → Prop
  | .group _ => False
  | _ => True

theorem Json.child?_of_isScalar (j : Json) (h : j.IsScalar) (key : String) :
    j.child? key = none := by
  cases j with
  | array items => exact h.elim
  | object ms => exact h.elim
  | _ => rfl

theorem LookupNode.child?_of_isLeaf {φ : Type} (node : LookupNode φ) (h : node.IsLeaf)
    (key : String) : node.child? key = none := by
  cases node with
  | group children => exact h.elim
  | _ => rfl

theorem Json.at?_array_eq_some_iff (items : List Json) {key : String} (h : '.' ∉ key.toList)
    (item : Json) : (Json.array items).at? key = some item ↔
      ∃ i, Text.Numeral key.toList i ∧ i < Nat.pow 2 64 ∧ items[i]? = some item := by
  by_cases hkey : key = ""
  · subst hkey
    refine iff_of_false nofun ?_
    rintro ⟨i, hi, -⟩
    cases hi with
    | plain hi => exact hi.ne_nil rfl
  · rw [at?, nodeAt?_of_ne hkey, Text.segments_of_undotted h, walk_eq_foldlM]
    simp only [List.foldlM_cons, List.foldlM_nil, child?, bind_pure, Option.bind_eq_some_iff,
      Text.numeral?_eq_some_iff, and_assoc]

/-- In both kinds of trees a path that is joined from others leads where these lead one after
another, whatever dots they begin and end with, and nothing lies below a leaf. Items are found by
numerals of 64 bits. -/
theorem paths_compose (φ : Type) :
    PathLaws Json.child? Json.at? Json.IsScalar ∧
    PathLaws LookupNode.child? (@LookupNode.at? φ) LookupNode.IsLeaf ∧
    ∀ (items : List Json) (key : String) (item : Json), '.' ∉ key.toList →
      ((Json.array items).at? key = some item ↔
        ∃ i, Text.Numeral key.toList i ∧ i < Nat.pow 2 64 ∧ items[i]? = some item) :=
  ⟨pathLaws Json.child?_of_isScalar, pathLaws LookupNode.child?_of_isLeaf,
    fun items _ item h => Json.at?_array_eq_some_iff items h item⟩

theorem paths_compose_doubled :
    let items : List Json := [.null, .bool true]
    let root : Json := .object [("a", .object [("", .array items)])]
    let table : LookupTable Nat := .group [("v", .value (.object [("w", .null)]))]
    root.at? "a." = some (.array items) ∧ (Json.array items).at? "+01" = some (.bool true) ∧
      root.at? "a..+01" = some (.bool true) ∧ root.at? "a..+01." = none ∧
      table.at? "v" = some (.value (.object [("w", .null)])) ∧ table.at? "v.w" = none := by
  intro items root table
  obtain ⟨hjson, htable, hitems⟩ := paths_compose Nat
  have hnames : ∀ name ∈ ["a", ""], '.' ∉ name.toList := by decide
  have harray : root.at? "a." = some (.array items) := hjson.steps root hnames (by decide)
  have hindex : (Json.array items).at? "+01" = some (.bool true) :=
    (hitems items "+01" _ (by decide)).mpr
      ⟨1, .signed ⟨nofun, List.all_eq_true.mp rfl, rfl⟩, by decide, rfl⟩
  have hitem : root.at? ("a." ++ "." ++ "+01") = some (.bool true) := by
    have hjoined := hjson.dotted (some root) (p := "a.") (q := "+01") (by decide) (by decide)
    rw [Option.bind_some, Option.bind_some, harray, Option.bind_some, hindex] at hjoined
    exact hjoined
  have hvalue : table.at? "v" = some (.value (.object [("w", .null)])) := rfl
  exact ⟨harray, hindex, hitem, hjson.below hitem trivial ⟨"", rfl⟩, hvalue,
    htable.below hvalue trivial ⟨"w", rfl⟩⟩

end FormCompiler
