import FormCompiler.Endpoint.Table
import FormCompiler.Proofs.Json.Record
import FormCompiler.Proofs.Table.Insertion
import FormCompiler.Proofs.Text.Segments

namespace FormCompiler

theorem Json.lookup_membersOf? {α : Type} {read : Json → Option α} {written : Members Json}
    {ms : Members α} (h : membersOf? read (.object written) = some ms) (name : String) :
    Option.Rel (fun j a => read j = some a) (written.lookup name) (ms.lookup name) := by
  have hforall := forall₂_of_mapM h
  clear h
  induction hforall with
  | nil => exact .none
  | @cons m m' written ms hm _ ih =>
    obtain ⟨key, j⟩ := m
    obtain ⟨a, ha, rfl⟩ := Option.map_eq_some_iff.mp hm
    rw [Members.lookup_cons_ite, Members.lookup_cons_ite]
    by_cases hk : name = key
    · rw [if_pos hk, if_pos hk]
      exact .some ha
    · rw [if_neg hk, if_neg hk]
      exact ih

theorem rel_bind {α β γ δ : Type} {r : α → β → Prop} {s : γ → δ → Prop} {a : Option α}
    {b : Option β} (h : Option.Rel r a b) {f : α → Option γ} {g : β → Option δ}
    (hfg : ∀ x y, r x y → Option.Rel s (f x) (g y)) : Option.Rel s (a.bind f) (b.bind g) := by
  cases h with
  | none => exact .none
  | some hxy => exact hfg _ _ hxy

theorem exists_of_rel {α β : Type} {r : α → β → Prop} {a : Option α} {b : Option β}
    (h : Option.Rel r a b) {x : α} (hx : a = some x) : ∃ y, r x y := by
  cases h with
  | none => cases hx
  | some hxy =>
    cases hx
    exact ⟨_, hxy⟩

namespace LookupNode

variable {φ : Type}

theorem child?_foldl_insert {nodes : Members (LookupNode φ)} (h : nodes.names.Nodup)
    (hnames : ∀ name ∈ nodes.names, '.' ∉ name.toList) (table : LookupTable φ) (name : String) :
    (nodes.foldl (fun table (path, node) => table.insert path node) table).child? name =
      (nodes.lookup name).or (table.child? name) := by
  induction nodes generalizing table with
  | nil => rfl
  | cons m nodes ih =>
    obtain ⟨key, node⟩ := m
    rw [Members.names_cons, List.nodup_cons] at h
    rw [Members.names_cons, List.forall_mem_cons] at hnames
    have hinsert : (table.insert key node).child? name =
        if name = key then some node else table.child? name := by
      rw [insert, Text.segments_of_undotted hnames.1, child?_insertAt, insertAt]
    rw [List.foldl_cons, ih h.2 hnames.2, hinsert, Members.lookup_cons_ite]
    by_cases hk : name = key
    · subst hk
      have hnone : nodes.lookup name = none := (Members.lookup_eq_none_iff _ _).mpr h.1
      rw [if_pos rfl, if_pos rfl, hnone, Option.none_or, Option.some_or]
    · rw [if_neg hk, if_neg hk]

end LookupNode

namespace EndpointTable

def part? : Json → String → Option Json
  | .object ms, name => if hasAddress ms then none else ms.lookup name
  | _, _ => none

def found? (ms : Members Json) : List String → Option Json
  | [] => none
  | name :: names => (ms.lookup name).bind fun part => walk part? part names

def Malformed (part : Json) : Prop :=
  ∃ ms, part = .object ms ∧ hasAddress ms = true ∧ Endpoint.read? Json.record? part = none

structure Shows (env : Environment) (found : Option Json) (node : Option (LookupNode Remote)) :
    Prop where
  function : ∀ f, node = some (.function f) ↔ ∃ ms e, found = some (.object ms) ∧
    hasAddress ms = true ∧ Endpoint.read? Json.record? (.object ms) = some e ∧ f = e.prepare env
  value : ∀ v, node = some (.value v) ↔ found = some v ∧ v.members? = none
  group : (∃ children, node = some (.group children)) ↔
    ∃ ms, found = some (.object ms) ∧ hasAddress ms = false
  absent : node = none ↔ found = none

section

variable {env : Environment}

theorem children?_eq (ms : Members Json) :
    children? env ms = Json.membersOf? (node? env) (.object ms) := by
  induction ms with
  | nil => rw [children?]; rfl
  | cons m ms ih =>
    obtain ⟨key, j⟩ := m
    rw [children?, ih]
    simp only [Json.membersOf?, List.mapM_cons, Option.bind_eq_bind, Option.pure_def]
    cases node? env j <;> rfl

theorem node?_cases {part : Json} {node : LookupNode Remote} (h : node? env part = some node) :
    (∃ ms e, part = .object ms ∧ hasAddress ms = true ∧
        Endpoint.read? Json.record? part = some e ∧ node = .function (e.prepare env)) ∨
      (∃ ms nodes, part = .object ms ∧ hasAddress ms = false ∧ children? env ms = some nodes ∧
        node = .group nodes) ∨
      part.members? = none ∧ node = .value part := by
  cases part with
  | object ms =>
    rw [node?] at h
    split at h
    case isTrue haddress =>
      obtain ⟨e, he, rfl⟩ := Option.map_eq_some_iff.mp h
      exact .inl ⟨ms, e, rfl, haddress, he, rfl⟩
    case isFalse haddress =>
      obtain ⟨nodes, hnodes, rfl⟩ := Option.map_eq_some_iff.mp h
      exact .inr (.inl ⟨ms, nodes, rfl, by simpa using haddress, hnodes, rfl⟩)
  | _ =>
    simp only [node?, Option.some_inj] at h
    exact .inr (.inr ⟨rfl, h.symm⟩)

theorem Malformed.node? {part : Json} (h : Malformed part) : node? env part = none := by
  obtain ⟨ms, rfl, haddress, hread⟩ := h
  rw [EndpointTable.node?, if_pos haddress, hread, Option.map_none]

theorem walk_node? {part : Json} {node : LookupNode Remote} (h : node? env part = some node)
    (names : List String) :
    Option.Rel (fun part node => node? env part = some node) (walk part? part names)
      (walk LookupNode.child? node names) := by
  induction names generalizing part node with
  | nil => exact .some h
  | cons name names ih =>
    rw [walk, walk]
    rcases node?_cases h with ⟨ms, e, rfl, haddress, -, rfl⟩ | ⟨ms, nodes, rfl, haddress, hnodes, rfl⟩ |
      ⟨hmembers, rfl⟩
    · rw [part?, if_pos haddress]
      exact .none
    · rw [part?, haddress, LookupNode.child?]
      rw [children?_eq] at hnodes
      exact rel_bind (Json.lookup_membersOf? hnodes name) fun _ _ hnode => ih hnode
    · cases part with
      | object ms => cases hmembers
      | _ => exact .none

mutual

theorem exists_malformed : (part : Json) → part.Distinct → node? env part = none →
    ∃ names below, walk part? part names = some below ∧ Malformed below
  | .object ms, hdistinct, h => by
    rw [node?] at h
    -- with an address the object is malformed itself, without one something below it is
    by_cases haddress : hasAddress ms = true
    · rw [if_pos haddress, Option.map_eq_none_iff] at h
      exact ⟨[], .object ms, rfl, ms, rfl, haddress, h⟩
    · rw [if_neg haddress, Option.map_eq_none_iff] at h
      have hmembers := hdistinct
      rw [Json.Distinct] at hmembers
      obtain ⟨name, part, names, below, hmem, hbelow⟩ := exists_malformed_below ms hmembers.2 h
      refine ⟨name :: names, below, ?_⟩
      rw [walk, part?, if_neg haddress, Members.lookup_of_mem hdistinct.names hmem]
      exact hbelow
  | .null, _, h | .bool _, _, h | .number _, _, h | .string _, _, h | .array _, _, h => by
    simp [node?] at h

theorem exists_malformed_below : (ms : List (String × Json)) → Json.DistinctMembers ms →
    children? env ms = none →
    ∃ name part names below, (name, part) ∈ ms ∧ walk part? part names = some below ∧
      Malformed below
  | [], _, h => by simp [children?] at h
  | (key, part) :: rest, hdistinct, h => by
    rw [Json.DistinctMembers] at hdistinct
    rw [children?] at h
    cases hnode : node? env part with
    | none =>
      obtain ⟨names, below, hbelow⟩ := exists_malformed part hdistinct.1 hnode
      exact ⟨key, part, names, below, List.mem_cons_self, hbelow⟩
    | some node =>
      have hrest : children? env rest = none := by
        cases hchildren : children? env rest with
        | none => rfl
        | some nodes => simp [hnode, hchildren] at h
      obtain ⟨name, part', names, below, hmem, hbelow⟩ :=
        exists_malformed_below rest hdistinct.2 hrest
      exact ⟨name, part', names, below, List.mem_cons_of_mem _ hmem, hbelow⟩

end

theorem found?_children? {ms : Members Json} {nodes : Members (LookupNode Remote)}
    (h : children? env ms = some nodes) (name : String) (names : List String) :
    Option.Rel (fun part node => node? env part = some node) (found? ms (name :: names))
      ((nodes.lookup name).bind fun node => walk LookupNode.child? node names) := by
  rw [children?_eq] at h
  rw [found?]
  exact rel_bind (Json.lookup_membersOf? h name) fun _ _ hnode => walk_node? hnode names

theorem children?_eq_none_iff {ms : Members Json} (h : (Json.object ms).Distinct) :
    children? env ms = none ↔ ∃ names part, found? ms names = some part ∧ Malformed part := by
  constructor
  · intro hnone
    have hmembers := h
    rw [Json.Distinct] at hmembers
    obtain ⟨name, part, names, below, hmem, hbelow, hmalformed⟩ :=
      exists_malformed_below ms hmembers.2 hnone
    refine ⟨name :: names, below, ?_, hmalformed⟩
    rw [found?, Members.lookup_of_mem h.names hmem]
    exact hbelow
  · rintro ⟨names, part, hfound, hmalformed⟩
    cases names with
    | nil => cases hfound
    | cons name names =>
      cases hchildren : children? env ms with
      | none => rfl
      | some nodes =>
        obtain ⟨node, hnode⟩ := exists_of_rel (found?_children? hchildren name names) hfound
        rw [hmalformed.node?] at hnode
        cases hnode

theorem found?_ofDocument {ms : Members Json} (h : (Json.object ms).Distinct)
    (hnames : ∀ name ∈ ms.names, '.' ∉ name.toList) {table : LookupTable Remote}
    (htable : ofDocument env (.object ms) = .ok table) {path : String} (hpath : path ≠ "") :
    Option.Rel (fun part node => node? env part = some node) (found? ms (Text.segments path))
      (table.at? path) := by
  rw [ofDocument] at htable
  split at htable
  · cases htable
  case h_2 nodes hnodes =>
    cases htable
    have hwritten : Members.names nodes = ms.names := by
      rw [children?_eq] at hnodes
      obtain ⟨written, hwritten, hsame, -⟩ := Json.of_membersOf? hnodes
      cases hwritten
      exact hsame.symm
    have hchild := LookupNode.child?_foldl_insert (hwritten ▸ h.names) (hwritten ▸ hnames) .empty
    rw [LookupNode.at?, nodeAt?, if_neg hpath]
    cases hsegments : Text.segments path with
    | nil => exact absurd hsegments (Text.segments_ne_nil path)
    | cons name names =>
      have hroot : LookupNode.child? (LookupNode.empty : LookupTable Remote) name = none := rfl
      rw [walk, hchild, hroot, Option.or_none]
      exact found?_children? hnodes name names

theorem shows_of_rel {found : Option Json} {node : Option (LookupNode Remote)}
    (h : Option.Rel (fun part node => node? env part = some node) found node) :
    Shows env found node := by
  cases h with
  | none => constructor <;> simp
  | @some part node h =>
    rcases node?_cases h with ⟨ms, e, rfl, haddress, he, rfl⟩ | ⟨ms, nodes, rfl, haddress, -, rfl⟩ |
      ⟨hmembers, rfl⟩
    · constructor
      · intro f
        simp only [Option.some_inj, LookupNode.function.injEq]
        constructor
        · rintro rfl
          exact ⟨ms, e, rfl, haddress, he, rfl⟩
        · rintro ⟨ms', e', hms, -, he', rfl⟩
          cases hms
          rw [he, Option.some_inj] at he'
          rw [he']
      · rintro v
        simp only [Option.some_inj, reduceCtorEq, false_iff]
        rintro ⟨rfl, hmembers⟩
        cases hmembers
      · simp [haddress]
      · simp
    · constructor
      · simp [haddress]
      · rintro v
        simp only [Option.some_inj, reduceCtorEq, false_iff]
        rintro ⟨rfl, hmembers⟩
        cases hmembers
      · simp [haddress]
      · simp
    · have hobject : ∀ ms, part ≠ .object ms := by
        rintro ms rfl
        cases hmembers
      constructor
      · simp [hobject]
      · intro v
        simp only [Option.some_inj, LookupNode.value.injEq, iff_self_and]
        rintro rfl
        exact hmembers
      · simp [hobject]
      · simp

end

end EndpointTable

open EndpointTable in
/-- A document makes a table unless a malformed endpoint is found in it. A path of the table then
shows what its names lead to in the document; dots in a name part it into several. -/
theorem table_of_document (env : Environment) {ms : Members Json} (h : (Json.object ms).Distinct)
    (hnames : ∀ name ∈ ms.names, '.' ∉ name.toList) :
    ((∃ error, ofDocument env (.object ms) = .error error) ↔
      ∃ names part, found? ms names = some part ∧ Malformed part) ∧
    ∀ table, ofDocument env (.object ms) = .ok table → ∀ names, names ≠ [] →
      ".".intercalate names ≠ "" →
        let path := ".".intercalate names
        ((∀ name ∈ names, '.' ∉ name.toList) → Text.segments path = names) ∧
          Shows env (found? ms (Text.segments path)) (table.at? path) := by
  constructor
  · rw [← @children?_eq_none_iff env ms h, ofDocument]
    cases children? env ms <;> simp
  · intro table htable names hne hpath path
    exact ⟨Text.segments_intercalate hne, shows_of_rel (found?_ofDocument h hnames htable hpath)⟩

open EndpointTable in
theorem table_of_document_nested :
    let query : Endpoint := { url := "https://shop.example/query" }
    let ms : Members Json := [("url", .string "https://shop.example"),
      ("api", .object [("query", query.toJson), ("open", .bool true)])]
    (Json.object ms).Distinct ∧ (∀ name ∈ ms.names, '.' ∉ name.toList) ∧
      ∃ table, ofDocument [] (.object ms) = .ok table ∧
        table.at? "url" = some (.value (.string "https://shop.example")) ∧
        (∃ children, table.at? "api" = some (.group children)) ∧
        table.at? "api.query" = some (.function (query.prepare [])) ∧
        table.at? "api.query.url" = none := by
  intro query ms
  have hdistinct : (Json.object ms).Distinct := by
    simp [ms, query, Endpoint.toJson, Json.Distinct, Json.DistinctMembers]
  have hnames : ∀ name ∈ ms.names, '.' ∉ name.toList := by decide
  obtain ⟨-, htables⟩ := table_of_document [] hdistinct hnames
  refine ⟨hdistinct, hnames, _, rfl, ?_⟩
  have hurl := (htables _ rfl ["url"] (by decide) (by decide)).2.value
  have hapi := (htables _ rfl ["api"] (by decide) (by decide)).2.group
  have hquery := (htables _ rfl ["api", "query"] (by decide) (by decide)).2.function
  have hbelow := (htables _ rfl ["api", "query", "url"] (by decide) (by decide)).2.absent
  exact ⟨(hurl _).mpr ⟨rfl, rfl⟩, hapi.mpr ⟨_, rfl, rfl⟩,
    (hquery _).mpr ⟨_, query, rfl, rfl, rfl, rfl⟩, hbelow.mpr rfl⟩

end FormCompiler
