import FormCompiler.Proofs.Form.Distinct

namespace FormCompiler.Form

def isEntry : Json → Bool
  | .object _ => true
  | .array items => items.length ≤ 4
  | _ => false

def areOptions : Json → Bool
  | .null => true
  | .array entries => entries.all isEntry
  | _ => false

def isField : Json → Bool
  | .object ms => ((ms.lookup "enums").map areOptions).getD true
  | _ => false

def fieldsOf? (key : String) (j : Json) : Option (Members Json) :=
  if key = titleKey then none else (j.get? "properties").bind Json.members?

def isBlock (key : String) (j : Json) : Bool := (fieldsOf? key j).isSome

theorem choice_read?_isSome (j : Json) : (Choice.read? j).isSome = isEntry j := by
  cases j with
  | array items =>
    rw [Choice.read?, Option.isSome_map, Json.record?, isEntry]
    by_cases h : items.length ≤ 4 <;> simp [Choice.memberNames, h]
  | _ => rfl

theorem mapM_isSome {α β : Type} (read : α → Option β) (l : List α) :
    (l.mapM read).isSome = l.all fun a => (read a).isSome := by
  induction l with
  | nil => rfl
  | cons a l ih =>
    rw [List.mapM_cons, List.all_cons, ← ih]
    cases read a with
    | none => rfl
    | some b => cases l.mapM read <;> rfl

theorem choices?_isSome (j : Json) : (Field.choices? j).isSome = areOptions j := by
  cases j with
  | array entries =>
    have hentries := mapM_isSome Choice.read? entries
    simp only [choice_read?_isSome] at hentries
    rw [areOptions, ← hentries, Field.choices?, Json.optional?, Option.isSome_map]
    · rfl
    · simp
  | _ => rfl

theorem role?_eq_choices_iff (name : String) :
    Field.role? name = some .choices ↔ name = "enums" := by
  constructor
  · intro h
    unfold Field.role? at h
    split at h <;> simp_all
  · rintro rfl
    rfl

theorem readable_eq (name : String) (j : Json) :
    Field.readable name j = (name != "enums" || areOptions j) := by
  unfold Field.readable
  split
  case h_1 h =>
    rw [(role?_eq_choices_iff name).mp h, choices?_isSome]
    rfl
  case h_2 h =>
    have hne : name ≠ "enums" := fun he => h ((role?_eq_choices_iff name).mpr he)
    simp [hne]

theorem all_eq_lookup {ms : Members Json} (h : ms.names.Nodup) (name : String) (p : Json → Bool) :
    (ms.all fun (k, j) => k != name || p j) = ((ms.lookup name).map p).getD true := by
  rw [Bool.eq_iff_iff, List.all_eq_true]
  cases hl : ms.lookup name with
  | none =>
    have hname := (Members.lookup_eq_none_iff ms name).mp hl
    simp only [Option.map_none, Option.getD_none, iff_true]
    intro m hm
    have hne : m.1 ≠ name := fun he => hname (he ▸ List.mem_map_of_mem hm)
    simp [hne]
  | some value =>
    simp only [Option.map_some, Option.getD_some]
    constructor
    · intro hall
      simpa using hall _ (Members.mem_of_lookup hl)
    · rintro hp ⟨k, j⟩ hm
      by_cases hk : k = name
      · subst hk
        have hj := Members.lookup_of_mem h hm
        rw [hl] at hj
        cases hj
        simp [hp]
      · simp [hk]

theorem read?_isSome {j : Json} (h : j.Distinct) : (Field.read? j).isSome = isField j := by
  cases j with
  | object ms =>
    simp only [Field.read?, isField, readable_eq, all_eq_lookup h.names]
    split <;> simp_all
  | _ => rfl

theorem readOwn?_eq {own : Members Json} (h : own.names.Nodup) :
    Block.readOwn? own = some (Block.ofOwn (Block.ownMembers own)) := by
  rw [Block.readOwn?, Block.read?, if_pos]
  rw [List.all_eq_true]
  rintro ⟨name, j⟩ hm
  have herase := (Members.perm_swapErase h "properties").mem_iff.mp hm
  have hne : (name != "properties") = true := (List.mem_filter.mp herase).2
  simp [Block.readable, hne]

theorem names_readFields {fields : Members Json} (h : (Json.object fields).Distinct) :
    (Block.readFields fields).names = Members.names (fields.filter fun (_, j) => isField j) := by
  have hnames := Members.names_filterMap fields fun _ j => Field.read? j
  rw [Block.readFields, hnames]
  congr 1
  apply List.filter_congr
  rintro ⟨name, j⟩ hm
  exact read?_isSome (h.of_mem hm)

theorem mem_readFields {fields : Members Json} {name : String} {f : Field}
    (h : (name, f) ∈ Block.readFields fields) :
    ∃ j, (name, j) ∈ fields ∧ Field.read? j = some f := by
  obtain ⟨⟨name', j⟩, hj, hread⟩ := List.mem_filterMap.mp h
  obtain ⟨f', hf, he⟩ := Option.map_eq_some_iff.mp hread
  cases he
  exact ⟨j, hj, hf⟩

theorem members?_eq_some_iff (j : Json) (ms : Members Json) :
    j.members? = some ms ↔ j = .object ms := by
  cases j <;> simp [Json.members?]

theorem parts?_eq_some_iff (j : Json) (own fields : Members Json) :
    Block.parts? j = some (own, fields) ↔
      j = .object own ∧ own.lookup "properties" = some (.object fields) := by
  simp only [Block.parts?, Option.bind_eq_bind, Option.bind_eq_some_iff, members?_eq_some_iff,
    Option.some_inj, Prod.mk.injEq]
  constructor
  · rintro ⟨ms, rfl, p, hp, fs, rfl, rfl, rfl⟩
    exact ⟨rfl, hp⟩
  · rintro ⟨rfl, hp⟩
    exact ⟨own, rfl, _, hp, fields, rfl, rfl, rfl⟩

theorem fieldsOf?_eq (key : String) (j : Json) :
    fieldsOf? key j = if key = titleKey then none else (Block.parts? j).map (·.2) := by
  cases j with
  | object ms =>
    simp only [fieldsOf?, Json.get?, Block.parts?, Json.members?, Option.bind_eq_bind,
      Option.bind_some]
    cases ms.lookup "properties" with
    | none => rfl
    | some p => cases p <;> rfl
  | _ => rfl

theorem fieldsOf?_eq_some_iff (key : String) (j : Json) (fields : Members Json) :
    fieldsOf? key j = some fields ↔
      key ≠ titleKey ∧ ∃ own, j = .object own ∧ own.lookup "properties" = some (.object fields) := by
  rw [fieldsOf?_eq]
  by_cases hk : key = titleKey
  · simp [hk]
  · simp [hk, Option.map_eq_some_iff, parts?_eq_some_iff]

def readBlock? (key : String) (j : Json) : Option Block :=
  if key = titleKey then none else (Block.parts? j).map fun (own, fields) => Block.ofMembers own fields

theorem blocks_ofMembers (ms : Members Json) :
    (ofMembers ms).blocks = ms.filterMap fun (key, j) => (readBlock? key j).map (key, ·) := by
  rw [ofMembers, blockParts, List.map_filterMap]
  apply List.filterMap_congr
  rintro ⟨key, j⟩ -
  simp only [readBlock?]
  split
  · rfl
  · rw [Option.map_map, Option.map_map]
    rfl

theorem readBlock?_isSome (key : String) (j : Json) :
    (readBlock? key j).isSome = isBlock key j := by
  rw [isBlock, fieldsOf?_eq, readBlock?]
  split
  · rfl
  · rw [Option.isSome_map, Option.isSome_map]

theorem names_blocks (ms : Members Json) :
    (ofMembers ms).blocks.names = Members.names (ms.filter fun (key, j) => isBlock key j) := by
  rw [blocks_ofMembers, Members.names_filterMap]
  simp only [readBlock?_isSome]

theorem readBlock?_eq {key : String} {own fields : Members Json}
    (hk : key ≠ titleKey) (hown : own.names.Nodup)
    (hp : own.lookup "properties" = some (.object fields)) :
    readBlock? key (.object own) =
      some { Block.ofOwn (Block.ownMembers own) with fields := Block.readFields fields } := by
  rw [readBlock?, if_neg hk, (parts?_eq_some_iff _ own fields).mpr ⟨rfl, hp⟩, Option.map_some]
  simp only [Block.ofMembers, readOwn?_eq hown, Option.getD_some]

theorem Field.eq_ofMembers {ms : Members Json} {f : Field} (h : Field.read? (.object ms) = some f) :
    f = Field.ofMembers ms := by
  simp only [Field.read?, Option.ite_none_right_eq_some, Option.some_inj] at h
  exact h.2.symm

theorem lookup_blocks {ms : Members Json} (h : (Json.object ms).Distinct) {key : String}
    {own fields : Members Json} (hown : (key, .object own) ∈ ms) (hk : key ≠ titleKey)
    (hp : own.lookup "properties" = some (.object fields)) :
    (ofMembers ms).blocks.lookup key =
      some { Block.ofOwn (Block.ownMembers own) with fields := Block.readFields fields } := by
  have hread := readBlock?_eq hk (h.of_mem hown).names hp
  apply Members.lookup_of_mem (distinct_ofMembers h).blocks
  rw [blocks_ofMembers]
  exact List.mem_filterMap.mpr ⟨_, hown, by simp [hread]⟩

theorem exists_member_of_block {ms : Members Json} (h : (Json.object ms).Distinct) {key : String}
    {b : Block} (hb : (key, b) ∈ (ofMembers ms).blocks) :
    ∃ own fields, (key, .object own) ∈ ms ∧ key ≠ titleKey ∧ own.names.Nodup ∧
      own.lookup "properties" = some (.object fields) ∧
      b = { Block.ofOwn (Block.ownMembers own) with fields := Block.readFields fields } := by
  rw [blocks_ofMembers] at hb
  obtain ⟨⟨key', j⟩, hj, hread⟩ := List.mem_filterMap.mp hb
  obtain ⟨b', hb', he⟩ := Option.map_eq_some_iff.mp hread
  cases he
  have hfields : (fieldsOf? key j).isSome = true := by
    rw [← isBlock, ← readBlock?_isSome, hb']
    rfl
  obtain ⟨fields, hfields⟩ := Option.isSome_iff_exists.mp hfields
  obtain ⟨hk, own, rfl, hp⟩ := (fieldsOf?_eq_some_iff key j fields).mp hfields
  have hown := (h.of_mem hj).names
  rw [readBlock?_eq hk hown hp, Option.some_inj] at hb'
  exact ⟨own, fields, hj, hk, hown, hp, hb'.symm⟩

end FormCompiler.Form
