import FormCompiler.Proofs.Form.Reading

namespace FormCompiler

def Notice.malformed? : Notice → Option (String × Option String)
  | .malformedBlock block => some (block, none)
  | .malformedField block field => some (block, some field)
  | _ => none

def Json.without : List String → Json → Json
  | [name], .object ms => .object (Members.erase ms name)
  | name :: path, .object ms => .object (Members.update ms name (without path))
  | _, j => j

theorem Json.without_cons (name step : String) (path : List String) (ms : Members Json) :
    (Json.object ms).without (name :: step :: path) =
      .object (Members.update ms name (·.without (step :: path))) := rfl

namespace Form

def unreadableIn (key : String) (j : Json) : List String :=
  match fieldsOf? key j with
  | some fields => Members.names (fields.filter fun (_, f) => !isField f)
  | none => []

def unreadable (ms : Members Json) : List (String × String) :=
  ms.flatMap fun (key, j) => (unreadableIn key j).map (key, ·)

inductive LeftOut (ms : Members Json) : List String → Prop where
  | block (key : String) (j : Json) : (key, j) ∈ ms → key ≠ titleKey → isBlock key j = false →
      LeftOut ms [key]
  | field (key name : String) : (key, name) ∈ unreadable ms → LeftOut ms [key, "properties", name]

theorem mem_unreadableIn_iff (key name : String) (j : Json) :
    name ∈ unreadableIn key j ↔
      ∃ fields f, fieldsOf? key j = some fields ∧ (name, f) ∈ fields ∧ isField f = false := by
  unfold unreadableIn
  cases fieldsOf? key j with
  | none => simp
  | some fields => simp [Members.names]

theorem nodup_unreadableIn {j : Json} (h : j.Distinct) (key : String) :
    (unreadableIn key j).Nodup := by
  unfold unreadableIn
  split
  case h_1 fields hfields =>
    obtain ⟨-, own, rfl, hp⟩ := (fieldsOf?_eq_some_iff key j fields).mp hfields
    have hpd : (Json.object fields).Distinct := h.of_mem (Members.mem_of_lookup hp)
    exact hpd.names.sublist (List.filter_sublist.map _)
  case h_2 => exact List.nodup_nil

theorem nodup_unreadable {ms : Members Json} (h : (Json.object ms).Distinct) :
    (unreadable ms).Nodup := by
  rw [unreadable, List.nodup_flatMap]
  constructor
  · rintro ⟨key, j⟩ hj
    exact (nodup_unreadableIn (h.of_mem hj) key).map fun _ _ he => (Prod.mk.inj he).2
  · have hkeys : ms.Pairwise fun m m' => m.1 ≠ m'.1 := List.pairwise_map.mp h.names
    refine hkeys.imp fun hne => ?_
    intro place hm hm'
    obtain ⟨_, -, rfl⟩ := List.mem_map.mp hm
    obtain ⟨_, -, he⟩ := List.mem_map.mp hm'
    exact hne (Prod.mk.inj he).1.symm

theorem malformed?_text {j : Json} {n : Notice} (h : (Lenient.text j).notice = some n) :
    n.malformed? = none := by
  cases j with
  | string s =>
    simp only [Lenient.text] at h
    split at h <;> cases h
  | array items =>
    cases h
    rfl
  | object ms =>
    cases h
    rfl
  | _ => cases h

theorem malformed?_count {j : Json} {n : Notice} (h : (Lenient.count j).notice = some n) :
    n.malformed? = none := by
  cases j with
  | null => cases h
  | number value => cases h
  | string s =>
    simp only [Lenient.count] at h
    split at h
    · cases h
    · split at h
      · cases h
      · cases h
        rfl
  | _ =>
    cases h
    rfl

theorem malformed?_type {j : Json} {n : Notice} (h : (Lenient.type j).notice = some n) :
    n.malformed? = none := by
  unfold Lenient.type at h
  split at h
  case h_1 s notice ht =>
    split at h
    · exact malformed?_text (j := j) (by rw [ht]; exact h)
    · cases h
      rfl
  case h_2 notice ht => exact malformed?_text (j := j) (by rw [ht]; exact h)

theorem malformed?_member {name : String} {j : Json} {n : Notice}
    (h : Field.notice? name j = some n) : n.malformed? = none := by
  unfold Field.notice? at h
  split at h
  · exact malformed?_text h
  · exact malformed?_type h
  · exact malformed?_count h
  · cases h

theorem filterMap_malformed?_notices (j : Json) :
    (Field.notices j).filterMap Notice.malformed? = [] := by
  rw [List.filterMap_eq_nil_iff]
  intro n hn
  cases j with
  | object ms =>
    obtain ⟨⟨name, value⟩, -, hm⟩ := List.mem_filterMap.mp hn
    exact malformed?_member hm
  | _ => cases hn

theorem malformed?_titleNotices (own : Members Json) :
    (Block.titleNotices own).filterMap Notice.malformed? = [] := by
  rw [List.filterMap_eq_nil_iff]
  intro n hn
  obtain ⟨j, -, hj⟩ := Option.bind_eq_some_iff.mp (Option.mem_toList.mp hn)
  exact malformed?_text hj

theorem malformed?_fieldNotices {j : Json} (h : j.Distinct) (block name : String) :
    (Block.fieldNotices block name j).filterMap Notice.malformed? =
      if isField j then [] else [(block, some name)] := by
  rw [Block.fieldNotices, List.filterMap_append, filterMap_malformed?_notices, List.nil_append,
    read?_isSome h]
  split <;> rfl

theorem malformed?_blockNotices (key : String) {own fields : Members Json} (hown : own.names.Nodup)
    (h : (Json.object fields).Distinct) :
    (Block.notices key own fields).filterMap Notice.malformed? =
      (Members.names (fields.filter fun (_, f) => !isField f)).map fun name => (key, some name) := by
  rw [Block.notices, readOwn?_eq hown, List.filterMap_append, List.filterMap_append,
    malformed?_titleNotices]
  simp only [Option.isSome_some, ↓reduceIte, List.filterMap_nil, List.append_nil, List.nil_append]
  have hfields : ∀ m ∈ fields, m.2.Distinct := fun m hm => h.of_mem hm
  clear h
  induction fields with
  | nil => rfl
  | cons m fields ih =>
    obtain ⟨name, f⟩ := m
    rw [List.flatMap_cons, List.filterMap_append, ih fun m hm => hfields m (List.mem_cons_of_mem _ hm),
      malformed?_fieldNotices (hfields _ List.mem_cons_self)]
    cases hf : isField f <;> simp [hf]

theorem malformed?_notices {ms : Members Json} (h : (Json.object ms).Distinct) :
    (notices ms).filterMap Notice.malformed? =
      (unreadable ms).map fun (key, name) => (key, some name) := by
  have hms : ∀ m ∈ ms, m.2.Distinct := fun m hm => h.of_mem hm
  clear h
  rw [notices, unreadable]
  induction ms with
  | nil => rfl
  | cons m ms ih =>
    obtain ⟨key, j⟩ := m
    have hj : j.Distinct := hms _ List.mem_cons_self
    have htail := ih fun m hm => hms m (List.mem_cons_of_mem _ hm)
    rw [List.flatMap_cons, List.map_append, ← htail, blockParts, List.filterMap_cons]
    cases hf : fieldsOf? key j with
    | none =>
      have hnone : (if key = titleKey then none else (Block.parts? j).map (key, ·)) = none := by
        rw [fieldsOf?_eq] at hf
        split at hf <;> simp_all
      simp only [hnone, unreadableIn, hf]
      rfl
    | some fields =>
      obtain ⟨hk, own, rfl, hp⟩ := (fieldsOf?_eq_some_iff key j fields).mp hf
      have hparts := (parts?_eq_some_iff (.object own) own fields).mpr ⟨rfl, hp⟩
      have hfields := distinct_of_parts hj hparts
      simp only [if_neg hk, hparts, unreadableIn, hf, Option.map_some, List.flatMap_cons,
        List.filterMap_append, malformed?_blockNotices key hj.names hfields, List.map_map]
      rfl

theorem readTitle_erase {ms : Members Json} {key : String} (h : key ≠ titleKey) :
    readTitle (Members.erase ms key) = readTitle ms := by
  rw [readTitle, Members.lookup_erase, if_neg (Ne.symm h), readTitle]

theorem readTitle_update {ms : Members Json} {key : String} (h : key ≠ titleKey) (f : Json → Json) :
    readTitle (Members.update ms key f) = readTitle ms := by
  rw [readTitle, readTitle, Members.lookup_update]
  simp only [if_neg (Ne.symm h), Option.map_id']

theorem ofMembers_eq {ms ms' : Members Json} (htitle : readTitle ms = readTitle ms')
    (hblocks : (ofMembers ms).blocks = (ofMembers ms').blocks) : ofMembers ms = ofMembers ms' := by
  calc ofMembers ms = { title := readTitle ms, blocks := (ofMembers ms).blocks } := rfl
    _ = { title := readTitle ms', blocks := (ofMembers ms').blocks } := by rw [htitle, hblocks]

theorem ofMembers_erase {ms : Members Json} (h : (Json.object ms).Distinct) {key : String} {j : Json}
    (hj : (key, j) ∈ ms) (hk : key ≠ titleKey) (hblock : isBlock key j = false) :
    ofMembers (Members.erase ms key) = ofMembers ms := by
  apply ofMembers_eq (readTitle_erase hk)
  rw [blocks_ofMembers, blocks_ofMembers]
  apply Members.filterMap_erase
  intro j' hj'
  obtain rfl := Members.eq_of_mem h.names hj hj'
  have hnone : readBlock? key j = none := by
    rw [← Option.not_isSome_iff_eq_none, readBlock?_isSome, hblock]
    simp
  simp [hnone]

theorem readFields_erase {fields : Members Json} (h : (Json.object fields).Distinct) {name : String}
    {f : Json} (hf : (name, f) ∈ fields) (hfield : isField f = false) :
    Block.readFields (Members.erase fields name) = Block.readFields fields := by
  apply Members.filterMap_erase
  intro f' hf'
  obtain rfl := Members.eq_of_mem h.names hf hf'
  have hnone : Field.read? f = none := by
    rw [← Option.not_isSome_iff_eq_none, read?_isSome (h.of_mem hf), hfield]
    simp
  simp [hnone]

theorem readBlock?_without {key name : String} {j f : Json} {fields : Members Json}
    (h : j.Distinct) (hfields : fieldsOf? key j = some fields) (hf : (name, f) ∈ fields)
    (hfield : isField f = false) :
    readBlock? key (j.without ["properties", name]) = readBlock? key j := by
  obtain ⟨hk, own, rfl, hp⟩ := (fieldsOf?_eq_some_iff key j fields).mp hfields
  have hpd : (Json.object fields).Distinct := h.of_mem (Members.mem_of_lookup hp)
  have hp' : (Members.update own "properties" (Json.without [name])).lookup "properties" =
      some (.object (Members.erase fields name)) := by
    rw [Members.lookup_update, hp]
    rfl
  have hown' : (Members.update own "properties" (Json.without [name])).names.Nodup := by
    rw [Members.names_update]
    exact h.names
  rw [Json.without, readBlock?_eq hk hown' hp', readBlock?_eq hk h.names hp, Block.ownMembers,
    Members.swapErase_update h.names, readFields_erase hpd hf hfield, Block.ownMembers]
  simp

theorem ofMembers_update {ms : Members Json} (h : (Json.object ms).Distinct) {key name : String}
    {j f : Json} {fields : Members Json} (hj : (key, j) ∈ ms) (hfields : fieldsOf? key j = some fields)
    (hf : (name, f) ∈ fields) (hfield : isField f = false) :
    ofMembers (Members.update ms key (Json.without ["properties", name])) = ofMembers ms := by
  have hk := ((fieldsOf?_eq_some_iff key j fields).mp hfields).1
  apply ofMembers_eq (readTitle_update hk _)
  rw [blocks_ofMembers, blocks_ofMembers]
  apply Members.filterMap_update
  intro j' hj'
  obtain rfl := Members.eq_of_mem h.names hj hj'
  simp only [readBlock?_without (h.of_mem hj) hfields hf hfield]

theorem LeftOut.ofMembers_without {ms : Members Json} (h : (Json.object ms).Distinct)
    {path : List String} (hpath : LeftOut ms path) :
    ∃ ms', (Json.object ms).without path = .object ms' ∧ ofMembers ms' = ofMembers ms := by
  cases hpath with
  | block key j hj hk hblock => exact ⟨_, rfl, ofMembers_erase h hj hk hblock⟩
  | field key name hm =>
    obtain ⟨⟨key', j⟩, hj, hm⟩ := List.mem_flatMap.mp hm
    obtain ⟨name', hname, he⟩ := List.mem_map.mp hm
    cases he
    obtain ⟨fields, f, hfields, hf, hfield⟩ := (mem_unreadableIn_iff _ _ j).mp hname
    exact ⟨_, Json.without_cons _ _ _ _, ofMembers_update h hj hfields hf hfield⟩

theorem config?_eq_some_iff (document : Json) (ms : Members Json) :
    config? document = some ms ↔ document.get? "config" = some (.object ms) := by
  simp [config?, Option.bind_eq_some_iff, members?_eq_some_iff]

theorem LeftOut.config?_without {document : Json} (h : document.Distinct) {ms : Members Json}
    (hc : config? document = some ms) {path : List String} (hpath : LeftOut ms path) :
    ∃ ms', config? (document.without ("config" :: path)) = some ms' ∧
      ofMembers ms' = ofMembers ms := by
  obtain ⟨ms', hms', hform⟩ := hpath.ofMembers_without (distinct_config h hc)
  refine ⟨ms', ?_, hform⟩
  rw [config?_eq_some_iff] at hc ⊢
  cases document with
  | object members =>
    obtain ⟨step, rest, rfl⟩ : ∃ step rest, path = step :: rest := by
      cases hpath <;> exact ⟨_, _, rfl⟩
    have hlookup : members.lookup "config" = some (.object ms) := hc
    rw [Json.without_cons, Json.get?, Members.lookup_update, hlookup, Option.map_some, if_pos rfl,
      hms']
  | _ => cases hc

end Form

end FormCompiler
