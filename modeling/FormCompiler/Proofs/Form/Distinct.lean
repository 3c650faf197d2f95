import FormCompiler.Form.Basic
import FormCompiler.Proofs.Json.Distinct

namespace FormCompiler.Form

structure Distinct (form : Form) : Prop where
  blocks : form.blocks.names.Nodup
  fields : ∀ key b, (key, b) ∈ form.blocks → b.fields.names.Nodup

def field? (form : Form) (block key : String) : Option Field :=
  (form.blocks.lookup block).bind fun b => b.fields.lookup key

def declaredKeys (form : Form) (block : String) : List String :=
  form.declarations.filterMap fun (own, key, _) => if own = block then some key else none

theorem names_readFields_sublist (fields : Members Json) :
    (Block.readFields fields).names.Sublist fields.names := by
  apply Members.names_filterMap_sublist
  rintro ⟨name, j⟩ m' h
  obtain ⟨f, -, rfl⟩ := Option.map_eq_some_iff.mp h
  rfl

theorem names_blockParts_sublist (ms : Members Json) : (blockParts ms).names.Sublist ms.names := by
  apply Members.names_filterMap_sublist
  rintro ⟨key, j⟩ m' h
  dsimp only at h
  split at h
  · cases h
  · obtain ⟨parts, -, rfl⟩ := Option.map_eq_some_iff.mp h
    rfl

theorem distinct_of_parts {j : Json} {own fields : Members Json} (hj : j.Distinct)
    (h : Block.parts? j = some (own, fields)) : (Json.object fields).Distinct := by
  cases j with
  | object ms =>
    simp only [Block.parts?, Json.members?, Option.bind_eq_bind, Option.bind_some] at h
    obtain ⟨p, hp, h⟩ := Option.bind_eq_some_iff.mp h
    have hpd : p.Distinct := hj.of_mem (Members.mem_of_lookup hp)
    cases p with
    | object fs =>
      cases h
      exact hpd
    | _ => cases h
  | _ => simp [Block.parts?, Json.members?] at h

theorem distinct_ofMembers {ms : Members Json} (h : (Json.object ms).Distinct) :
    (ofMembers ms).Distinct where
  blocks := by
    have hnames : (ofMembers ms).blocks.names = (blockParts ms).names := by
      simp [ofMembers, Members.names, Function.comp_def]
    rw [hnames]
    exact h.names.sublist (names_blockParts_sublist ms)
  fields := by
    intro key b hb
    obtain ⟨⟨k, own, fields⟩, hparts, he⟩ := List.mem_map.mp hb
    cases he
    obtain ⟨⟨k', j⟩, hj, hp⟩ := List.mem_filterMap.mp hparts
    dsimp only at hp
    split at hp
    · cases hp
    · obtain ⟨parts, hparts', he⟩ := Option.map_eq_some_iff.mp hp
      cases he
      have hfields := distinct_of_parts (h.of_mem hj) hparts'
      exact hfields.names.sublist (names_readFields_sublist fields)

theorem distinct_config {document : Json} (h : document.Distinct) {ms : Members Json}
    (hc : config? document = some ms) : (Json.object ms).Distinct := by
  obtain ⟨config, hconfig, hms⟩ := Option.bind_eq_some_iff.mp hc
  cases config with
  | object ms' =>
    cases hms
    exact h.get? hconfig
  | _ => cases hms

theorem mem_declarations (form : Form) (block key : String) (f : Field) :
    (block, key, f) ∈ form.declarations ↔ ∃ b, (block, b) ∈ form.blocks ∧ (key, f) ∈ b.fields := by
  simp only [declarations, List.mem_flatMap, List.mem_map]
  constructor
  · rintro ⟨⟨block', b⟩, hb, ⟨key', f'⟩, hf, he⟩
    cases he
    exact ⟨b, hb, hf⟩
  · rintro ⟨b, hb, hf⟩
    exact ⟨(block, b), hb, (key, f), hf, rfl⟩

theorem Distinct.field?_eq_some_iff {form : Form} (h : form.Distinct) (block key : String)
    (f : Field) : form.field? block key = some f ↔ (block, key, f) ∈ form.declarations := by
  rw [mem_declarations, field?, Option.bind_eq_some_iff]
  constructor
  · rintro ⟨b, hb, hf⟩
    exact ⟨b, Members.mem_of_lookup hb, Members.mem_of_lookup hf⟩
  · rintro ⟨b, hb, hf⟩
    exact ⟨b, Members.lookup_of_mem h.blocks hb, Members.lookup_of_mem (h.fields block b hb) hf⟩

theorem filterMap_declarations {β : Type} (g : String → Field → Option β) (bs : Members Block)
    (hbs : bs.names.Nodup) (block : String) :
    ((Form.mk none bs).declarations.filterMap
      fun (own, key, f) => if own = block then g key f else none) =
        ((bs.lookup block).map fun b => b.fields.filterMap fun (key, f) => g key f).getD [] := by
  induction bs with
  | nil => rfl
  | cons m bs ih =>
    obtain ⟨k, b⟩ := m
    rw [Members.names_cons, List.nodup_cons] at hbs
    have htail := ih hbs.2
    simp only [declarations, List.flatMap_cons, List.filterMap_append, List.filterMap_map] at htail ⊢
    rw [htail, List.lookup_cons]
    by_cases hk : block = k
    · subst hk
      rw [(Members.lookup_eq_none_iff bs block).mpr hbs.1]
      simp
    · have hne : (block == k) = false := by simpa using hk
      simp [hne, Ne.symm hk]

theorem Distinct.declaredKeys_eq {form : Form} (h : form.Distinct) (block : String) :
    form.declaredKeys block = ((form.blocks.lookup block).map fun b => b.fields.names).getD [] := by
  refine (filterMap_declarations (fun key _ => some key) form.blocks h.blocks block).trans ?_
  simp only [List.filterMap_eq_map', Members.names]

theorem Distinct.declaredKeys_nodup {form : Form} (h : form.Distinct) (block : String) :
    (form.declaredKeys block).Nodup := by
  rw [h.declaredKeys_eq]
  cases hb : form.blocks.lookup block with
  | none => exact List.nodup_nil
  | some b => exact h.fields block b (Members.mem_of_lookup hb)

end FormCompiler.Form
