import FormCompiler.Proofs.Layout.Answers

namespace FormCompiler

namespace Form

def firstOffer? (form : Form) (block key : String) : Option (String × String × Field) :=
  form.declarations.find? fun (own, _, f) => form.companionAt? block own f = some key

theorem Distinct.find?_declarations {form : Form} (h : form.Distinct) (block key : String) :
    (form.declarations.find? fun (own, k, _) => own = block ∧ k = key) =
      (form.field? block key).map fun f => (block, key, f) := by
  cases hf : form.field? block key with
  | none =>
    rw [Option.map_none, List.find?_eq_none]
    rintro ⟨own, k, f⟩ hd hp
    obtain ⟨rfl, rfl⟩ : own = block ∧ k = key := by simpa using hp
    rw [(h.field?_eq_some_iff own k f).mpr hd] at hf
    cases hf
  | some f =>
    have hmem := (h.field?_eq_some_iff block key f).mp hf
    cases hd : form.declarations.find? fun (own, k, _) => own = block ∧ k = key with
    | none =>
      have := List.find?_eq_none.mp hd _ hmem
      simp at this
    | some d =>
      obtain ⟨own, k, f'⟩ := d
      obtain ⟨rfl, rfl⟩ : own = block ∧ k = key := by simpa using List.find?_some hd
      have hf' := (h.field?_eq_some_iff own k f').mpr (List.mem_of_find?_eq_some hd)
      rw [hf] at hf'
      cases hf'
      rfl

end Form

namespace Layout

theorem lookup_declarations (form : Form) (o : CompilerOptions) (block key : String)
    (ds : List (String × String × Form.Field)) :
    (Placement.declarations (ds.flatMap (placements form o block))).lookup key =
      (ds.find? fun (own, k, _) => own = block ∧ k = key).map fun d => d.2.2.declaredEntry o := by
  induction ds with
  | nil => rfl
  | cons d ds ih =>
    obtain ⟨own, k, f⟩ := d
    rw [List.flatMap_cons, placements, Placement.declarations_append, List.lookup_append, ih,
      List.find?_cons]
    by_cases hb : own = block
    · by_cases hk : key = k
      · subst hk
        cases form.companionAt? block own f <;> simp [hb, Placement.declarations]
      · have hne : (key == k) = false := by simpa using hk
        cases form.companionAt? block own f <;>
          simp [hb, hne, Ne.symm hk, Placement.declarations, List.lookup_cons]
    · cases form.companionAt? block own f <;> simp [hb, Placement.declarations]

theorem lookup_offers (form : Form) (o : CompilerOptions) (block key : String)
    (ds : List (String × String × Form.Field)) :
    (Placement.offers (ds.flatMap (placements form o block))).lookup key =
      (ds.find? fun (own, _, f) => form.companionAt? block own f = some key).map
        fun (own, k, f) => BoundPair.companionOf own k f o := by
  induction ds with
  | nil => rfl
  | cons d ds ih =>
    obtain ⟨own, k, f⟩ := d
    rw [List.flatMap_cons, Placement.offers_append, offers_placements, List.lookup_append, ih,
      List.find?_cons]
    cases hc : form.companionAt? block own f with
    | none => simp [hc]
    | some code =>
      by_cases hk : key = code
      · subst hk
        simp [hc]
      · have hne : (key == code) = false := by simpa using hk
        simp [hc, hne, Ne.symm hk, List.lookup_cons]

theorem field?_ofForm {form : Form} (h : form.Distinct) (o : CompilerOptions) {block : String}
    (hblock : block ∈ form.blocks.names) (key : String) :
    (ofForm form o).schema.field? block key =
      ((form.field? block key).map fun f => f.declaredEntry o).or
        ((form.firstOffer? block key).map fun (own, k, f) => BoundPair.companionOf own k f o) := by
  obtain ⟨b, hb⟩ := Option.isSome_iff_exists.mp ((Members.lookup_isSome_iff _ _).mpr hblock)
  have hlookup : (ofForm form o).schema.block? block =
      some (form.declarations.foldl (receive form o block) (emptyBlock b o)) := by
    rw [Schema.block?, ofForm_blocks, Members.lookup_mapValues form.blocks
      (fun block b => form.declarations.foldl (receive form o block) (emptyBlock b o)), hb]
    rfl
  rw [Schema.field?, hlookup, Option.bind_some, fields_foldl_receive h]
  have hdeclared : (Placement.declarations (placed form o block)).lookup key =
      (form.field? block key).map fun f => f.declaredEntry o := by
    rw [placed, lookup_declarations, h.find?_declarations, Option.map_map]
    rfl
  rw [Placement.lookup_settled _ _ _ (by simp [names_declarations_placed]), hdeclared]
  split
  case isTrue hk =>
    rw [← names_declarations_placed form o, ← Members.lookup_isSome_iff, hdeclared] at hk
    obtain ⟨entry, he⟩ := Option.isSome_iff_exists.mp hk
    rw [he, Option.some_or]
  case isFalse hk =>
    rw [← names_declarations_placed form o, ← Members.lookup_eq_none_iff, hdeclared] at hk
    rw [hk, Option.none_or, placed, lookup_offers]
    rfl

end Layout

end FormCompiler
