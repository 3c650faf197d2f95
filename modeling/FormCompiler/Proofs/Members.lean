import FormCompiler.Members
import Mathlib.Data.List.Nodup

namespace FormCompiler.Members

variable {α β : Type}

@[simp] theorem names_nil : names ([] : Members α) = [] := rfl

@[simp] theorem names_cons (m : String × α) (ms : Members α) :
    names (m :: ms) = m.1 :: names ms := rfl

@[simp] theorem names_append (ms ms' : Members α) : names (ms ++ ms') = names ms ++ names ms' :=
  List.map_append

theorem has_iff (ms : Members α) (name : String) : ms.has name = true ↔ name ∈ ms.names := by
  simp [has, names]

theorem has_congr {ms : Members α} {ms' : Members β} (h : ms.names = ms'.names) (name : String) :
    ms.has name = ms'.has name := by
  rw [Bool.eq_iff_iff, has_iff, has_iff, h]

theorem lookup_isSome_iff (ms : Members α) (name : String) :
    (ms.lookup name).isSome = true ↔ name ∈ ms.names := by
  simp only [List.lookup_isSome_iff, names, List.mem_map, beq_iff_eq]
  exact ⟨fun ⟨m, hm, he⟩ => ⟨m, hm, he.symm⟩, fun ⟨m, hm, he⟩ => ⟨m, hm, he.symm⟩⟩

theorem lookup_eq_none_iff (ms : Members α) (name : String) :
    ms.lookup name = none ↔ name ∉ ms.names := by
  rw [← lookup_isSome_iff, Option.not_isSome_iff_eq_none]

theorem names_erase (ms : Members α) (name : String) :
    (ms.erase name).names = ms.names.filter (· != name) := by
  simp [erase, names, List.filter_map, Function.comp_def]

theorem names_update (ms : Members α) (name : String) (f : α → α) :
    (ms.update name f).names = ms.names := by
  simp [update, names, Function.comp_def]

theorem names_set (ms : Members α) (name : String) (value : α) :
    (ms.set name value).names = if name ∈ ms.names then ms.names else ms.names ++ [name] := by
  induction ms with
  | nil => rfl
  | cons m ms ih =>
    obtain ⟨k, v⟩ := m
    rw [set]
    by_cases hk : k = name
    · subst hk
      simp
    · rw [if_neg hk, names_cons, ih]
      by_cases hmem : name ∈ names ms <;> simp [hmem, Ne.symm hk]

theorem lookup_cons_ite (k key : String) (value : α) (ms : Members α) :
    List.lookup key ((k, value) :: ms) = if key = k then some value else ms.lookup key := by
  rw [List.lookup_cons]
  by_cases hk : key = k
  · simp [hk]
  · have hne : (key == k) = false := by simpa using hk
    simp only [hne, if_neg hk]

theorem lookup_set (ms : Members α) (name key : String) (value : α) :
    (ms.set name value).lookup key = if key = name then some value else ms.lookup key := by
  induction ms with
  | nil => rw [set, lookup_cons_ite]
  | cons m ms ih =>
    obtain ⟨k, v⟩ := m
    rw [set]
    by_cases hname : k = name
    · subst hname
      rw [if_pos rfl, lookup_cons_ite, lookup_cons_ite]
      by_cases hk : key = k <;> simp [hk]
    · rw [if_neg hname, lookup_cons_ite, lookup_cons_ite, ih]
      by_cases hk : key = k
      · subst hk
        simp [hname]
      · simp [hk]

theorem mem_set {ms : Members α} {name : String} {value : α} {m : String × α}
    (h : m ∈ ms.set name value) : m.2 = value ∨ m ∈ ms := by
  induction ms with
  | nil => simp_all [set]
  | cons m' ms ih =>
    obtain ⟨k, v⟩ := m'
    rw [set] at h
    split at h
    · rcases List.mem_cons.mp h with he | hmem
      · exact .inl (by rw [he])
      · exact .inr (List.mem_cons_of_mem _ hmem)
    · rcases List.mem_cons.mp h with he | hmem
      · exact .inr (he ▸ List.mem_cons_self)
      · exact (ih hmem).imp_right (List.mem_cons_of_mem _)

theorem lookup_mapValues (ms : Members α) (f : String → α → β) (name : String) :
    List.lookup name (ms.map fun (k, v) => (k, f k v)) = (ms.lookup name).map (f name) := by
  induction ms with
  | nil => rfl
  | cons m ms ih =>
    obtain ⟨k, v⟩ := m
    by_cases hk : name = k
    · subst hk
      simp
    · have hne : (name == k) = false := by simpa using hk
      simp only [List.map_cons, List.lookup_cons, hne, ih]

theorem lookup_update (ms : Members α) (name key : String) (f : α → α) :
    (ms.update name f).lookup key = (ms.lookup key).map fun v => if key = name then f v else v :=
  lookup_mapValues ms (fun k v => if k = name then f v else v) key

theorem mem_of_lookup {ms : Members α} {name : String} {value : α}
    (h : ms.lookup name = some value) : (name, value) ∈ ms := by
  obtain ⟨before, after, rfl, -⟩ := List.lookup_eq_some_iff.mp h
  simp

theorem lookup_of_mem {ms : Members α} (hms : ms.names.Nodup) {name : String} {value : α}
    (h : (name, value) ∈ ms) : ms.lookup name = some value := by
  induction ms with
  | nil => simp at h
  | cons m ms ih =>
    obtain ⟨k, v⟩ := m
    rw [names_cons, List.nodup_cons] at hms
    rw [List.lookup_cons]
    rcases List.mem_cons.mp h with he | hmem
    · cases he
      simp
    · have hne : name ≠ k := by
        rintro rfl
        exact hms.1 (List.mem_map.mpr ⟨_, hmem, rfl⟩)
      have hne' : (name == k) = false := by simpa using hne
      simp only [hne', ih hms.2 hmem]

theorem eq_of_mem {ms : Members α} (hms : ms.names.Nodup) {name : String} {value value' : α}
    (h : (name, value) ∈ ms) (h' : (name, value') ∈ ms) : value = value' := by
  have hl := lookup_of_mem hms h
  rw [lookup_of_mem hms h'] at hl
  exact (Option.some_inj.mp hl).symm

theorem exists_append_of_lookup {ms : Members α} {name : String} {value : α}
    (h : ms.lookup name = some value) :
    ∃ before after : Members α, ms = before ++ (name, value) :: after ∧ name ∉ before.names := by
  obtain ⟨before, after, rfl, hbefore⟩ := List.lookup_eq_some_iff.mp h
  refine ⟨before, after, rfl, ?_⟩
  intro hmem
  obtain ⟨m, hm, he⟩ := List.mem_map.mp hmem
  have := hbefore m hm
  simp [he] at this

theorem swapErase_cons_self (name : String) (value : α) (ms : Members α) :
    swapErase ((name, value) :: ms) name = ms.getLast?.toList ++ ms.dropLast := by
  rw [swapErase, if_pos rfl]
  split <;> simp_all

theorem swapErase_append_cons (before after : Members α) (name : String) (value : α)
    (h : name ∉ before.names) :
    (before ++ (name, value) :: after).swapErase name =
      before ++ after.getLast?.toList ++ after.dropLast := by
  induction before with
  | nil => exact swapErase_cons_self name value after
  | cons m before ih =>
    obtain ⟨k, v⟩ := m
    rw [names_cons, List.mem_cons, not_or] at h
    rw [List.cons_append, swapErase, if_neg (Ne.symm h.1), ih h.2]
    rfl

theorem perm_getLast?_dropLast (ms : Members α) :
    (ms.getLast?.toList ++ ms.dropLast).Perm ms := by
  rcases ms.eq_nil_or_concat with rfl | ⟨front, last, rfl⟩
  · exact .refl _
  · simpa using (List.perm_append_singleton last front).symm

theorem erase_eq_self {ms : Members α} {name : String} (h : name ∉ ms.names) :
    ms.erase name = ms := by
  apply List.filter_eq_self.mpr
  intro m hm
  have hne : m.1 ≠ name := fun he => h (he ▸ List.mem_map_of_mem hm)
  simpa using hne

theorem perm_swapErase {ms : Members α} (h : ms.names.Nodup) (name : String) :
    (ms.swapErase name).Perm (ms.erase name) := by
  induction ms with
  | nil => exact .refl _
  | cons m ms ih =>
    obtain ⟨k, v⟩ := m
    rw [names_cons, List.nodup_cons] at h
    by_cases hk : k = name
    · subst hk
      have herase : erase ((k, v) :: ms) k = ms := by
        rw [erase, List.filter_cons_of_neg (by simp)]
        exact erase_eq_self h.1
      rw [herase, swapErase_cons_self]
      exact perm_getLast?_dropLast ms
    · have herase : erase ((k, v) :: ms) name = (k, v) :: erase ms name :=
        List.filter_cons_of_pos (by simpa using hk)
      rw [herase, swapErase, if_neg hk]
      exact (ih h.2).cons _

theorem lookup_filter (ms : Members α) (keep : String → Bool) (name : String) :
    (ms.filter fun m => keep m.1).lookup name = if keep name then ms.lookup name else none := by
  induction ms with
  | nil => simp
  | cons m ms ih =>
    obtain ⟨key, value⟩ := m
    rw [lookup_cons_ite]
    by_cases hkeep : keep key = true
    · rw [List.filter_cons, if_pos hkeep, lookup_cons_ite, ih]
      by_cases hname : name = key
      · subst hname
        rw [if_pos rfl, if_pos hkeep, if_pos rfl]
      · rw [if_neg hname, if_neg hname]
    · rw [List.filter_cons, if_neg hkeep, ih]
      by_cases hname : name = key
      · subst hname
        rw [if_neg hkeep, if_neg hkeep]
      · rw [if_neg hname]

theorem lookup_erase (ms : Members α) (name key : String) :
    (ms.erase name).lookup key = if key = name then none else ms.lookup key := by
  rw [erase, lookup_filter ms (· != name)]
  by_cases hkey : key = name <;> simp [hkey]

theorem filter_set (ms : Members α) (keep : String → Bool) {name : String} (h : keep name = false)
    (value : α) : (ms.set name value).filter (fun m => keep m.1) = ms.filter fun m => keep m.1 := by
  induction ms with
  | nil => simp [set, h]
  | cons m ms ih =>
    obtain ⟨k, v⟩ := m
    rw [set]
    by_cases hk : k = name
    · subst hk
      simp [h]
    · rw [if_neg hk, List.filter_cons, List.filter_cons, ih]

theorem all_set (ms : Members α) {name : String} {p : String × α → Bool}
    (h : ∀ value, p (name, value) = true) (value : α) : (ms.set name value).all p = ms.all p := by
  induction ms with
  | nil => simp [set, h]
  | cons m ms ih =>
    obtain ⟨k, v⟩ := m
    rw [set]
    by_cases hk : k = name
    · subst hk
      simp [h]
    · rw [if_neg hk, List.all_cons, List.all_cons, ih]

theorem update_cons (k : String) (v : α) (ms : Members α) (name : String) (f : α → α) :
    update ((k, v) :: ms) name f = (k, if k = name then f v else v) :: update ms name f := rfl

theorem update_of_not_mem {ms : Members α} {name : String} (h : name ∉ ms.names) (f : α → α) :
    ms.update name f = ms := by
  induction ms with
  | nil => rfl
  | cons m ms ih =>
    obtain ⟨k, v⟩ := m
    rw [names_cons, List.mem_cons, not_or] at h
    rw [update_cons, if_neg (Ne.symm h.1), ih h.2]

theorem swapErase_update {ms : Members α} (h : ms.names.Nodup) (name : String) (f : α → α) :
    (ms.update name f).swapErase name = ms.swapErase name := by
  induction ms with
  | nil => rfl
  | cons m ms ih =>
    obtain ⟨k, v⟩ := m
    rw [names_cons, List.nodup_cons] at h
    rw [update_cons]
    by_cases hk : k = name
    · subst hk
      rw [if_pos rfl, update_of_not_mem h.1, swapErase_cons_self, swapErase_cons_self]
    · rw [if_neg hk, swapErase, swapErase, if_neg hk, if_neg hk, ih h.2]

theorem names_filterMap (ms : Members α) (f : String → α → Option β) :
    names (ms.filterMap fun (k, v) => (f k v).map (k, ·)) =
      names (ms.filter fun (k, v) => (f k v).isSome) := by
  induction ms with
  | nil => rfl
  | cons m ms ih =>
    obtain ⟨k, v⟩ := m
    rw [List.filterMap_cons, List.filter_cons]
    cases hv : f k v with
    | none => simpa [hv] using ih
    | some value => simpa [hv] using ih

theorem names_filterMap_sublist (ms : Members α) (f : String × α → Option (String × β))
    (hf : ∀ m m', f m = some m' → m'.1 = m.1) : (names (ms.filterMap f)).Sublist ms.names := by
  induction ms with
  | nil => exact .slnil
  | cons m ms ih =>
    rw [List.filterMap_cons]
    split
    case h_1 => exact ih.cons _
    case h_2 m' hm =>
      rw [names_cons, names_cons, hf m m' hm]
      exact ih.cons_cons _

theorem filterMap_erase {ms : Members α} {name : String} {f : String × α → Option β}
    (h : ∀ value, (name, value) ∈ ms → f (name, value) = none) :
    (ms.erase name).filterMap f = ms.filterMap f := by
  rw [erase, List.filterMap_filter]
  apply List.filterMap_congr
  rintro ⟨k, v⟩ hm
  by_cases hk : k = name
  · subst hk
    simp [h v hm]
  · simp [hk]

theorem filterMap_update {ms : Members α} {name : String} {g : α → α} {f : String × α → Option β}
    (h : ∀ value, (name, value) ∈ ms → f (name, g value) = f (name, value)) :
    (ms.update name g).filterMap f = ms.filterMap f := by
  rw [update, List.filterMap_map]
  apply List.filterMap_congr
  rintro ⟨k, v⟩ hm
  by_cases hk : k = name
  · subst hk
    simpa using h v hm
  · simp [hk]

def written (regular : Members (Option α)) : Members α :=
  regular.filterMap fun (name, value) => value.map (name, ·)

theorem names_written_sublist (regular : Members (Option α)) :
    (written regular).names.Sublist regular.names := by
  apply names_filterMap_sublist
  rintro ⟨name, value⟩ m' h
  obtain ⟨v, -, rfl⟩ := Option.map_eq_some_iff.mp h
  rfl

@[simp] theorem written_nil : written ([] : Members (Option α)) = [] := rfl

theorem written_cons (name : String) (value : Option α) (regular : Members (Option α)) :
    written ((name, value) :: regular) = (value.map (name, ·)).toList ++ written regular := by
  cases value <;> rfl

theorem lookup_written {regular : Members (Option α)} (h : regular.names.Nodup) (name : String) :
    (written regular).lookup name = (regular.lookup name).join := by
  induction regular with
  | nil => rfl
  | cons m regular ih =>
    obtain ⟨k, value⟩ := m
    rw [names_cons, List.nodup_cons] at h
    rw [written_cons, List.lookup_append, List.lookup_cons, ih h.2]
    by_cases hk : name = k
    · subst hk
      have hnone : regular.lookup name = none := (lookup_eq_none_iff _ _).mpr h.1
      cases value <;> simp [hnone]
    · have hne : (name == k) = false := by simpa using hk
      cases value <;> simp [hne, List.lookup_cons]

section

variable {regular : Members (Option α)} {rest : Members α}

theorem lookup_written_append (h : regular.names.Nodup)
    (hrest : ∀ name ∈ rest.names, name ∉ regular.names) {name : String}
    (hname : name ∈ regular.names) :
    (written regular ++ rest).lookup name = (regular.lookup name).join := by
  have hnone : rest.lookup name = none :=
    (lookup_eq_none_iff _ _).mpr fun hmem => hrest name hmem hname
  rw [List.lookup_append, hnone, Option.or_none, lookup_written h]

theorem nodup_written_append (h : regular.names.Nodup) (hnodup : rest.names.Nodup)
    (hrest : ∀ name ∈ rest.names, name ∉ regular.names) :
    (written regular ++ rest).names.Nodup := by
  rw [names_append, List.nodup_append]
  refine ⟨h.sublist (names_written_sublist regular), hnodup, ?_⟩
  rintro name hname _ hmem rfl
  exact hrest name hmem ((names_written_sublist regular).subset hname)

theorem filter_written_append (hrest : ∀ name ∈ rest.names, name ∉ regular.names) :
    (written regular ++ rest).filter (fun (name, _) => !regular.names.contains name) = rest := by
  have hwritten : (written regular).filter (fun (name, _) => !regular.names.contains name) = [] := by
    apply List.filter_eq_nil_iff.mpr
    intro m hm
    have hname := (names_written_sublist regular).subset (List.mem_map_of_mem hm)
    simpa using hname
  rw [List.filter_append, hwritten, List.nil_append]
  apply List.filter_eq_self.mpr
  intro m hm
  simpa using hrest m.1 (List.mem_map_of_mem hm)

end

def Ordered (ms : Members α) : Prop := ms.names.Pairwise (· < ·)

theorem mem_names_insertSorted {ms : Members α} {name : String} {value : α} {key : String}
    (h : key ∈ (ms.insertSorted name value).names) : key = name ∨ key ∈ ms.names := by
  induction ms with
  | nil => simpa [insertSorted] using h
  | cons m ms ih =>
    obtain ⟨k, v⟩ := m
    rw [insertSorted] at h
    split at h
    · simpa using h
    · split at h
      · simp only [names_cons, List.mem_cons] at h ⊢
        exact h.imp_right .inr
      · simp only [names_cons, List.mem_cons] at h ⊢
        rcases h with h | h
        · exact .inr (.inl h)
        · exact (ih h).imp_right .inr

theorem Ordered.insertSorted {ms : Members α} (h : ms.Ordered) (name : String) (value : α) :
    (ms.insertSorted name value).Ordered := by
  induction ms with
  | nil => exact List.pairwise_singleton _ _
  | cons m ms ih =>
    obtain ⟨k, v⟩ := m
    rw [Ordered, names_cons, List.pairwise_cons] at h
    obtain ⟨hfirst, hrest⟩ := h
    rw [Members.insertSorted]
    split
    case isTrue hlt =>
      rw [Ordered, names_cons, names_cons, List.pairwise_cons, List.pairwise_cons]
      refine ⟨?_, hfirst, hrest⟩
      rw [List.forall_mem_cons]
      exact ⟨hlt, fun key hkey => String.lt_trans hlt (hfirst key hkey)⟩
    case isFalse hnot =>
      split
      case isTrue he =>
        subst he
        exact List.pairwise_cons.mpr ⟨hfirst, hrest⟩
      case isFalse hne =>
        have hlt : k < name := by
          apply Decidable.byContradiction
          intro hnot'
          exact hne (String.le_antisymm (String.not_lt.mp hnot') (String.not_lt.mp hnot))
        rw [Ordered, names_cons, List.pairwise_cons]
        refine ⟨?_, ih hrest⟩
        intro key hkey
        rcases mem_names_insertSorted hkey with rfl | hmem
        · exact hlt
        · exact hfirst key hmem

theorem ordered_sorted (ms : Members α) : ms.sorted.Ordered := by
  have hfold : ∀ (rest acc : Members α), acc.Ordered →
      (rest.foldl (fun acc (k, v) => Members.insertSorted acc k v) acc).Ordered := by
    intro rest
    induction rest with
    | nil => exact fun acc hacc => hacc
    | cons m rest ih => exact fun acc hacc => ih _ (hacc.insertSorted m.1 m.2)
  exact hfold ms [] List.Pairwise.nil

theorem Ordered.nodup {ms : Members α} (h : ms.Ordered) : ms.names.Nodup := by
  refine List.Pairwise.imp ?_ h
  rintro a b hlt rfl
  exact String.lt_irrefl a hlt

theorem lookup_eq_some_iff {ms : Members α} (h : ms.names.Nodup) (name : String) (value : α) :
    ms.lookup name = some value ↔ (name, value) ∈ ms := ⟨mem_of_lookup, lookup_of_mem h⟩

theorem lookup_perm {ms ms' : Members α} (hperm : ms.Perm ms') (h : ms.names.Nodup)
    (name : String) : ms.lookup name = ms'.lookup name := by
  have h' : ms'.names.Nodup := (hperm.map _).nodup_iff.mp h
  apply Option.ext
  intro value
  rw [lookup_eq_some_iff h, lookup_eq_some_iff h', hperm.mem_iff]

end FormCompiler.Members
