import FormCompiler.Proofs.Members

namespace FormCompiler

inductive Placement (α : Type) where
  | declared (key : String) (value : α)
  | offered (key : String) (value : α)

namespace Placement

variable {α : Type}

def apply (ms : Members α) : Placement α → Members α
  | .declared key value => ms.moveToEnd key value
  | .offered key value => ms.offer key value

def declarations : List (Placement α) → Members α
  | [] => []
  | .declared key value :: ps => (key, value) :: declarations ps
  | .offered _ _ :: ps => declarations ps

def offers : List (Placement α) → Members α
  | [] => []
  | .declared _ _ :: ps => offers ps
  | .offered key value :: ps => (key, value) :: offers ps

theorem declarations_append (ps qs : List (Placement α)) :
    declarations (ps ++ qs) = declarations ps ++ declarations qs := by
  induction ps with
  | nil => rfl
  | cons p ps ih => cases p <;> simp [declarations, ih]

theorem offers_append (ps qs : List (Placement α)) : offers (ps ++ qs) = offers ps ++ offers qs := by
  induction ps with
  | nil => rfl
  | cons p ps ih => cases p <;> simp [offers, ih]

def settled : List String → List (Placement α) → Members α
  | _, [] => []
  | closed, .declared key value :: ps => (key, value) :: settled closed ps
  | closed, .offered key value :: ps =>
    if key ∈ closed then settled closed ps
    else (key, value) :: settled (key :: closed) ps

theorem settled_congr (ps : List (Placement α)) (closed closed' : List String)
    (h : ∀ key, key ∈ closed ↔ key ∈ closed') : settled closed ps = settled closed' ps := by
  induction ps generalizing closed closed' with
  | nil => rfl
  | cons p ps ih =>
    cases p with
    | declared key value => simp only [settled, ih closed closed' h]
    | offered key value =>
      have hcons : ∀ k, k ∈ key :: closed ↔ k ∈ key :: closed' := by
        intro k
        simp only [List.mem_cons, h]
      simp only [settled, h, ih closed closed' h, ih _ _ hcons]

theorem foldl_apply (ps : List (Placement α)) (ms : Members α)
    (h : (declarations ps).names.Nodup) :
    ps.foldl apply ms =
      ms.filter (fun m => m.1 ∉ (declarations ps).names) ++
        settled ((declarations ps).names ++ ms.names) ps := by
  induction ps generalizing ms with
  | nil => simp [settled, declarations]
  | cons p ps ih =>
    cases p with
    | declared key value =>
      rw [declarations, Members.names_cons, List.nodup_cons] at h
      have hlast : [(key, value)].filter (fun m => m.1 ∉ (declarations ps).names) =
          [(key, value)] := List.filter_cons_of_pos (by simpa using h.1)
      rw [List.foldl_cons, ih _ h.2, declarations]
      simp only [apply, Members.moveToEnd, List.filter_append, settled, List.append_assoc, hlast,
        List.singleton_append]
      congr 1
      · rw [Members.erase, List.filter_filter]
        apply List.filter_congr
        intro m _
        by_cases hm : m.1 = key <;> simp [hm]
      · congr 1
        apply settled_congr
        intro k
        by_cases hk : k = key <;> simp [Members.names_erase, hk]
    | offered key value =>
      rw [declarations] at h ⊢
      rw [List.foldl_cons, ih _ h]
      by_cases hms : key ∈ ms.names
      · have hhas := (Members.has_iff ms key).mpr hms
        simp [apply, Members.offer, hhas, settled, hms]
      · have hhas : ms.has key = false := by
          rw [Bool.eq_false_iff, Ne, Members.has_iff]
          exact hms
        have happly : apply ms (.offered key value) = ms ++ [(key, value)] := by
          simp [apply, Members.offer, hhas]
        rw [happly, List.filter_append, List.append_assoc, settled]
        congr 1
        by_cases hkey : key ∈ (declarations ps).names
        · -- the key is declared later on, so the companion is there for a while only
          rw [List.filter_cons_of_neg (by simpa using hkey), List.filter_nil, List.nil_append,
            if_pos (List.mem_append_left _ hkey)]
          apply settled_congr
          intro k
          by_cases hk : k = key <;> simp [hk, hkey]
        · rw [List.filter_cons_of_pos (by simpa using hkey), List.filter_nil,
            List.singleton_append, if_neg (by simp [hkey, hms])]
          congr 1
          apply settled_congr
          intro k
          by_cases hk : k = key <;> simp [hk]

theorem foldl_apply_nil (ps : List (Placement α)) (h : (declarations ps).names.Nodup) :
    ps.foldl apply [] = settled (declarations ps).names ps := by
  simpa using foldl_apply ps [] h

theorem mem_names_settled (ps : List (Placement α)) (closed : List String) (key : String) :
    key ∈ (settled closed ps).names ↔
      key ∈ (declarations ps).names ∨ key ∉ closed ∧ key ∈ (offers ps).names := by
  induction ps generalizing closed with
  | nil => simp [settled, declarations, offers]
  | cons p ps ih =>
    cases p with
    | declared k v =>
      simp only [settled, declarations, offers, Members.names_cons, List.mem_cons, ih, or_assoc]
    | offered k v =>
      simp only [settled, declarations, offers, Members.names_cons, List.mem_cons]
      by_cases hk : k ∈ closed
      · have hne : key ∉ closed → key ≠ k := by
          rintro hkey rfl
          exact hkey hk
        rw [if_pos hk, ih]
        tauto
      · have heq : key = k → key ∉ closed := by
          rintro rfl
          exact hk
        rw [if_neg hk, Members.names_cons, List.mem_cons, ih, List.mem_cons]
        tauto

theorem nodup_names_settled (ps : List (Placement α)) (closed : List String)
    (h : (declarations ps).names.Nodup) (hclosed : (declarations ps).names ⊆ closed) :
    (settled closed ps).names.Nodup := by
  induction ps generalizing closed with
  | nil => exact List.nodup_nil
  | cons p ps ih =>
    cases p with
    | declared k v =>
      rw [declarations, Members.names_cons] at h hclosed
      rw [List.nodup_cons] at h
      rw [List.cons_subset] at hclosed
      rw [settled, Members.names_cons, List.nodup_cons, mem_names_settled]
      constructor
      · rintro (hlater | ⟨hopen, -⟩)
        · exact h.1 hlater
        · exact hopen hclosed.1
      · exact ih closed h.2 hclosed.2
    | offered k v =>
      rw [declarations] at h hclosed
      rw [settled]
      split
      case isTrue => exact ih closed h hclosed
      case isFalse hk =>
        rw [Members.names_cons, List.nodup_cons, mem_names_settled]
        constructor
        · rintro (hlater | ⟨hopen, -⟩)
          · exact hk (hclosed hlater)
          · exact hopen List.mem_cons_self
        · exact ih _ h fun k' hk' => List.mem_cons_of_mem _ (hclosed hk')

theorem lookup_settled (ps : List (Placement α)) (closed : List String) (key : String)
    (h : ∀ k ∈ (declarations ps).names, k ∈ closed) :
    (settled closed ps).lookup key =
      if key ∈ closed then (declarations ps).lookup key else (offers ps).lookup key := by
  induction ps generalizing closed with
  | nil => simp [settled, declarations, offers]
  | cons p ps ih =>
    cases p with
    | declared k v =>
      rw [declarations] at h ⊢
      have hk : k ∈ closed := h k (by simp)
      have hps : ∀ k ∈ (declarations ps).names, k ∈ closed := by
        intro k' hk'
        exact h k' (by simp [hk'])
      rw [settled, offers, List.lookup_cons, List.lookup_cons, ih closed hps]
      by_cases he : key = k
      · subst he
        simp [hk]
      · have hne : (key == k) = false := by simpa using he
        simp only [hne]
    | offered k v =>
      rw [declarations] at h ⊢
      rw [settled, offers, List.lookup_cons]
      by_cases hk : k ∈ closed
      · rw [if_pos hk, ih closed h]
        by_cases he : key = k
        · subst he
          simp [hk]
        · have hne : (key == k) = false := by simpa using he
          simp only [hne]
      -- the first companion of a key closes it to those that come after
      · rw [if_neg hk, List.lookup_cons, ih (k :: closed) fun k' hk' =>
          List.mem_cons_of_mem _ (h k' hk')]
        by_cases he : key = k
        · subst he
          simp [hk]
        · have hne : (key == k) = false := by simpa using he
          simp [hne, he]

end Placement

end FormCompiler
