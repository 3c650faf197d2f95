import FormCompiler.Text.Segments

namespace FormCompiler.Text

theorem splitMarks_eq_splitOn (mark : Char) (cs : List Char) :
    splitMarks mark cs = cs.splitOn mark := by
  induction cs with
  | nil => rfl
  | cons c rest ih =>
    rw [splitMarks, List.splitOn_cons_eq_if_modifyHead, ih]
    by_cases hc : c = mark
    · simp [hc]
    · have hne : (c == mark) = false := by simpa using hc
      simp only [hc, hne, if_false, Bool.false_eq_true]
      cases h : rest.splitOn mark with
      | nil => exact absurd h (List.splitOn_ne_nil mark rest)
      | cons part parts => rfl

theorem splitMarks_of_not_mem {mark : Char} {cs : List Char} (h : mark ∉ cs) :
    splitMarks mark cs = [cs] := by
  induction cs with
  | nil => rfl
  | cons c rest ih =>
    obtain ⟨hne, hrest⟩ := List.ne_and_not_mem_of_not_mem_cons h
    rw [splitMarks, if_neg hne.symm, ih hrest]

theorem intercalate_segments (path : String) : ".".intercalate (segments path) = path := by
  have hcomp : String.toList ∘ String.ofList = id := by
    funext cs
    exact String.toList_ofList
  rw [← String.toList_inj, String.toList_intercalate, segments, List.map_map, hcomp, List.map_id,
    splitMarks_eq_splitOn]
  exact List.intercalate_splitOn '.'

theorem intercalate_ne_empty {paths : List String} (hne : paths ≠ [])
    (h : ∀ p ∈ paths, p ≠ "") : ".".intercalate paths ≠ "" := by
  cases paths with
  | nil => exact absurd rfl hne
  | cons p paths =>
    have hp := h p List.mem_cons_self
    cases paths with
    | nil => rwa [String.intercalate_singleton]
    | cons q paths =>
      rw [String.intercalate_cons_cons]
      simp [hp]

theorem segments_intercalate {names : List String} (hne : names ≠ [])
    (h : ∀ name ∈ names, '.' ∉ name.toList) : segments (".".intercalate names) = names := by
  have hcomp : String.ofList ∘ String.toList = id := by
    funext s
    exact String.ofList_toList
  have hsplit : splitMarks '.' (".".intercalate names).toList = names.map String.toList := by
    rw [splitMarks_eq_splitOn, String.toList_intercalate]
    apply List.splitOn_intercalate '.'
    · rw [List.forall_mem_map]
      exact h
    · simpa using hne
  rw [segments, hsplit, List.map_map, hcomp, List.map_id]

theorem segments_of_undotted {name : String} (h : '.' ∉ name.toList) : segments name = [name] := by
  have hname := segments_intercalate (List.cons_ne_nil name []) (by simpa using h)
  rwa [String.intercalate_singleton] at hname

theorem segments_inj {p q : String} (h : segments p = segments q) : p = q := by
  rw [← intercalate_segments p, h, intercalate_segments]

theorem segments_ne_nil (path : String) : segments path ≠ [] := by
  simpa [segments] using splitMarks_ne_nil '.' path.toList

theorem segments_dotted (p s : String) : segments (p ++ "." ++ s) = segments p ++ segments s := by
  have hlist : (p ++ "." ++ s).toList = p.toList ++ '.' :: s.toList := by simp
  rw [segments, hlist, splitMarks_append, List.map_append]
  rfl

theorem lt_dotted (p s : String) : p < p ++ "." ++ s := by
  rw [String.lt_iff]
  have hlist : (p ++ "." ++ s).toList = p.toList ++ '.' :: s.toList := by simp
  rw [hlist]
  induction p.toList with
  | nil => exact List.Lex.nil
  | cons c cs ih => exact List.Lex.cons ih

def Above (p q : String) : Prop := ∃ s, q = p ++ "." ++ s

theorem above_iff (p q : String) :
    Above p q ↔ ∃ rest, rest ≠ [] ∧ segments q = segments p ++ rest := by
  constructor
  · rintro ⟨s, rfl⟩
    exact ⟨segments s, segments_ne_nil s, segments_dotted p s⟩
  · rintro ⟨rest, hrest, h⟩
    refine ⟨".".intercalate rest, ?_⟩
    rw [← intercalate_segments q, h,
      String.intercalate_append_of_ne_nil (segments_ne_nil p) hrest, intercalate_segments]

theorem Above.lt {p q : String} (h : Above p q) : p < q := by
  obtain ⟨s, rfl⟩ := h
  exact lt_dotted p s

theorem Above.trans {p q r : String} (h : Above p q) (h' : Above q r) : Above p r := by
  obtain ⟨s, rfl⟩ := h
  obtain ⟨t, rfl⟩ := h'
  exact ⟨s ++ "." ++ t, by simp only [String.append_assoc]⟩

theorem above_of_prefix {p q : String} (h : segments p <+: segments q) (hne : p ≠ q) :
    Above p q := by
  obtain ⟨rest, hrest⟩ := h
  refine (above_iff p q).mpr ⟨rest, ?_, hrest.symm⟩
  rintro rfl
  rw [List.append_nil] at hrest
  exact hne (segments_inj hrest)

end FormCompiler.Text
