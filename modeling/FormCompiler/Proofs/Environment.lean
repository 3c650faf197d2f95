import FormCompiler.Environment
import FormCompiler.Proofs.Members
import Mathlib.Data.List.TakeWhile

namespace FormCompiler

namespace Piece

def written (name : List Char) : List Char :=
  ['$', '\x7b', 'e', 'n', 'v', ':'] ++ name ++ ['\x7d']

theorem placeholder?_written {name : List Char} (hname : ∀ c ∈ name, isNameChar c = true)
    (after : List Char) : placeholder? (written name ++ after) = some (name, after) := by
  have hstop : isNameChar '\x7d' = false := by decide
  simp [written, placeholder?, List.dropWhile_append_of_pos hname,
    List.takeWhile_append_of_pos hname, hstop]

theorem placeholder?_eq_some_iff {text name after : List Char} :
    placeholder? text = some (name, after) ↔
      text = written name ++ after ∧ ∀ c ∈ name, isNameChar c = true := by
  constructor
  · intro h
    unfold placeholder? at h
    split at h
    case h_1 text =>
      split at h
      case h_1 rest hrest =>
        cases h
        have hsplit := List.takeWhile_append_dropWhile (p := isNameChar) (l := text)
        rw [hrest] at hsplit
        refine ⟨by simp [written, hsplit], ?_⟩
        intro c hc
        exact List.mem_takeWhile_imp hc
      case h_2 => cases h
    case h_2 => cases h
  · rintro ⟨rfl, hname⟩
    exact placeholder?_written hname after

theorem brace_not_mem_name {name : List Char} (hname : ∀ c ∈ name, isNameChar c = true) :
    '\x7b' ∉ ['e', 'n', 'v', ':'] ++ name ++ ['\x7d'] := by
  intro h
  simp only [List.mem_append, List.mem_cons, List.not_mem_nil, or_false] at h
  rcases h with (h | h) | h
  · revert h
    decide
  · exact absurd (hname _ h) (by decide)
  · exact absurd h (by decide)

theorem exists_of_placeholder?_append {a name after first rest : List Char} (ha : a ≠ [])
    (h : placeholder? (a ++ (written name ++ after)) = some (first, rest)) :
    ∃ before, a = written first ++ before := by
  obtain ⟨htext, hfirst⟩ := placeholder?_eq_some_iff.mp h
  rcases List.append_eq_append_iff.mp htext with ⟨tail, hwritten, htail⟩ | ⟨before, hbefore, -⟩
  · cases tail with
    | nil => exact ⟨[], by simpa using hwritten.symm⟩
    | cons c tail =>
      -- what is left of the first placeholder would begin like the second one
      exfalso
      simp only [written, List.cons_append, List.nil_append, List.cons.injEq] at htail
      obtain ⟨rfl, htail⟩ := htail
      cases tail with
      | nil =>
        have hlast := congrArg List.getLast? hwritten
        rw [written, List.getLast?_concat, List.getLast?_concat] at hlast
        cases hlast
      | cons d tail =>
        obtain ⟨rfl, -⟩ := List.cons.inj htail
        rcases a with _ | ⟨x, _ | ⟨y, a⟩⟩
        · exact ha rfl
        · simp [written] at hwritten
        · have hname : ['e', 'n', 'v', ':'] ++ first ++ ['\x7d'] = a ++ '$' :: '\x7b' :: tail := by
            simp only [written, List.cons_append, List.cons.injEq] at hwritten
            exact hwritten.2.2
          apply brace_not_mem_name hfirst
          rw [hname]
          simp
  · exact ⟨before, hbefore⟩

theorem placeholder?_append {a first before : List Char} (h : placeholder? a = some (first, before))
    (b : List Char) : placeholder? (a ++ b) = some (first, before ++ b) := by
  obtain ⟨rfl, hfirst⟩ := placeholder?_eq_some_iff.mp h
  rw [List.append_assoc]
  exact placeholder?_written hfirst (before ++ b)

theorem ofText_of_placeholder? {text name after : List Char}
    (h : placeholder? text = some (name, after)) :
    ofText text = .variable (String.ofList name) :: ofText after := by
  cases text with
  | nil => cases h
  | cons c text =>
    rw [ofText]
    split <;> simp_all

theorem ofText_of_none {c : Char} {text : List Char} (h : placeholder? (c :: text) = none) :
    ofText (c :: text) = .literal c :: ofText text := by
  rw [ofText]
  split <;> simp_all

theorem ofText_append_written {name : List Char} (hname : ∀ c ∈ name, isNameChar c = true)
    (a b : List Char) :
    ofText (a ++ (written name ++ b)) = ofText a ++ .variable (String.ofList name) :: ofText b := by
  induction a using ofText.induct with
  | case1 =>
    rw [List.nil_append, ofText_of_placeholder? (placeholder?_written hname b), ofText]
    rfl
  | case2 c rest first before h ih =>
    rw [ofText_of_placeholder? (placeholder?_append h _), ofText_of_placeholder? h, ih]
    rfl
  | case3 c rest h ih =>
    have hnone : placeholder? (c :: (rest ++ (written name ++ b))) = none := by
      rw [Option.eq_none_iff_forall_ne_some]
      rintro ⟨first, after⟩ hsome
      obtain ⟨before, htext⟩ := exists_of_placeholder?_append (List.cons_ne_nil c rest) hsome
      have hfirst := (placeholder?_eq_some_iff.mp hsome).2
      rw [htext, placeholder?_written hfirst] at h
      cases h
    rw [List.cons_append, ofText_of_none hnone, ofText_of_none h, ih]
    rfl

theorem ofText_of_not_written {text : List Char}
    (h : ∀ a name b, (∀ c ∈ name, isNameChar c = true) → text ≠ a ++ (written name ++ b)) :
    ofText text = text.map .literal := by
  induction text with
  | nil => rw [ofText]; rfl
  | cons c text ih =>
    have hnone : placeholder? (c :: text) = none := by
      rw [Option.eq_none_iff_forall_ne_some]
      rintro ⟨name, b⟩ hsome
      obtain ⟨htext, hname⟩ := placeholder?_eq_some_iff.mp hsome
      exact h [] name b hname htext
    have hrest := ih fun a name b hname htext => h (c :: a) name b hname (by rw [htext]; rfl)
    rw [ofText_of_none hnone, hrest, List.map_cons]

end Piece

namespace Environment

def Bare (name : String) : Prop := '\x7b' ∉ name.toList ∧ '\x7d' ∉ name.toList

instance (name : String) : Decidable (Bare name) := inferInstanceAs (Decidable (_ ∧ _))

def placeholder (name : String) : String := "$\x7benv:" ++ name ++ "\x7d"

theorem Bare.isNameChar {name : String} (h : Bare name) :
    ∀ c ∈ name.toList, Piece.isNameChar c = true := by
  intro c hc
  have hopen : c ≠ '\x7b' := fun he => h.1 (he ▸ hc)
  have hclose : c ≠ '\x7d' := fun he => h.2 (he ▸ hc)
  simp [Piece.isNameChar, hopen, hclose]

theorem toList_around (a name b : String) :
    (a ++ placeholder name ++ b).toList = a.toList ++ (Piece.written name.toList ++ b.toList) := by
  simp [placeholder, Piece.written]

theorem isPrefixOf?_marked {a b : List Char} (ha : '=' ∉ a) (hb : '=' ∉ b) (value : List Char) :
    (a ++ ['=']).isPrefixOf? (b ++ '=' :: value) = if a = b then some value else none := by
  induction a generalizing b with
  | nil =>
    cases b with
    | nil => rfl
    | cons d b =>
      have hd : ('=' == d) = false := by
        simp only [List.mem_cons, not_or] at hb
        simpa using hb.1
      simp [List.isPrefixOf?, hd]
  | cons c a ih =>
    simp only [List.mem_cons, not_or] at ha
    cases b with
    | nil =>
      have hc : (c == '=') = false := by simpa using Ne.symm ha.1
      simp [List.isPrefixOf?, hc]
    | cons d b =>
      simp only [List.mem_cons, not_or] at hb
      simp only [List.cons_append, List.isPrefixOf?, beq_iff_eq, List.cons.injEq]
      by_cases hcd : c = d
      · simp [hcd, ih ha.2 hb.2]
      · simp [hcd]

theorem value?_eq_lookup {env : Environment} (henv : ∀ key ∈ env.names, '=' ∉ key.toList)
    {name : String} (hne : name ≠ "") (hname : '=' ∉ name.toList) :
    env.value? name = env.lookup name := by
  rw [value?, if_neg hne]
  induction env with
  | nil => rfl
  | cons m env ih =>
    obtain ⟨key, value⟩ := m
    rw [Members.names_cons, List.forall_mem_cons] at henv
    have hprefix := isPrefixOf?_marked hname henv.1 value.toList
    rw [List.findSome?_cons, Members.lookup_cons_ite, ih henv.2]
    simp only [setting, String.toList_empty, hprefix, String.toList_inj]
    by_cases hk : name = key <;> simp [hk, String.ofList_toList]

end Environment

/-- A text without placeholders stays as it is. Around a placeholder both sides are expanded on
their own, whatever they begin or end with, and the value between them is copied as it stands. The
value is that of the variable; one that is not set, or whose value cannot be read, has none, and
neither has an empty name. -/
theorem expand_placeholder (env : Environment) :
    (∀ text, (∀ a name b, Environment.Bare name → text ≠ a ++ Environment.placeholder name ++ b) →
      env.expand text = text) ∧
    (∀ a name b, Environment.Bare name →
      env.expand (a ++ Environment.placeholder name ++ b) =
        env.expand a ++ (env.value? name).getD "" ++ env.expand b) ∧
    ∀ (settings : Members (Option String)) (name : String), settings.names.Nodup →
      (∀ key ∈ settings.names, '=' ∉ key.toList) → '=' ∉ name.toList →
      Environment.value? (Members.written settings) name =
        if name = "" then none else (settings.lookup name).join := by
  refine ⟨?_, ?_, ?_⟩
  · intro text h
    have hpieces : Piece.ofText text.toList = text.toList.map .literal := by
      apply Piece.ofText_of_not_written
      intro a name b hname htext
      have hbare : Environment.Bare (String.ofList name) := by
        constructor <;>
        · rw [String.toList_ofList]
          intro hmem
          exact absurd (hname _ hmem) (by decide)
      apply h (String.ofList a) (String.ofList name) (String.ofList b) hbare
      rw [← String.toList_inj, Environment.toList_around]
      simpa only [String.toList_ofList] using htext
    rw [Environment.expand, hpieces, List.flatMap_map]
    simp [Piece.expand, String.ofList_toList]
  · intro a name b hname
    rw [Environment.expand, Environment.toList_around, Piece.ofText_append_written hname.isNameChar,
      List.flatMap_append, List.flatMap_cons, String.ofList_append, String.ofList_append,
      ← String.append_assoc]
    simp [Piece.expand, Environment.expand, String.ofList_toList]
  · intro settings name hnodup hkeys hname
    have hset : ∀ key ∈ (Members.written settings).names, '=' ∉ key.toList :=
      fun key hkey => hkeys key ((Members.names_written_sublist settings).subset hkey)
    by_cases hne : name = ""
    · rw [if_pos hne, Environment.value?, if_pos hne]
    · rw [if_neg hne, Environment.value?_eq_lookup hset hne hname, Members.lookup_written hnodup]

theorem expand_placeholder_nested :
    let env : Environment := [("HOST", "$\x7benv:HOST\x7d")]
    Environment.Bare "HOST" ∧
      env.expand ("$$\x7benv:" ++ Environment.placeholder "HOST" ++ "\x7d/q") =
        "$$\x7benv:$\x7benv:HOST\x7d\x7d/q" := by
  intro env
  obtain ⟨hsame, hsplit, hvalue⟩ := expand_placeholder env
  have hname : Environment.Bare "HOST" := by decide
  have hset : env.value? "HOST" = some "$\x7benv:HOST\x7d" :=
    hvalue [("HOST", some "$\x7benv:HOST\x7d")] "HOST" (by decide) (by decide) (by decide)
  have hbefore : env.expand "$$\x7benv:" = "$$\x7benv:" := by
    apply hsame
    intro a name b _ htext
    have hmem : '\x7d' ∈ ("$$\x7benv:" : String).toList := by
      rw [htext, Environment.toList_around]
      simp [Piece.written]
    exact absurd hmem (by decide)
  have hafter : env.expand "\x7d/q" = "\x7d/q" := by
    apply hsame
    intro a name b _ htext
    have hmem : '$' ∈ ("\x7d/q" : String).toList := by
      rw [htext, Environment.toList_around]
      simp [Piece.written]
    exact absurd hmem (by decide)
  refine ⟨hname, ?_⟩
  rw [hsplit _ _ _ hname, hbefore, hafter, hset]
  rfl

end FormCompiler
