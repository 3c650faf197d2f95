import FormCompiler.Proofs.Cache.Join
import FormCompiler.Proofs.Cache.Schedule
import Mathlib.Data.List.Perm.Basic

namespace FormCompiler

structure PollRecord (σ τ : Type) where
  position : Nat
  live : Nat
  state : σ
  activity : τ

def PollRecord.ofPosition {σ τ : Type} (log : List (PollRecord σ τ)) (position : Nat) :
    List (PollRecord σ τ) :=
  log.filter (·.position = position)

def PollRecord.Orderly {σ τ : Type} (P : σ → Prop) : Nat → List (PollRecord σ τ) → Prop
  | _, [] => True
  | n, p :: log =>
    (p.position < n ∨ p.position = n ∧ P p.state) ∧ Orderly P (max n (p.position + 1)) log

namespace Activity

variable {σ τ ρ : Type} (A : Activity σ τ ρ)

/-- Pending activities are polled in any order, with a record of every poll. What others do to the
shared state in the meantime is `between`. -/
inductive Runs (between : σ → σ → Prop) :
    σ × List (τ ⊕ ρ) → List (PollRecord σ τ) → σ × List (τ ⊕ ρ) → Prop where
  | refl (x : σ × List (τ ⊕ ρ)) : Runs between x [] x
  | poll {s s' : σ} {entries : List (τ ⊕ ρ)} {position live : Nat} {t : τ}
      {log : List (PollRecord σ τ)} {y : σ × List (τ ⊕ ρ)} :
      entries[position]? = some (.inl t) → between s s' →
      Runs between ((A.poll live s' t).1, entries.set position (A.poll live s' t).2) log y →
      Runs between (s, entries) (⟨position, live, s', t⟩ :: log) y

variable {A} {between : σ → σ → Prop} {x y z : σ × List (τ ⊕ ρ)} {log log' : List (PollRecord σ τ)}

namespace Runs

theorem trans (h : A.Runs between x log y) (h' : A.Runs between y log' z) :
    A.Runs between x (log ++ log') z := by
  induction h with
  | refl => exact h'
  | poll hentry hbetween _ ih => exact .poll hentry hbetween (ih h')

theorem split (h : A.Runs between x (log ++ log') z) :
    ∃ y, A.Runs between x log y ∧ A.Runs between y log' z := by
  induction log generalizing x with
  | nil => exact ⟨x, .refl x, h⟩
  | cons p log ih =>
    cases h with
    | poll hentry hbetween hrest =>
      obtain ⟨y, hy, hz⟩ := ih hrest
      exact ⟨y, .poll hentry hbetween hy, hz⟩

theorem turn {s : σ} {entries : List (τ ⊕ ρ)} {position : Nat} {t : τ}
    (hentry : entries[position]? = some (.inl t)) (live : Nat) :
    A.Turn (s, entries) ((A.poll live s t).1, entries.set position (A.poll live s t).2) := by
  obtain ⟨hlt, hget⟩ := List.getElem?_eq_some_iff.mp hentry
  have hsplit : entries = entries.take position ++ .inl t :: entries.drop (position + 1) := by
    rw [← hget, ← List.drop_eq_getElem_cons hlt, List.take_append_drop]
  have hturn := Turn.poll (A := A) live s (entries.take position) (entries.drop (position + 1)) t
  rw [← hsplit] at hturn
  rw [List.set_eq_take_append_cons_drop, if_pos hlt]
  exact hturn

theorem map {f : σ → σ} (h : A.Runs between x log y)
    (hlog : ∀ p ∈ log, A.poll p.live (f p.state) p.activity =
      (f (A.poll p.live p.state p.activity).1, (A.poll p.live p.state p.activity).2)) :
    A.Runs (Relation.Map between f f) (f x.1, x.2)
      (log.map fun p => { p with state := f p.state }) (f y.1, y.2) := by
  induction h with
  | refl x => exact .refl _
  | @poll s s' entries position live t log y hentry hbetween _ ih =>
    rw [List.forall_mem_cons] at hlog
    have hrest := ih hlog.2
    refine .poll hentry ⟨s, s', hbetween, rfl, rfl⟩ ?_
    rw [hlog.1]
    exact hrest

theorem state_of_kept {P : σ → Prop} (hkept : ∀ live s t, P s → P (A.poll live s t).1)
    (h : A.Runs Eq x log y) (hx : P x.1) : ∀ p ∈ log, P p.state := by
  induction h with
  | refl => simp
  | @poll s s' entries position live t log y _ hbetween _ ih =>
    subst hbetween
    rw [List.forall_mem_cons]
    exact ⟨hx, ih (hkept live s t hx)⟩

theorem length (h : A.Runs between x log y) : y.2.length = x.2.length := by
  induction h with
  | refl => rfl
  | poll _ _ _ ih => rw [ih, List.length_set]

theorem ends {P : ρ → Prop}
    (hpoll : ∀ live s t result, (A.poll live s t).2 = .inr result → P result)
    (h : A.Runs between x log y) (hx : ∀ result, .inr result ∈ x.2 → P result) :
    ∀ result, .inr result ∈ y.2 → P result := by
  induction h with
  | refl => exact hx
  | @poll s s' entries position live t log y _ _ _ ih =>
    apply ih
    intro result hmem
    rcases List.mem_or_eq_of_mem_set hmem with hmem | he
    · exact hx result hmem
    · exact hpoll live s' t result he.symm

theorem position_lt (h : A.Runs between x log y) : ∀ p ∈ log, p.position < x.2.length := by
  induction h with
  | refl => simp
  | @poll s s' entries position live t log y hentry _ _ ih =>
    rw [List.forall_mem_cons]
    constructor
    · exact (List.getElem?_eq_some_iff.mp hentry).1
    · intro p hp
      simpa using ih p hp

theorem ofPosition (Q : τ ⊕ ρ → List (PollRecord σ τ) → τ ⊕ ρ → Prop) (hrefl : ∀ e, Q e [] e)
    (hpoll : ∀ p log e', Q (A.poll p.live p.state p.activity).2 log e' →
      Q (.inl p.activity) (p :: log) e')
    (h : A.Runs between x log y) {position : Nat} {e : τ ⊕ ρ} (he : x.2[position]? = some e) :
    ∃ e', y.2[position]? = some e' ∧ Q e (PollRecord.ofPosition log position) e' := by
  induction h generalizing e with
  | refl => exact ⟨e, he, hrefl e⟩
  | @poll s s' entries i live t log y hentry _ _ ih =>
    by_cases hi : i = position
    · subst hi
      rw [hentry] at he
      cases he
      have hset : (entries.set i (A.poll live s' t).2)[i]? = some (A.poll live s' t).2 :=
        List.getElem?_set_self (List.getElem?_eq_some_iff.mp hentry).1
      obtain ⟨e', he', hq⟩ := ih hset
      refine ⟨e', he', ?_⟩
      rw [PollRecord.ofPosition, List.filter_cons_of_pos (by simp)]
      exact hpoll ⟨i, live, s', t⟩ _ e' hq
    · have hset : (entries.set i (A.poll live s' t).2)[position]? = some e := by
        rw [List.getElem?_set_ne hi]
        exact he
      obtain ⟨e', he', hq⟩ := ih hset
      refine ⟨e', he', ?_⟩
      rw [PollRecord.ofPosition, List.filter_cons_of_neg (by simpa using hi)]
      exact hq

end Runs

end Activity

namespace PollRecord

variable {σ τ α β : Type}

theorem flatMap_single (l : List β) {k n : Nat} (h : k < n) :
    ((List.range n).flatMap fun i => if k = i then l else []) = l := by
  induction n with
  | zero => cases h
  | succ n ih =>
    rw [List.range_succ, List.flatMap_append, List.flatMap_singleton]
    by_cases hk : k = n
    · subst hk
      have hbefore : ((List.range k).flatMap fun i => if k = i then l else []) = [] := by
        rw [List.flatMap_eq_nil_iff]
        intro i hi
        rw [if_neg (Nat.ne_of_gt (List.mem_range.mp hi))]
      rw [hbefore, if_pos rfl, List.nil_append]
    · rw [ih (by omega), if_neg hk, List.append_nil]

theorem perm_flatMap_range (f : PollRecord σ τ → List β) {n : Nat} {log : List (PollRecord σ τ)}
    (h : ∀ p ∈ log, p.position < n) :
    (log.flatMap f).Perm ((List.range n).flatMap fun i => (ofPosition log i).flatMap f) := by
  induction log with
  | nil => simp [ofPosition]
  | cons p log ih =>
    rw [List.forall_mem_cons] at h
    have hsplit : ∀ i, (ofPosition (p :: log) i).flatMap f =
        (if p.position = i then f p else []) ++ (ofPosition log i).flatMap f := by
      intro i
      by_cases hi : p.position = i <;> simp [ofPosition, hi]
    simp only [hsplit, List.flatMap_cons]
    refine List.Perm.trans ?_ (List.flatMap_append_perm _ _ _)
    rw [flatMap_single _ h.1]
    exact (ih h.2).append_left _

variable {P : σ → Prop} {n : Nat} {log log' : List (PollRecord σ τ)}

theorem orderly_of_lt (h : ∀ p ∈ log, p.position < n) : Orderly P n log := by
  induction log with
  | nil => trivial
  | cons p log ih =>
    rw [List.forall_mem_cons] at h
    refine ⟨.inl h.1, ?_⟩
    rw [Nat.max_eq_left h.1]
    exact ih h.2

theorem orderly_append {count : Nat}
    (h : log.map (·.position) = List.range' n count) (hP : ∀ p ∈ log, P p.state)
    (h' : ∀ p ∈ log', p.position < n + count) : Orderly P n (log ++ log') := by
  induction count generalizing n log with
  | zero =>
    rw [List.range'_zero, List.map_eq_nil_iff] at h
    rw [h, List.nil_append]
    exact orderly_of_lt h'
  | succ count ih =>
    rw [List.range'_succ, List.map_eq_cons_iff] at h
    obtain ⟨p, rest, rfl, rfl, hrest⟩ := h
    rw [List.forall_mem_cons] at hP
    refine ⟨.inr ⟨rfl, hP.1⟩, ?_⟩
    rw [Nat.max_eq_right (Nat.le_succ _)]
    apply ih hrest hP.2
    intro p' hp'
    have := h' p' hp'
    omega

end PollRecord

namespace Activity

variable {σ τ ρ : Type} (A : Activity σ τ ρ)

theorem runs_round (live : Nat) (entries before : List (τ ⊕ ρ)) (s : σ) :
    ∃ log, A.Runs Eq (s, before ++ entries) log
        ((A.round live s entries).1, before ++ (A.round live s entries).2) ∧
      ((∀ e ∈ entries, e.isLeft = true) →
        log.map (·.position) = List.range' before.length entries.length) := by
  induction entries generalizing before s with
  | nil => exact ⟨[], .refl _, fun _ => rfl⟩
  | cons e rest ih =>
    cases e with
    | inr result =>
      obtain ⟨log, hlog, -⟩ := ih (before ++ [.inr result]) s
      rw [List.append_assoc, List.append_assoc] at hlog
      refine ⟨log, hlog, ?_⟩
      intro hleft
      have hresult := hleft _ List.mem_cons_self
      cases hresult
    | inl t =>
      obtain ⟨log, hlog, hpositions⟩ := ih (before ++ [(A.poll live s t).2]) (A.poll live s t).1
      rw [List.append_assoc, List.append_assoc] at hlog
      have hentry : (before ++ .inl t :: rest)[before.length]? = some (.inl t) := by simp
      have hset : (before ++ .inl t :: rest).set before.length (A.poll live s t).2 =
          before ++ (A.poll live s t).2 :: rest := by simp
      refine ⟨⟨before.length, live, s, t⟩ :: log, .poll hentry rfl (hset ▸ hlog), ?_⟩
      intro hleft
      have hrest := hpositions fun e he => hleft e (List.mem_cons_of_mem _ he)
      rw [List.length_append, List.length_singleton] at hrest
      rw [List.map_cons, hrest, List.length_cons, List.range'_succ]

theorem runs_finish (s : σ) (entries : List (τ ⊕ ρ)) :
    ∃ log, A.Runs Eq (s, entries) log
      ((A.finish s entries).1, (A.finish s entries).2.map .inr) := by
  fun_induction A.finish s entries with
  | case1 s entries results h =>
    rw [eq_map_of_results? h]
    exact ⟨[], .refl _⟩
  | case2 s entries h turn hlt ih =>
    obtain ⟨first, hfirst, -⟩ := A.runs_round (live entries) entries [] s
    obtain ⟨log, hlog⟩ := ih
    exact ⟨first ++ log, hfirst.trans hlog⟩

theorem orderly_finish (s : σ) (entries : List (τ ⊕ ρ)) (h : ∀ e ∈ entries, e.isLeft = true) :
    ∃ log, A.Runs Eq (s, entries) log
        ((A.finish s entries).1, (A.finish s entries).2.map .inr) ∧
      ∀ P : σ → Prop, (∀ live s t, P s → P (A.poll live s t).1) → P s →
        PollRecord.Orderly P 0 log := by
  cases hr : results? entries with
  | some results =>
    rw [A.finish_of_results hr, eq_map_of_results? hr]
    exact ⟨[], .refl _, fun _ _ _ => trivial⟩
  | none =>
    obtain ⟨first, hfirst, hpositions⟩ := A.runs_round (live entries) entries [] s
    obtain ⟨log, hlog⟩ := A.runs_finish (A.round (live entries) s entries).1
      (A.round (live entries) s entries).2
    rw [A.finish_of_pending hr]
    refine ⟨first ++ log, hfirst.trans hlog, ?_⟩
    intro P hkept hs
    refine PollRecord.orderly_append (hpositions h) (hfirst.state_of_kept hkept hs) ?_
    intro p hp
    rw [Nat.zero_add, ← A.length_round (live entries) s entries]
    exact hlog.position_lt p hp

end Activity

end FormCompiler
