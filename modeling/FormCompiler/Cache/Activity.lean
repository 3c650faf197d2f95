/-!
Activities that wait side by side and share a state. They are polled in rounds, each pending one
once in every round and in their order, until all of them have ended; `join` gives their results in
the same order. It ends because every poll that leaves an activity pending uses something up.
-/
namespace FormCompiler

/-- Activities of one kind: `poll` takes the size of the round, the shared state and an activity,
and gives the new state and the activity as it goes on, or its result. -/
structure Activity (σ τ ρ : Type) where
  poll : Nat → σ → τ → σ × (τ ⊕ ρ)
  stage : τ → Nat
  polls : τ → Nat
  backlog : σ → Nat
  owed : σ → Nat
  progress : ∀ live s t t', (poll live s t).2 = .inl t' →
    stage t' < stage t ∨ stage t' = stage t ∧
      (backlog (poll live s t).1 < backlog s ∨ backlog (poll live s t).1 = backlog s ∧
        owed (poll live s t).1 + polls t' < owed s + polls t)

namespace Activity

variable {σ τ ρ : Type} (A : Activity σ τ ρ)

def round (live : Nat) : σ → List (τ ⊕ ρ) → σ × List (τ ⊕ ρ)
  | s, [] => (s, [])
  | s, .inr result :: rest =>
    let later := round live s rest
    (later.1, .inr result :: later.2)
  | s, .inl t :: rest =>
    let turn := A.poll live s t
    let later := round live turn.1 rest
    (later.1, turn.2 :: later.2)

def results? : List (τ ⊕ ρ) → Option (List ρ)
  | [] => some []
  | .inr result :: rest => (results? rest).map (result :: ·)
  | .inl _ :: _ => none

def live (entries : List (τ ⊕ ρ)) : Nat := entries.countP Sum.isLeft

def stageOf : τ ⊕ ρ → Nat
  | .inl t => A.stage t + 1
  | .inr _ => 0

def pollsOf : τ ⊕ ρ → Nat
  | .inl t => A.polls t
  | .inr _ => 0

def rank (s : σ) (entries : List (τ ⊕ ρ)) : Nat × Nat × Nat :=
  (entries.foldr (A.stageOf · + ·) 0, A.backlog s,
    A.owed s + entries.foldr (A.pollsOf · + ·) 0)

def Below (x y : Nat × Nat × Nat) : Prop :=
  x.1 < y.1 ∨ x.1 = y.1 ∧ (x.2.1 < y.2.1 ∨ x.2.1 = y.2.1 ∧ x.2.2 < y.2.2)

theorem Below.trans {x y z : Nat × Nat × Nat} (h : Below x y) (h' : Below y z) : Below x z := by
  unfold Below at *
  omega

def shifted (extra : Nat × Nat) (x : Nat × Nat × Nat) : Nat × Nat × Nat :=
  (extra.1 + x.1, x.2.1, extra.2 + x.2.2)

theorem shifted_below {extra : Nat × Nat} {x y : Nat × Nat × Nat} (h : Below x y) :
    Below (shifted extra x) (shifted extra y) := by
  unfold Below shifted at *
  simp only
  omega

theorem rank_cons (s : σ) (e : τ ⊕ ρ) (rest : List (τ ⊕ ρ)) :
    A.rank s (e :: rest) = shifted (A.stageOf e, A.pollsOf e) (A.rank s rest) := by
  simp only [rank, shifted, List.foldr_cons]
  congr 2
  omega

theorem rank_poll (live : Nat) (s : σ) (t : τ) (rest : List (τ ⊕ ρ)) :
    Below (A.rank (A.poll live s t).1 ((A.poll live s t).2 :: rest))
      (A.rank s (.inl t :: rest)) := by
  have hp := A.progress live s t
  cases he : (A.poll live s t).2 with
  | inr result => simp [Below, rank, stageOf]
  | inl t' =>
    have := hp t' he
    simp only [Below, rank, List.foldr_cons, stageOf, pollsOf]
    omega

theorem rank_round (live : Nat) (entries : List (τ ⊕ ρ)) (s : σ) :
    A.round live s entries = (s, entries) ∨
      Below (A.rank (A.round live s entries).1 (A.round live s entries).2) (A.rank s entries) := by
  induction entries generalizing s with
  | nil => exact .inl rfl
  | cons e rest ih =>
    cases e with
    | inr result =>
      simp only [round]
      rcases ih s with h | h
      · left; rw [h]
      · right; simp only [rank_cons]; exact shifted_below h
    | inl t =>
      right
      simp only [round]
      have hp := A.rank_poll live s t rest
      rcases ih (A.poll live s t).1 with h | h
      · rw [h]; exact hp
      · refine Below.trans ?_ hp
        simp only [rank_cons]
        exact shifted_below h

theorem rank_round_lt (live : Nat) (s : σ) (entries : List (τ ⊕ ρ))
    (h : results? entries = none) :
    Below (A.rank (A.round live s entries).1 (A.round live s entries).2) (A.rank s entries) := by
  induction entries generalizing s with
  | nil => simp [results?] at h
  | cons e rest ih =>
    cases e with
    | inr result =>
      simp only [round, rank_cons]
      exact shifted_below (ih s (by simpa [results?] using h))
    | inl t =>
      simp only [round]
      have hp := A.rank_poll live s t rest
      rcases A.rank_round live rest (A.poll live s t).1 with h | h
      · rw [h]; exact hp
      · refine Below.trans ?_ hp
        simp only [rank_cons]
        exact shifted_below h

def finish (s : σ) (entries : List (τ ⊕ ρ)) : σ × List ρ :=
  match h : results? entries with
  | some results => (s, results)
  | none =>
    let turn := A.round (live entries) s entries
    have := A.rank_round_lt (live entries) s entries h
    finish turn.1 turn.2
termination_by A.rank s entries
decreasing_by
  simp only [Prod.lex_def]
  exact this

def join (s : σ) (activities : List τ) : σ × List ρ := A.finish s (activities.map .inl)

end Activity

end FormCompiler
