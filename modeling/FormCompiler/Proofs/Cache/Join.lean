import FormCompiler.Cache.Activity

namespace FormCompiler.Activity

variable {σ τ ρ : Type} (A : Activity σ τ ρ)

theorem length_round (live : Nat) (s : σ) (entries : List (τ ⊕ ρ)) :
    (A.round live s entries).2.length = entries.length := by
  induction entries generalizing s with
  | nil => rfl
  | cons e rest ih => cases e <;> simp [round, ih]

theorem length_results? {entries : List (τ ⊕ ρ)} {results : List ρ}
    (h : results? entries = some results) : results.length = entries.length := by
  induction entries generalizing results with
  | nil => cases h; rfl
  | cons e rest ih =>
    cases e with
    | inl t => cases h
    | inr result =>
      obtain ⟨results', hr, rfl⟩ := Option.map_eq_some_iff.mp h
      simp [ih hr]

theorem length_finish (s : σ) (entries : List (τ ⊕ ρ)) :
    (A.finish s entries).2.length = entries.length := by
  fun_induction A.finish s entries with
  | case1 s entries results h => exact length_results? h
  | case2 s entries h turn hlt ih => rw [ih, length_round]

end FormCompiler.Activity
