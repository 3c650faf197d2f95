import FormCompiler.Cache.Activity
import Mathlib.Data.List.Forall2
import Mathlib.Logic.Relation

namespace FormCompiler.Activity

variable {σ τ ρ : Type} (A : Activity σ τ ρ)

inductive Turn : σ × List (τ ⊕ ρ) → σ × List (τ ⊕ ρ) → Prop where
  | poll (live : Nat) (s : σ) (before after : List (τ ⊕ ρ)) (t : τ) :
      Turn (s, before ++ .inl t :: after)
        ((A.poll live s t).1, before ++ (A.poll live s t).2 :: after)

def Turns : σ × List (τ ⊕ ρ) → σ × List (τ ⊕ ρ) → Prop := Relation.ReflTransGen A.Turn

theorem eq_map_of_results? {entries : List (τ ⊕ ρ)} {results : List ρ}
    (h : results? entries = some results) : entries = results.map .inr := by
  induction entries generalizing results with
  | nil => cases h; rfl
  | cons e rest ih =>
    cases e with
    | inl t => cases h
    | inr result =>
      obtain ⟨results', hr, rfl⟩ := Option.map_eq_some_iff.mp h
      rw [ih hr, List.map_cons]

theorem turns_round (live : Nat) (entries before : List (τ ⊕ ρ)) (s : σ) :
    A.Turns (s, before ++ entries)
      ((A.round live s entries).1, before ++ (A.round live s entries).2) := by
  induction entries generalizing before s with
  | nil => exact .refl
  | cons e rest ih =>
    cases e with
    | inr result =>
      have hrest := ih (before ++ [.inr result]) s
      rw [List.append_assoc, List.append_assoc] at hrest
      exact hrest
    | inl t =>
      have hturn : A.Turn (s, before ++ .inl t :: rest) _ := .poll live s before rest t
      have hrest := ih (before ++ [(A.poll live s t).2]) (A.poll live s t).1
      rw [List.append_assoc, List.append_assoc] at hrest
      exact .head hturn hrest

theorem turns_finish (s : σ) (entries : List (τ ⊕ ρ)) :
    A.Turns (s, entries) ((A.finish s entries).1, (A.finish s entries).2.map .inr) := by
  fun_induction A.finish s entries with
  | case1 s entries results h =>
    rw [eq_map_of_results? h]
    exact .refl
  | case2 s entries h turn hlt ih => exact .trans (A.turns_round (live entries) entries [] s) ih

variable {A}

theorem Turns.length {x y : σ × List (τ ⊕ ρ)} (h : A.Turns x y) : y.2.length = x.2.length := by
  induction h with
  | refl => rfl
  | tail _ hturn ih =>
    rw [← ih]
    cases hturn
    simp

theorem forall₂_append_cons {α β : Type} {R : α → β → Prop} {before after : List α} {a : α}
    {l : List β} (h : List.Forall₂ R (before ++ a :: after) l) :
    ∃ before' b after', l = before' ++ b :: after' ∧ List.Forall₂ R before before' ∧ R a b ∧
      List.Forall₂ R after after' := by
  induction before generalizing l with
  | nil =>
    cases h with
    | cons ha hafter => exact ⟨[], _, _, rfl, .nil, ha, hafter⟩
  | cons c before ih =>
    cases h with
    | @cons _ d _ _ hc h =>
      obtain ⟨before', b, after', rfl, hbefore, ha, hafter⟩ := ih h
      exact ⟨d :: before', b, after', rfl, .cons hc hbefore, ha, hafter⟩

def Heading (E : σ → τ → ρ → Prop) (s : σ) : τ ⊕ ρ → ρ → Prop
  | .inl t, result => E s t result
  | .inr result', result => result' = result

variable (A) in
structure Leads (I : σ → Prop) (E : σ → τ → ρ → Prop) : Prop where
  state : ∀ live s t result, I s → E s t result → I (A.poll live s t).1
  self : ∀ live s t result, I s → E s t result →
    Heading E (A.poll live s t).1 (A.poll live s t).2 result
  others : ∀ live s t t' result', I s → E s t' result' → E (A.poll live s t).1 t' result'

namespace Leads

variable {I : σ → Prop} {E : σ → τ → ρ → Prop}

theorem turn (h : A.Leads I E) {x y : σ × List (τ ⊕ ρ)} (hturn : A.Turn x y) {expected : List ρ}
    (hs : I x.1) (hx : List.Forall₂ (Heading E x.1) x.2 expected) :
    I y.1 ∧ List.Forall₂ (Heading E y.1) y.2 expected := by
  cases hturn with
  | poll live s before after t =>
    obtain ⟨before', result, after', rfl, hbefore, ht, hafter⟩ := forall₂_append_cons hx
    have hothers : ∀ e result', Heading E s e result' →
        Heading E (A.poll live s t).1 e result' := by
      intro e result' he
      cases e with
      | inl t' => exact h.others live s t t' result' hs he
      | inr _ => exact he
    refine ⟨h.state live s t result hs ht, List.rel_append (hbefore.imp hothers) ?_⟩
    exact .cons (h.self live s t result hs ht) (hafter.imp hothers)

theorem turns (h : A.Leads I E) {x y : σ × List (τ ⊕ ρ)} (hturns : A.Turns x y)
    {expected : List ρ} (hs : I x.1) (hx : List.Forall₂ (Heading E x.1) x.2 expected) :
    I y.1 ∧ List.Forall₂ (Heading E y.1) y.2 expected := by
  induction hturns with
  | refl => exact ⟨hs, hx⟩
  | tail _ hturn ih => exact h.turn hturn ih.1 ih.2

theorem results (h : A.Leads I E) {s s' : σ} {entries : List (τ ⊕ ρ)} {results expected : List ρ}
    (hturns : A.Turns (s, entries) (s', results.map .inr)) (hs : I s)
    (hx : List.Forall₂ (Heading E s) entries expected) : I s' ∧ results = expected := by
  obtain ⟨hs', hresults⟩ := h.turns hturns hs hx
  refine ⟨hs', ?_⟩
  rw [List.forall₂_map_left_iff] at hresults
  exact List.forall₂_eq_eq_eq ▸ hresults

end Leads

variable (A)

theorem finish_of_results {entries : List (τ ⊕ ρ)} {results : List ρ}
    (h : results? entries = some results) (s : σ) : A.finish s entries = (s, results) := by
  rw [finish]
  split <;> simp_all

theorem finish_of_pending {entries : List (τ ⊕ ρ)} (h : results? entries = none) (s : σ) :
    A.finish s entries =
      A.finish (A.round (live entries) s entries).1 (A.round (live entries) s entries).2 := by
  rw [finish]
  split <;> simp_all

variable {A}

def Alike (A : Activity σ τ ρ) (R : σ → σ → Prop) : Prop :=
  ∀ live s s' t, R s s' →
    R (A.poll live s t).1 (A.poll live s' t).1 ∧ (A.poll live s t).2 = (A.poll live s' t).2

namespace Alike

variable {R : σ → σ → Prop}

theorem round (h : A.Alike R) (live : Nat) (entries : List (τ ⊕ ρ)) {s s' : σ} (hs : R s s') :
    R (A.round live s entries).1 (A.round live s' entries).1 ∧
      (A.round live s entries).2 = (A.round live s' entries).2 := by
  induction entries generalizing s s' with
  | nil => exact ⟨hs, rfl⟩
  | cons e rest ih =>
    cases e with
    | inr result =>
      obtain ⟨hrest, he⟩ := ih hs
      exact ⟨hrest, by simp only [Activity.round, he]⟩
    | inl t =>
      obtain ⟨ht, he⟩ := h live s s' t hs
      obtain ⟨hrest, he'⟩ := ih ht
      exact ⟨hrest, by simp only [Activity.round, he, he']⟩

theorem finish (h : A.Alike R) (s : σ) (entries : List (τ ⊕ ρ)) :
    ∀ s', R s s' → R (A.finish s entries).1 (A.finish s' entries).1 ∧
      (A.finish s entries).2 = (A.finish s' entries).2 := by
  fun_induction A.finish s entries with
  | case1 s entries results hresults =>
    intro s' hs
    rw [A.finish_of_results hresults]
    exact ⟨hs, rfl⟩
  | case2 s entries hpending turn hlt ih =>
    intro s' hs
    obtain ⟨hround, he⟩ := h.round (live entries) entries hs
    rw [A.finish_of_pending hpending s', ← he]
    exact ih _ hround

end Alike

end FormCompiler.Activity
