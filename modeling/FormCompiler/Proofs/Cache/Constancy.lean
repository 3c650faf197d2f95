import FormCompiler.Proofs.Cache.Coalescing
import Mathlib.Data.List.Forall2

namespace FormCompiler

variable {τ : Type}

namespace Strategy

def Alike (s s' : Strategy τ) : Prop := ∀ n n', (s.attempt n).outcome = (s'.attempt n').outcome

theorem Alike.left {s s' : Strategy τ} (h : s.Alike s') : s.Alike s :=
  fun n n' => (h n 0).trans (h n' 0).symm

theorem Alike.symm {s s' : Strategy τ} (h : s.Alike s') : s'.Alike s := fun n n' => (h n' n).symm

def table? (strategies : List (Strategy τ)) : Option τ :=
  strategies.findSome? fun s => (s.attempt 0).outcome.toOption

theorem table?_cons (s : Strategy τ) (rest : List (Strategy τ)) :
    table? (s :: rest) = (s.attempt 0).outcome.toOption.or (table? rest) := by
  rw [table?, List.findSome?_cons]
  cases (s.attempt 0).outcome.toOption <;> rfl

theorem table?_congr {strategies strategies' : List (Strategy τ)}
    (h : List.Forall₂ Alike strategies strategies') : table? strategies = table? strategies' := by
  induction h with
  | nil => rfl
  | cons hs _ ih => rw [table?_cons, table?_cons, hs 0 0, ih]

theorem alike_self {strategies strategies' : List (Strategy τ)}
    (h : List.Forall₂ Alike strategies strategies') : ∀ s ∈ strategies, s.Alike s := by
  intro s hs
  induction h with
  | nil => cases hs
  | cons hhead _ ih =>
    rcases List.mem_cons.mp hs with rfl | hs
    · exact hhead.left
    · exact ih hs

end Strategy

namespace Load

def Yields (target : Option τ) : Load τ → Prop
  | .running r => (∀ s ∈ r.untried.map Prod.snd, s.Alike s) ∧
      r.attempt.outcome.toOption.or (Strategy.table? (r.untried.map Prod.snd)) = target
  | .finished result => result.toOption.map Loaded.table = target

theorem yields_tryNext (ctx : LoadContext) (starts : Nat → Nat) (failures : List StrategyFailure)
    (untried : List (Nat × Strategy τ)) (h : ∀ s ∈ untried.map Prod.snd, s.Alike s) :
    (tryNext ctx starts failures untried).load.Yields
      (Strategy.table? (untried.map Prod.snd)) := by
  induction untried generalizing starts failures with
  | nil => rfl
  | cons entry rest ih =>
    obtain ⟨i, s⟩ := entry
    rw [List.map_cons, List.forall_mem_cons] at h
    rw [List.map_cons, Strategy.table?_cons, h.1 0 (starts i)]
    simp only [tryNext]
    split
    case h_1 => exact ⟨h.2, rfl⟩
    case h_2 =>
      split
      case h_1 table hok =>
        rw [hok]
        rfl
      case h_2 failure herror =>
        rw [herror]
        exact ih _ _ h.2

theorem yields_start (ctx : LoadContext) (starts : Nat → Nat) {strategies : List (Strategy τ)}
    (h : ∀ s ∈ strategies, s.Alike s) :
    (start ctx starts strategies).load.Yields (Strategy.table? strategies) := by
  have hzip : ((List.range strategies.length).zip strategies).map Prod.snd = strategies :=
    List.map_snd_zip (by simp)
  unfold start
  split
  case isTrue hempty =>
    rw [List.isEmpty_iff.mp hempty]
    rfl
  case isFalse =>
    have htry := yields_tryNext ctx starts [] ((List.range strategies.length).zip strategies)
    rw [hzip] at htry
    exact htry h

theorem yields_advance (ctx : LoadContext) (starts : Nat → Nat) {r : RunningLoad τ}
    {target : Option τ} (h : (Load.running r).Yields target) :
    (advance ctx starts r).load.Yields target := by
  obtain ⟨halike, htarget⟩ := h
  unfold advance
  split
  case h_1 => exact ⟨halike, htarget⟩
  case h_2 =>
    split
    case h_1 table hok =>
      rw [← htarget, hok]
      rfl
    case h_2 failure herror =>
      rw [← htarget, herror]
      exact yields_tryNext ctx _ _ _ halike

end Load

namespace Slot

structure Steady (strategies : List (Strategy τ)) (s : Slot τ) : Prop where
  strategies_eq : s.strategies = strategies
  loads : ∀ l ∈ s.loads, l.Yields (Strategy.table? strategies)
  loading : ∀ n, s.state = .loading n → n < s.loads.length
  ready : ∀ t, s.state = .ready t → some t.table = Strategy.table? strategies

def Issued (s : Slot τ) : Request → Prop
  | .fresh => True
  | .waiting load => load < s.loads.length

theorem Issued.mono {s s' : Slot τ} (h : s.loads.length ≤ s'.loads.length) {request : Request}
    (hr : s.Issued request) : s'.Issued request := by
  cases request with
  | fresh => trivial
  | waiting load => exact Nat.lt_of_lt_of_le hr h

def Answers (s : Slot τ) (target : Option τ) : Request ⊕ LoadResult τ → Prop
  | .inl request => s.Issued request
  | .inr result => result.toOption.map Loaded.table = target

theorem Answers.issued {s : Slot τ} {target : Option τ} {answer : Request ⊕ LoadResult τ}
    (h : s.Answers target answer) {request : Request} (hr : answer.getLeft? = some request) :
    s.Issued request := by
  rw [Sum.getLeft?_eq_some_iff.mp hr] at h
  exact h

theorem length_loads_le_poll (s : Slot τ) (live : Nat) (request : Request) :
    s.loads.length ≤ (s.poll live request).slot.loads.length := by
  rcases s.length_loads_poll live request with ⟨-, h⟩ | ⟨-, h⟩ <;> omega

namespace Steady

variable {strategies : List (Strategy τ)} {s : Slot τ}

theorem init (table : TableId) (strategies : List (Strategy τ)) :
    Steady strategies { table, strategies } where
  strategies_eq := rfl
  loads l hl := by cases hl
  loading n hn := by cases hn
  ready t ht := by cases ht

theorem reset (h : s.Steady strategies) : s.reset.Steady strategies where
  strategies_eq := h.strategies_eq
  loads := h.loads
  loading n hn := by cases hn
  ready t ht := by cases ht

theorem lt_of_awaited (h : s.Steady strategies) {request : Request} (hr : s.Issued request)
    {load : Nat} (hload : s.awaited? request = some load) : load < s.loads.length := by
  cases request with
  | waiting load' =>
    cases hload
    exact hr
  | fresh =>
    dsimp only [awaited?] at hload
    split at hload
    case h_1 hs =>
      cases hload
      exact h.loading _ hs
    case h_2 => cases hload

theorem absorb (h : s.Steady strategies) {load : Nat} (hload : load < s.loads.length)
    {turn : LoadTurn τ} (hturn : turn.load.Yields (Strategy.table? strategies)) :
    (s.absorb load turn).slot.Steady strategies := by
  have hloads : ∀ l ∈ s.loads.set load turn.load, l.Yields (Strategy.table? strategies) := by
    intro l hl
    rcases List.mem_or_eq_of_mem_set hl with hl | rfl
    · exact h.loads l hl
    · exact hturn
  by_cases hcurrent : s.state = .loading load
  · rw [absorb_current hcurrent]
    refine ⟨h.strategies_eq, hloads, ?_, ?_⟩
    · intro n hn
      obtain ⟨rfl, -⟩ := (SlotState.following_eq_loading_iff load n turn.load).mp hn
      rw [List.length_set]
      exact hload
    · intro t ht
      rw [(SlotState.following_eq_ready_iff load turn.load t).mp ht] at hturn
      exact hturn
  · rw [absorb_other hcurrent]
    refine ⟨h.strategies_eq, hloads, ?_, h.ready⟩
    intro n hn
    rw [List.length_set]
    exact h.loading n hn

theorem settle (h : s.Steady strategies) {load : Nat} {result : LoadResult τ}
    (hresult : (Load.finished result).Yields (Strategy.table? strategies)) :
    (s.settle load result).Steady strategies := by
  by_cases hcurrent : s.state = .loading load
  · rw [settle_current hcurrent]
    refine ⟨h.strategies_eq, h.loads, ?_, ?_⟩
    · intro n hn
      obtain ⟨-, _, hrunning⟩ := (SlotState.following_eq_loading_iff load n _).mp hn
      cases hrunning
    · intro t ht
      rw [(SlotState.following_eq_ready_iff load _ t).mp ht] at hresult
      exact hresult
  · rw [settle_other hcurrent]
    exact h

theorem answers_absorb {load : Nat} (hload : load < s.loads.length) {turn : LoadTurn τ}
    {target : Option τ} (hturn : turn.load.Yields target) :
    (s.absorb load turn).slot.Answers target (s.absorb load turn).answer := by
  unfold Slot.absorb
  cases hl : turn.load with
  | running r =>
    rw [← List.length_set] at hload
    exact hload
  | finished result =>
    rw [hl] at hturn
    exact hturn

theorem begun (h : s.Steady strategies) {l : Load τ}
    (hl : l.Yields (Strategy.table? strategies)) :
    Steady strategies { s with state := .loading s.loads.length, loads := s.loads ++ [l] } where
  strategies_eq := h.strategies_eq
  loads := by
    intro l' hl'
    rcases List.mem_append.mp hl' with hl' | hl'
    · exact h.loads l' hl'
    · rw [List.mem_singleton.mp hl']
      exact hl
  loading := by
    intro n hn
    cases hn
    rw [List.length_append, List.length_singleton]
    exact Nat.lt_succ_self _
  ready t ht := by cases ht

theorem poll (h : s.Steady strategies) (hconstant : ∀ st ∈ strategies, st.Alike st) (live : Nat)
    {request : Request} (hr : s.Issued request) :
    (s.poll live request).slot.Steady strategies ∧
      (s.poll live request).slot.Answers (Strategy.table? strategies)
        (s.poll live request).answer := by
  have hp := s.polled_poll live request
  generalize s.poll live request = turn at hp
  cases hp with
  | cached table _ hready => exact ⟨h, h.ready table hready⟩
  | ended load result _ hended =>
    have hyields := h.loads _ (List.mem_of_getElem? hended)
    exact ⟨h.settle hyields, hyields⟩
  | lost load hload hnone =>
    -- a load is never forgotten, not even by a reset
    have hlt := h.lt_of_awaited hr hload
    rw [List.getElem?_eq_none_iff] at hnone
    omega
  | driven load r hload hrunning =>
    have hlt := h.lt_of_awaited hr hload
    have hyields := Load.yields_advance ⟨s.table, load, live⟩ s.starts
      (h.loads _ (List.mem_of_getElem? hrunning))
    exact ⟨h.absorb hlt hyields, answers_absorb hlt hyields⟩
  | begun =>
    -- a new load is absorbed by the slot that already counts it
    obtain rfl := h.strategies_eq
    have hyields := Load.yields_start ⟨s.table, s.loads.length, live⟩ s.starts hconstant
    have hbegun := h.begun hyields
    have hlt := hbegun.loading _ rfl
    exact ⟨hbegun.absorb hlt hyields, answers_absorb hlt hyields⟩

end Steady

end Slot

end FormCompiler
