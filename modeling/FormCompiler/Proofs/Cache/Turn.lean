import FormCompiler.Cache.Slot

namespace FormCompiler

variable {τ : Type}

namespace Load

def failed : Load τ → Bool
  | .finished (.error _) => true
  | _ => false

theorem number_tryNext (ctx : LoadContext) (starts : Nat → Nat) (failures : List StrategyFailure)
    (untried : List (Nat × Strategy τ)) (t : Loaded τ)
    (h : (tryNext ctx starts failures untried).load = .finished (.ok t)) : t.load = ctx.load := by
  induction untried generalizing starts failures with
  | nil => cases h
  | cons entry rest ih =>
    simp only [tryNext] at h
    split at h
    · cases h
    · split at h
      · cases h
        rfl
      · exact ih _ _ h

theorem number_start (ctx : LoadContext) (starts : Nat → Nat) (strategies : List (Strategy τ))
    (t : Loaded τ) (h : (start ctx starts strategies).load = .finished (.ok t)) :
    t.load = ctx.load := by
  unfold start at h
  split at h
  · cases h
  · exact number_tryNext ctx starts _ _ t h

theorem number_advance (ctx : LoadContext) (starts : Nat → Nat) (r : RunningLoad τ)
    (t : Loaded τ) (h : (advance ctx starts r).load = .finished (.ok t)) : t.load = ctx.load := by
  unfold advance at h
  split at h
  · cases h
  · split at h
    · cases h
      rfl
    · exact number_tryNext ctx starts _ _ t h

end Load

namespace SlotState

def following (load : Nat) : Load τ → SlotState τ
  | .running _ => .loading load
  | .finished (.ok table) => .ready table
  | .finished (.error _) => .empty

theorem following_eq_empty_iff (load : Nat) (l : Load τ) :
    following load l = .empty ↔ l.failed = true := by
  cases l with
  | running r => simp [following, Load.failed]
  | finished result => cases result <;> simp [following, Load.failed]

theorem following_eq_loading_iff (load current : Nat) (l : Load τ) :
    following load l = .loading current ↔ load = current ∧ ∃ r, l = .running r := by
  cases l with
  | running r => simp [following]
  | finished result => cases result <;> simp [following]

theorem following_eq_ready_iff (load : Nat) (l : Load τ) (table : Loaded τ) :
    following load l = .ready table ↔ l = .finished (.ok table) := by
  cases l with
  | running r => simp [following]
  | finished result => cases result <;> simp [following]

end SlotState

namespace Slot

def awaited? (s : Slot τ) : Request → Option Nat
  | .waiting load => some load
  | .fresh =>
    match s.state with
    | .loading load => some load
    | _ => none

inductive Polled (s : Slot τ) (live : Nat) (request : Request) : SlotTurn τ → Prop where
  | cached (table : Loaded τ) : request = .fresh → s.state = .ready table →
      Polled s live request ⟨s, .inr (.ok table), []⟩
  | ended (load : Nat) (result : LoadResult τ) : s.awaited? request = some load →
      s.loads[load]? = some (.finished result) →
      Polled s live request ⟨s.settle load result, .inr result, []⟩
  | lost (load : Nat) : s.awaited? request = some load → s.loads[load]? = none →
      Polled s live request ⟨s, .inr (.error (.noStrategies s.table)), []⟩
  | driven (load : Nat) (r : RunningLoad τ) : s.awaited? request = some load →
      s.loads[load]? = some (.running r) →
      Polled s live request (s.absorb load (Load.advance ⟨s.table, load, live⟩ s.starts r))
  | begun : request = .fresh → s.state = .empty → Polled s live request (s.begin live)

theorem exists_settle (s : Slot τ) (load : Nat) (result : LoadResult τ) :
    ∃ state, s.settle load result = { s with state := state } := by
  unfold settle
  split
  · split
    · exact ⟨_, rfl⟩
    · exact ⟨s.state, rfl⟩
  · exact ⟨s.state, rfl⟩

theorem loads_settle (s : Slot τ) (load : Nat) (result : LoadResult τ) :
    (s.settle load result).loads = s.loads := by
  obtain ⟨state, hsettle⟩ := s.exists_settle load result
  rw [hsettle]

theorem polled_pollLoad (s : Slot τ) (live load : Nat) (request : Request)
    (h : s.awaited? request = some load) : s.Polled live request (s.pollLoad live load) := by
  unfold pollLoad
  split
  case h_1 r hr => exact .driven load r h hr
  case h_2 result hr => exact .ended load result h hr
  case h_3 hr => exact .lost load h hr

theorem polled_poll (s : Slot τ) (live : Nat) (request : Request) :
    s.Polled live request (s.poll live request) := by
  cases request with
  | waiting load => exact s.polled_pollLoad live load _ rfl
  | fresh =>
    unfold poll
    dsimp only
    split
    case h_1 table hs => exact .cached table rfl hs
    case h_2 load hs =>
      apply s.polled_pollLoad live load
      rw [awaited?, hs]
    case h_3 hs => exact .begun rfl hs

theorem settle_current {s : Slot τ} {load : Nat} (h : s.state = .loading load)
    (result : LoadResult τ) :
    s.settle load result = { s with state := .following load (.finished result) } := by
  unfold settle
  rw [h]
  cases result <;> simp [SlotState.following]

theorem settle_other {s : Slot τ} {load : Nat} (h : s.state ≠ .loading load)
    (result : LoadResult τ) : s.settle load result = s := by
  unfold settle
  split
  case h_1 current hs =>
    rw [if_neg]
    rintro rfl
    exact h hs
  case h_2 => rfl

theorem absorb_current {s : Slot τ} {load : Nat} (h : s.state = .loading load)
    (turn : LoadTurn τ) :
    (s.absorb load turn).slot =
      { s with
        state := .following load turn.load
        loads := s.loads.set load turn.load
        starts := turn.starts } := by
  unfold absorb
  cases hl : turn.load with
  | running r => simp only [SlotState.following, ← h]
  | finished result =>
    refine settle_current ?_ result
    exact h

theorem absorb_other {s : Slot τ} {load : Nat} (h : s.state ≠ .loading load)
    (turn : LoadTurn τ) :
    (s.absorb load turn).slot =
      { s with loads := s.loads.set load turn.load, starts := turn.starts } := by
  unfold absorb
  cases hl : turn.load with
  | running r => rfl
  | finished result =>
    refine settle_other ?_ result
    exact h

theorem loads_absorb (s : Slot τ) (load : Nat) (turn : LoadTurn τ) :
    (s.absorb load turn).slot.loads = s.loads.set load turn.load := by
  by_cases h : s.state = .loading load
  · rw [absorb_current h]
  · rw [absorb_other h]

theorem getElem?_loads_absorb {s : Slot τ} {load i : Nat} {l : Load τ} {turn : LoadTurn τ}
    (h : (s.absorb load turn).slot.loads[i]? = some l) :
    load = i ∧ turn.load = l ∨ load ≠ i ∧ s.loads[i]? = some l := by
  rw [loads_absorb, List.getElem?_set] at h
  split at h
  case isTrue he =>
    split at h
    · exact .inl ⟨he, Option.some_inj.mp h⟩
    · cases h
  case isFalse he => exact .inr ⟨he, h⟩

theorem begin_turn (s : Slot τ) (live : Nat) :
    let turn := Load.start ⟨s.table, s.loads.length, live⟩ s.starts s.strategies
    (s.begin live).slot =
        { s with
          state := .following s.loads.length turn.load
          loads := s.loads ++ [turn.load]
          starts := turn.starts } ∧
      (s.begin live).events = turn.events := by
  intro turn
  rw [begin, absorb_current rfl, absorb]
  constructor
  · simp [turn]
  · split <;> rfl

theorem getElem?_loads_begin {s : Slot τ} {live i : Nat} {l : Load τ}
    (h : (s.begin live).slot.loads[i]? = some l) :
    i < s.loads.length ∧ s.loads[i]? = some l ∨ i = s.loads.length ∧
      (Load.start ⟨s.table, s.loads.length, live⟩ s.starts s.strategies).load = l := by
  rw [(s.begin_turn live).1] at h
  dsimp only at h
  rcases Nat.lt_trichotomy i s.loads.length with hlt | rfl | hgt
  · rw [List.getElem?_append_left hlt] at h
    exact .inl ⟨hlt, h⟩
  · rw [List.getElem?_concat_length] at h
    exact .inr ⟨rfl, Option.some_inj.mp h⟩
  · rw [List.getElem?_eq_none (by rw [List.length_append, List.length_singleton]; omega)] at h
    cases h

theorem begin_slot (s : Slot τ) (live : Nat) :
    ∃ turn : LoadTurn τ, (∀ t, turn.load = .finished (.ok t) → t.load = s.loads.length) ∧
      (s.begin live).slot =
        { s with
          state := .following s.loads.length turn.load
          loads := s.loads ++ [turn.load]
          starts := turn.starts } :=
  ⟨_, fun t ht => Load.number_start _ _ _ t ht, (s.begin_turn live).1⟩

end Slot

end FormCompiler
