import FormCompiler.Proofs.Cache.Turn

namespace FormCompiler

variable {τ : Type}

def Strategy.AtHand (first : Strategy τ) : Prop :=
  ∀ n, (first.attempt n).delay = .polls 0 ∧ ∃ table, (first.attempt n).outcome = .ok table

namespace Load

variable {first : Strategy τ}

theorem start_of_atHand (hfirst : first.AtHand) (ctx : LoadContext) (starts : Nat → Nat) :
    ∃ table, ∀ others, start ctx starts (first :: others) =
      ⟨.finished (.ok ⟨ctx.load, table⟩), countStart starts 0,
        .started 0 :: (first.attempt (starts 0)).events⟩ := by
  obtain ⟨hdelay, table, houtcome⟩ := hfirst (starts 0)
  refine ⟨table, fun others => ?_⟩
  have hzip : (List.range (first :: others).length).zip (first :: others) =
      (0, first) :: ((List.range others.length).map Nat.succ).zip others := by
    rw [List.length_cons, List.range_succ_eq_map]
    rfl
  simp only [start, List.isEmpty_cons, Bool.false_eq_true, ↓reduceIte, hzip, tryNext, hdelay,
    Delay.count, houtcome]

end Load

namespace Slot

def withOthers (s : Slot τ) (others : List (Strategy τ)) : Slot τ :=
  { s with strategies := s.strategies.take 1 ++ others }

structure AtHand (s : Slot τ) : Prop where
  first : ∃ first others, s.strategies = first :: others ∧ first.AtHand
  ended : ∀ l ∈ s.loads, ∃ result, l = .finished result

variable {s : Slot τ}

theorem settle_withOthers (s : Slot τ) (others : List (Strategy τ)) (load : Nat)
    (result : LoadResult τ) :
    (s.withOthers others).settle load result = (s.settle load result).withOthers others := by
  have hstate : (s.withOthers others).state = s.state := rfl
  by_cases hcurrent : s.state = .loading load
  · rw [settle_current hcurrent, settle_current (hstate.trans hcurrent)]
    rfl
  · rw [settle_other hcurrent, settle_other (fun h => hcurrent (hstate.symm.trans h))]

theorem absorb_withOthers (s : Slot τ) (others : List (Strategy τ)) (load : Nat)
    (turn : LoadTurn τ) :
    (s.withOthers others).absorb load turn =
      let t := s.absorb load turn
      ⟨t.slot.withOthers others, t.answer, t.events⟩ := by
  obtain ⟨result, starts, events⟩ := turn
  cases result with
  | running r => rfl
  | finished result =>
    have hsettle := settle_withOthers
      { s with loads := s.loads.set load (.finished result), starts := starts } others load result
    simp only [absorb]
    rw [← hsettle]
    rfl

namespace AtHand

theorem begin_withOthers (h : s.AtHand) (others : List (Strategy τ)) (live : Nat) :
    (s.withOthers others).begin live =
      let t := s.begin live
      ⟨t.slot.withOthers others, t.answer, t.events⟩ := by
  obtain ⟨first, rest, hstrategies, hfirst⟩ := h.first
  obtain ⟨table, hstart⟩ :=
    Load.start_of_atHand hfirst ⟨s.table, s.loads.length, live⟩ s.starts
  have hothers : (s.withOthers others).strategies = first :: others := by
    rw [withOthers, hstrategies]
    rfl
  -- the load ends as it starts, whatever stands behind the first strategy
  have hturn :
      Load.start ⟨s.table, s.loads.length, live⟩ s.starts (s.withOthers others).strategies =
        Load.start ⟨s.table, s.loads.length, live⟩ s.starts s.strategies := by
    rw [hothers, hstrategies, hstart, hstart]
  have habsorb := absorb_withOthers
    { s with
      state := .loading s.loads.length
      loads :=
        s.loads ++ [(Load.start ⟨s.table, s.loads.length, live⟩ s.starts s.strategies).load] }
    others s.loads.length (Load.start ⟨s.table, s.loads.length, live⟩ s.starts s.strategies)
  simp only [begin]
  rw [← habsorb]
  simp only [withOthers] at hturn ⊢
  rw [hturn]

theorem pollLoad_withOthers (h : s.AtHand) (others : List (Strategy τ)) (live load : Nat) :
    (s.withOthers others).pollLoad live load =
      let t := s.pollLoad live load
      ⟨t.slot.withOthers others, t.answer, t.events⟩ := by
  have hloads : (s.withOthers others).loads = s.loads := rfl
  unfold pollLoad
  rw [hloads]
  cases hl : s.loads[load]? with
  | none => rfl
  | some l =>
    obtain ⟨result, rfl⟩ := h.ended l (List.mem_of_getElem? hl)
    dsimp only
    rw [settle_withOthers]

theorem poll_withOthers (h : s.AtHand) (others : List (Strategy τ)) (live : Nat)
    (request : Request) :
    (s.withOthers others).poll live request =
      let t := s.poll live request
      ⟨t.slot.withOthers others, t.answer, t.events⟩ := by
  have hstate : (s.withOthers others).state = s.state := rfl
  cases request with
  | waiting load => exact h.pollLoad_withOthers others live load
  | fresh =>
    simp only [Slot.poll, hstate]
    cases s.state with
    | ready table => rfl
    | loading load => exact h.pollLoad_withOthers others live load
    | empty => exact h.begin_withOthers others live

theorem poll (h : s.AtHand) (live : Nat) (request : Request) :
    (s.poll live request).slot.AtHand ∧
      ∀ i, .started i ∈ (s.poll live request).events → i = 0 := by
  have hp := s.polled_poll live request
  generalize s.poll live request = turn at hp
  cases hp with
  | cached => exact ⟨h, by simp⟩
  | ended load result =>
    obtain ⟨state, hsettle⟩ := s.exists_settle load result
    rw [hsettle]
    exact ⟨⟨h.first, h.ended⟩, by simp⟩
  | lost => exact ⟨h, by simp⟩
  | driven load r _ hrunning =>
    obtain ⟨result, hresult⟩ := h.ended _ (List.mem_of_getElem? hrunning)
    cases hresult
  | begun =>
    obtain ⟨first, others, hstrategies, hfirst⟩ := h.first
    obtain ⟨table, hstart⟩ :=
      Load.start_of_atHand hfirst ⟨s.table, s.loads.length, live⟩ s.starts
    obtain ⟨hslot, hevents⟩ := s.begin_turn live
    rw [hstrategies, hstart] at hslot hevents
    constructor
    · rw [hslot]
      refine ⟨⟨first, others, rfl, hfirst⟩, ?_⟩
      rw [List.forall_mem_append]
      exact ⟨h.ended, by simp⟩
    · rw [hevents]
      simp [Attempt.events]

theorem reset (h : s.AtHand) : s.reset.AtHand := ⟨h.first, h.ended⟩

end AtHand

end Slot

end FormCompiler
