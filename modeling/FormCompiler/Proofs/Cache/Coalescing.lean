import FormCompiler.Proofs.Cache.Run

namespace FormCompiler

variable {τ : Type}

namespace Slot

/-- No load has begun since the load `floor` was to come, or else the slot follows the newest load
and those before it have failed. -/
inductive Follows (floor : Nat) (s : Slot τ) : Prop where
  | idle : s.state = .empty → s.loads.length = floor → Follows floor s
  | newest (earlier : List (Load τ)) (load : Load τ) : s.loads = earlier ++ [load] →
      floor ≤ earlier.length →
      (∀ i l, floor ≤ i → earlier[i]? = some l → l.failed = true) →
      s.state = .following earlier.length load → Follows floor s

namespace Follows

variable {floor : Nat} {s : Slot τ}

theorem floor_le (h : s.Follows floor) : floor ≤ s.loads.length := by
  cases h with
  | idle _ hlen => exact Nat.le_of_eq hlen.symm
  | newest earlier load hloads hfloor =>
    rw [hloads, List.length_append]
    omega

theorem newest_of_not_failed (h : s.Follows floor) {i : Nat} {l : Load τ} (hi : floor ≤ i)
    (hl : s.loads[i]? = some l) (hfailed : l.failed = false) :
    s.loads.length = i + 1 ∧ s.state = .following i l := by
  have hlt : i < s.loads.length := (List.getElem?_eq_some_iff.mp hl).1
  cases h with
  | idle _ hlen => omega
  | newest earlier load hloads hfloor hearlier hstate =>
    rw [hloads, List.length_append, List.length_singleton] at hlt
    by_cases hlast : i = earlier.length
    · subst hlast
      have hload : load = l := by simpa [hloads] using hl
      subst hload
      exact ⟨by rw [hloads, List.length_append, List.length_singleton], hstate⟩
    · rw [hloads, List.getElem?_append_left (by omega)] at hl
      rw [hearlier i l hi hl] at hfailed
      cases hfailed

theorem failed_of_empty (h : s.Follows floor) (hempty : s.state = .empty) {i : Nat} {l : Load τ}
    (hi : floor ≤ i) (hl : s.loads[i]? = some l) : l.failed = true := by
  cases hfailed : l.failed with
  | true => rfl
  | false =>
    obtain ⟨-, hstate⟩ := h.newest_of_not_failed hi hl hfailed
    rw [hempty, eq_comm, SlotState.following_eq_empty_iff, hfailed] at hstate
    cases hstate

theorem of_loading (h : s.Follows floor) {load : Nat} (hload : s.state = .loading load) :
    floor ≤ load ∧ s.loads.length = load + 1 ∧ ∃ r, s.loads[load]? = some (.running r) := by
  cases h with
  | idle hempty =>
    rw [hempty] at hload
    cases hload
  | newest earlier l hloads hfloor hearlier hstate =>
    rw [hload, eq_comm, SlotState.following_eq_loading_iff] at hstate
    obtain ⟨rfl, r, rfl⟩ := hstate
    refine ⟨hfloor, ?_, r, ?_⟩
    · rw [hloads, List.length_append, List.length_singleton]
    · rw [hloads, List.getElem?_concat_length]

theorem absorb (h : s.Follows floor) {load : Nat} {r : RunningLoad τ}
    (hr : s.loads[load]? = some (.running r)) (turn : LoadTurn τ) :
    (s.absorb load turn).slot.Follows floor := by
  by_cases hcurrent : s.state = .loading load
  · rw [absorb_current hcurrent]
    cases h with
    | idle hempty =>
      rw [hempty] at hcurrent
      cases hcurrent
    | newest earlier l hloads hfloor hearlier hstate =>
      rw [hcurrent, eq_comm, SlotState.following_eq_loading_iff] at hstate
      obtain ⟨rfl, -⟩ := hstate
      refine .newest earlier turn.load ?_ hfloor hearlier rfl
      simp [hloads]
  · rw [absorb_other hcurrent]
    -- a load that the slot does not follow and that goes on is from before the reset
    have hold : load < floor := by
      apply Nat.lt_of_not_le
      intro hge
      obtain ⟨-, hstate⟩ := h.newest_of_not_failed hge hr rfl
      exact hcurrent hstate
    cases h with
    | idle hempty hlen => exact .idle hempty (by rw [List.length_set, hlen])
    | newest earlier l hloads hfloor hearlier hstate =>
      have hlt : load < earlier.length := by omega
      refine .newest (earlier.set load turn.load) l ?_ ?_ ?_ ?_
      · dsimp only
        rw [hloads, List.set_append_left load turn.load hlt]
      · rw [List.length_set]
        exact hfloor
      · intro i l' hi hl'
        rw [List.getElem?_set_ne (by omega)] at hl'
        exact hearlier i l' hi hl'
      · rw [List.length_set]
        exact hstate

theorem settle_of_finished (h : s.Follows floor) {load : Nat} {result : LoadResult τ}
    (hl : s.loads[load]? = some (.finished result)) : s.settle load result = s := by
  apply settle_other
  intro hcurrent
  obtain ⟨-, -, r, hr⟩ := h.of_loading hcurrent
  rw [hl] at hr
  cases hr

theorem poll (h : s.Follows floor) (live : Nat) (request : Request) :
    (s.poll live request).slot.Follows floor := by
  have hp := s.polled_poll live request
  generalize s.poll live request = turn at hp
  cases hp with
  | cached => exact h
  | ended load result _ hended => rwa [h.settle_of_finished hended]
  | lost => exact h
  | driven load r _ hr => exact h.absorb hr _
  | begun _ hempty =>
    obtain ⟨turn, -, hslot⟩ := s.begin_slot live
    rw [hslot]
    refine .newest s.loads turn.load rfl h.floor_le ?_ rfl
    intro i l hi hl
    exact h.failed_of_empty hempty hi hl

theorem reset (s : Slot τ) : s.reset.Follows s.loads.length := .idle rfl rfl

end Follows

theorem ne_empty_of_awaited {s : Slot τ} {request : Request} {load : Nat}
    (h : s.awaited? request = some load) : ¬(request = .fresh ∧ s.state = .empty) := by
  rintro ⟨rfl, hempty⟩
  rw [awaited?, hempty] at h
  cases h

theorem length_loads_poll (s : Slot τ) (live : Nat) (request : Request) :
    (request = .fresh ∧ s.state = .empty) ∧
        (s.poll live request).slot.loads.length = s.loads.length + 1 ∨
      ¬(request = .fresh ∧ s.state = .empty) ∧
        (s.poll live request).slot.loads.length = s.loads.length := by
  have hp := s.polled_poll live request
  generalize s.poll live request = turn at hp
  cases hp with
  | cached table _ hready =>
    refine .inr ⟨?_, rfl⟩
    rintro ⟨-, hempty⟩
    rw [hready] at hempty
    cases hempty
  | ended load result hload =>
    exact .inr ⟨ne_empty_of_awaited hload, congrArg List.length (loads_settle s load result)⟩
  | lost load hload => exact .inr ⟨ne_empty_of_awaited hload, rfl⟩
  | driven load r hload =>
    refine .inr ⟨ne_empty_of_awaited hload, ?_⟩
    rw [loads_absorb, List.length_set]
  | begun hfresh hempty =>
    obtain ⟨turn, -, hslot⟩ := s.begin_slot live
    refine .inl ⟨⟨hfresh, hempty⟩, ?_⟩
    rw [hslot, List.length_append, List.length_singleton]

end Slot

namespace SlotRun

theorem follows_after (table : TableId) (strategies : List (Strategy τ))
    (actions : List SlotAction) :
    ((ofStrategies table strategies).after actions).slot.Follows
      ((ofStrategies table strategies).after actions).floor := by
  apply after_of_poll fun floor s => s.Follows floor
  · intro floor s live request h
    exact h.poll live request
  · intro floor s _
    exact .reset s
  · exact .idle rfl rfl

theorem length_loads_step (run : SlotRun τ) (action : SlotAction) :
    (run.step action).slot.loads.length = run.slot.loads.length ∨
      (run.step action).slot.loads.length = run.slot.loads.length + 1 ∧
        run.slot.state = .empty ∧
        ∃ ticket live, action = .poll ticket live ∧
          run.tickets[ticket]? = some (.pending .fresh) := by
  obtain ⟨hslot, -⟩ | ⟨-, hslot, -⟩ | ⟨ticket, live, request, haction, hticket, hslot, -⟩ :=
    run.step_cases action
  · left
    rw [hslot]
  · left
    rw [hslot]
    rfl
  · rw [hslot]
    rcases run.slot.length_loads_poll live request with ⟨⟨rfl, hempty⟩, hlen⟩ | ⟨-, hlen⟩
    · exact .inr ⟨hlen, hempty, ticket, live, haction, hticket⟩
    · exact .inl hlen

end SlotRun

/-- However requests are started, polled and dropped and the slot is reset: a load begins only when
all loads since the last reset have failed, so one of them at most is under way or has succeeded; a
request that finds a load or a table begins none; and the load that the slot waits for is under way,
whoever still waits for it. -/
theorem loads_coalesce (table : TableId) (strategies : List (Strategy τ))
    (actions : List SlotAction) :
    let run := (SlotRun.ofStrategies table strategies).after actions
    (∀ action, (run.step action).slot.loads.length ≠ run.slot.loads.length →
        (run.step action).slot.loads.length = run.slot.loads.length + 1 ∧
          ∀ i l, run.floor ≤ i → run.slot.loads[i]? = some l → l.failed = true) ∧
      (∀ i j l l', run.floor ≤ i → run.floor ≤ j → run.slot.loads[i]? = some l →
        run.slot.loads[j]? = some l' → l.failed = false → l'.failed = false → i = j) ∧
      (∀ action, run.slot.state ≠ .empty →
        (run.step action).slot.loads.length = run.slot.loads.length) ∧
      ∀ load, run.slot.state = .loading load → ∃ r, run.slot.loads[load]? = some (.running r) := by
  intro run
  have hrun : run.slot.Follows run.floor := SlotRun.follows_after table strategies actions
  refine ⟨?_, ?_, ?_, ?_⟩
  · intro action hbegun
    rcases run.length_loads_step action with hsame | ⟨hlen, hempty, -⟩
    · exact absurd hsame hbegun
    · exact ⟨hlen, fun i l hi hl => hrun.failed_of_empty hempty hi hl⟩
  · intro i j l l' hi hj hl hl' hli hlj
    have hlast := (hrun.newest_of_not_failed hi hl hli).1
    have hlast' := (hrun.newest_of_not_failed hj hl' hlj).1
    omega
  · intro action hstate
    rcases run.length_loads_step action with hsame | ⟨-, hempty, -⟩
    · exact hsame
    · exact absurd hempty hstate
  · intro load hload
    exact (hrun.of_loading hload).2.2

def Strategy.slow : Strategy Nat where
  name := "slow"
  attempt n := { delay := .polls 1, outcome := .ok n }

theorem loads_coalesce_dropped :
    let run := (SlotRun.ofStrategies .dictionary [.slow]).after [.start, .poll 0 1, .drop 0]
    run.slot.state = .loading 0 ∧ ∃ r, run.slot.loads[0]? = some (.running r) :=
  ⟨rfl, (loads_coalesce .dictionary [.slow] _).2.2.2 0 rfl⟩

end FormCompiler
