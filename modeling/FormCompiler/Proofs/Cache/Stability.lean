import FormCompiler.Proofs.Cache.Coalescing

namespace FormCompiler

variable {τ : Type}

namespace Slot

def Numbered (s : Slot τ) : Prop :=
  ∀ (i : Nat) (t : Loaded τ), s.loads[i]? = some (.finished (.ok t)) → t.load = i

theorem Numbered.absorb {s : Slot τ} (h : s.Numbered) {load : Nat} {turn : LoadTurn τ}
    (hturn : ∀ t, turn.load = .finished (.ok t) → t.load = load) :
    (s.absorb load turn).slot.Numbered := by
  intro i t hi
  rcases getElem?_loads_absorb hi with ⟨rfl, ht⟩ | ⟨-, hi⟩
  · exact hturn t ht
  · exact h i t hi

theorem Numbered.begin {s : Slot τ} (h : s.Numbered) (live : Nat) :
    (s.begin live).slot.Numbered := by
  intro i t hi
  rcases getElem?_loads_begin hi with ⟨-, hi⟩ | ⟨rfl, ht⟩
  · exact h i t hi
  · exact Load.number_start _ _ _ t ht

theorem Numbered.poll {s : Slot τ} (h : s.Numbered) (live : Nat) (request : Request) :
    (s.poll live request).slot.Numbered := by
  have hp := s.polled_poll live request
  generalize s.poll live request = turn at hp
  cases hp with
  | cached => exact h
  | ended load result =>
    intro i t hi
    rw [loads_settle] at hi
    exact h i t hi
  | lost => exact h
  | driven load r => exact h.absorb fun t ht => Load.number_advance _ _ r t ht
  | begun => exact h.begin live

theorem Follows.of_ready {floor : Nat} {s : Slot τ} (h : s.Follows floor) (hn : s.Numbered)
    {t : Loaded τ} (ht : s.state = .ready t) :
    floor ≤ t.load ∧ s.loads[t.load]? = some (.finished (.ok t)) := by
  cases h with
  | idle hempty =>
    rw [hempty] at ht
    cases ht
  | newest earlier l hloads hfloor hearlier hstate =>
    rw [ht, eq_comm, SlotState.following_eq_ready_iff] at hstate
    subst hstate
    have hlast : s.loads[earlier.length]? = some (.finished (.ok t)) := by
      rw [hloads, List.getElem?_concat_length]
    rw [hn _ t hlast]
    exact ⟨hfloor, hlast⟩

theorem poll_fresh_of_ready {s : Slot τ} {t : Loaded τ} (h : s.state = .ready t) (live : Nat) :
    s.poll live .fresh = ⟨s, .inr (.ok t), []⟩ := by
  simp only [poll, h]

theorem state_poll {s : Slot τ} (live : Nat) (request : Request)
    (hbegun : request = .fresh → s.state ≠ .empty)
    (hother : ∀ load, s.awaited? request = some load → s.state ≠ .loading load) :
    (s.poll live request).slot.state = s.state := by
  have hp := s.polled_poll live request
  generalize s.poll live request = turn at hp
  cases hp with
  | cached => rfl
  | ended load result hload => rw [settle_other (hother load hload)]
  | lost => rfl
  | driven load r hload => rw [absorb_other (hother load hload)]
  | begun hfresh hempty => exact absurd hempty (hbegun hfresh)

theorem state_poll_of_ready {s : Slot τ} {t : Loaded τ} (h : s.state = .ready t) (live : Nat)
    (request : Request) : (s.poll live request).slot.state = .ready t := by
  rw [← h]
  apply state_poll
  · intro _
    rw [h]
    simp
  · intro load _
    rw [h]
    simp

def Stale (floor : Nat) (s : Slot τ) (load : Nat) : Prop :=
  load < floor ∨ (∃ result, s.loads[load]? = some (.finished result)) ∨ load + 1 < s.loads.length

theorem Follows.state_poll_of_stale {floor : Nat} {s : Slot τ} (h : s.Follows floor) {load : Nat}
    (hload : s.Stale floor load) (live : Nat) {request : Request}
    (hrequest : s.awaited? request = some load) :
    (s.poll live request).slot.state = s.state := by
  apply state_poll
  · intro hfresh hempty
    exact ne_empty_of_awaited hrequest ⟨hfresh, hempty⟩
  · intro load' hload' hstate
    rw [hrequest] at hload'
    cases hload'
    obtain ⟨hfloor, hlen, r, hr⟩ := h.of_loading hstate
    rcases hload with hold | ⟨result, hended⟩ | holder
    · omega
    · rw [hr] at hended
      cases hended
    · omega

end Slot

namespace SlotRun

theorem numbered_after (table : TableId) (strategies : List (Strategy τ))
    (actions : List SlotAction) :
    ((ofStrategies table strategies).after actions).slot.Numbered := by
  apply after_of_poll fun _ s => s.Numbered
  · intro _ s live request h
    exact h.poll live request
  · intro _ s h
    exact h
  · intro i t hi
    simp [ofStrategies] at hi

theorem state_after_of_ready {run : SlotRun τ} {t : Loaded τ} (h : run.slot.state = .ready t)
    (actions : List SlotAction) (hactions : .reset ∉ actions) :
    (run.after actions).slot.state = .ready t := by
  induction actions generalizing run with
  | nil => exact h
  | cons action actions ih =>
    rw [List.mem_cons, not_or] at hactions
    apply ih _ hactions.2
    obtain ⟨hslot, -⟩ | ⟨hreset, -, -⟩ | ⟨ticket, live, request, -, -, hslot, -⟩ :=
      run.step_cases action
    · rw [hslot]
      exact h
    · exact absurd hreset.symm hactions.1
    · rw [hslot]
      exact Slot.state_poll_of_ready h live request

theorem step_poll_of_ready {run : SlotRun τ} {t : Loaded τ} (h : run.slot.state = .ready t)
    {ticket : Nat} (hticket : run.tickets[ticket]? = some (.pending .fresh)) (live : Nat) :
    (run.step (.poll ticket live)).tickets[ticket]? = some (.done (.ok t)) := by
  have hlt := (List.getElem?_eq_some_iff.mp hticket).1
  simp only [step, pollTicket, hticket, Slot.poll_fresh_of_ready h]
  rw [List.getElem?_set_self hlt]
  rfl

end SlotRun

/-- However requests are started, polled and dropped and the slot is reset: a table that is there
came from a load that began after the last reset and stays until the next one, and a request gets it
at its first poll, at which nothing happens to the slot. A poll of a load of before the last reset,
of one that has ended or of one that is not the newest leaves the state of the slot as it is. -/
theorem table_stable (table : TableId) (strategies : List (Strategy τ))
    (actions : List SlotAction) :
    let run := (SlotRun.ofStrategies table strategies).after actions
    (run.slot.isLoaded = true → ∃ t, run.slot.state = .ready t ∧ run.floor ≤ t.load ∧
        run.slot.loads[t.load]? = some (.finished (.ok t)) ∧
        ∀ later, .reset ∉ later → (run.after later).slot.state = .ready t ∧
          ∀ ticket live, (run.after later).tickets[ticket]? = some (.pending .fresh) →
            (run.after later).slot.poll live .fresh =
                ⟨(run.after later).slot, .inr (.ok t), []⟩ ∧
              ((run.after later).step (.poll ticket live)).tickets[ticket]? =
                some (.done (.ok t))) ∧
      ∀ ticket request load live, run.tickets[ticket]? = some (.pending request) →
        run.slot.awaited? request = some load → run.slot.Stale run.floor load →
          (run.step (.poll ticket live)).slot.state = run.slot.state := by
  intro run
  have hrun : run.slot.Follows run.floor := SlotRun.follows_after table strategies actions
  have hnumbered : run.slot.Numbered := SlotRun.numbered_after table strategies actions
  constructor
  · intro hloaded
    obtain ⟨t, ht⟩ : ∃ t, run.slot.state = .ready t := by
      unfold Slot.isLoaded at hloaded
      split at hloaded
      case h_1 t ht => exact ⟨t, ht⟩
      case h_2 => cases hloaded
    obtain ⟨hfloor, hload⟩ := hrun.of_ready hnumbered ht
    refine ⟨t, ht, hfloor, hload, ?_⟩
    intro later hlater
    have hstays := SlotRun.state_after_of_ready ht later hlater
    refine ⟨hstays, ?_⟩
    intro ticket live hticket
    exact ⟨Slot.poll_fresh_of_ready hstays live, SlotRun.step_poll_of_ready hstays hticket live⟩
  · intro ticket request load live hticket hrequest hstale
    have hstate := hrun.state_poll_of_stale hstale live hrequest
    simp only [SlotRun.step, SlotRun.pollTicket, hticket]
    exact hstate

def lateRun : List SlotAction := [.start, .poll 0 1, .reset, .start, .poll 1 1]

theorem table_stable_late :
    let run := (SlotRun.ofStrategies .dictionary [.slow]).after
    (run (lateRun ++ [.poll 0 1])).slot.state = .loading 1 ∧
      (run (lateRun ++ [.poll 0 1, .poll 1 1])).slot.state = .ready ⟨1, 1⟩ ∧
      (run (lateRun ++ [.poll 0 1, .poll 1 1, .start, .poll 2 1])).slot.state = .ready ⟨1, 1⟩ := by
  have hlate := (table_stable .dictionary [.slow] lateRun).2 0 (.waiting 0) 0 1 rfl rfl
    (.inl Nat.zero_lt_one)
  obtain ⟨t, ht, -, -, hlater⟩ :=
    (table_stable .dictionary [.slow] (lateRun ++ [.poll 0 1, .poll 1 1])).1 rfl
  cases ht
  exact ⟨hlate, rfl, (hlater [.start, .poll 2 1] (by decide)).1⟩

end FormCompiler
