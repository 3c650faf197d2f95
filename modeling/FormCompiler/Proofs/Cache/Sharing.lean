import FormCompiler.Proofs.Cache.Tally

namespace FormCompiler

variable {τ : Type}

namespace SlotRun

theorem failures_step (run : SlotRun τ) (action : SlotAction) :
    run.slot.failures ≤ (run.step action).slot.failures ∧
      ∀ (load : Nat) (l' : Load τ), (run.step action).slot.loads[load]? = some l' →
        l'.failed = true → (∃ l : Load τ, run.slot.loads[load]? = some l ∧ l.failed = true) ∨
          run.slot.failures < (run.step action).slot.failures := by
  obtain ⟨hslot, -⟩ | ⟨-, hslot, -⟩ | ⟨_, live, request, -, -, hslot, -⟩ := run.step_cases action
  · rw [hslot]
    exact ⟨Nat.le_refl _, fun load l' hl' hfailed => .inl ⟨l', hl', hfailed⟩⟩
  · rw [hslot]
    exact ⟨Nat.le_refl _, fun load l' hl' hfailed => .inl ⟨l', hl', hfailed⟩⟩
  · rw [hslot]
    exact run.slot.failures_poll live request

theorem failures_after (run : SlotRun τ) (actions : List SlotAction) :
    run.slot.failures ≤ (run.after actions).slot.failures ∧
      ∀ (load : Nat) (l' : Load τ), (run.after actions).slot.loads[load]? = some l' →
        l'.failed = true → (∃ l : Load τ, run.slot.loads[load]? = some l ∧ l.failed = true) ∨
          run.slot.failures < (run.after actions).slot.failures := by
  induction actions generalizing run with
  | nil => exact ⟨Nat.le_refl _, fun load l' hl' hfailed => .inl ⟨l', hl', hfailed⟩⟩
  | cons action actions ih =>
    obtain ⟨hle, hstep⟩ := run.failures_step action
    obtain ⟨hle', hafter⟩ := ih (run.step action)
    refine ⟨Nat.le_trans hle hle', ?_⟩
    intro load l' hl' hfailed
    rcases hafter load l' hl' hfailed with ⟨l, hl, hfailed⟩ | hlt
    · rcases hstep load l hl hfailed with hbefore | hlt
      · exact .inl hbefore
      · exact .inr (Nat.lt_of_lt_of_le hlt hle')
    · exact .inr (Nat.lt_of_le_of_lt hle hlt)

theorem finished_of_following {run : SlotRun τ} {ticket live load : Nat} {l : Load τ}
    (hfollows : run.slot.Follows run.floor) (hl : run.slot.loads[load]? = some l)
    (hnot : l.failed = false) (hstate : run.slot.state = .following load l)
    (hticket : run.tickets[ticket]? = some (.pending .fresh)) {later : List SlotAction}
    {result : LoadResult τ}
    (hdone : (run.after (.poll ticket live :: later)).tickets[ticket]? = some (.done result)) :
    (run.after (.poll ticket live :: later)).slot.loads[load]? = some (.finished result) := by
  have hfirst : FirstPoll ticket run (.poll ticket live :: later) run.slot := .now _ _ _ hticket
  cases l with
  | running r =>
    obtain ⟨-, t, ht, hbound⟩ := hfirst.binds hfollows (by rw [Slot.attached?, hstate]; rfl)
    rw [hdone] at ht
    cases ht
    exact hbound
  | finished ended =>
    cases ended with
    | error error => cases hnot
    | ok t =>
      have hend := hfirst.ready hstate
      rw [hdone] at hend
      cases hend
      exact finished_after hl _

section

variable {run : SlotRun τ} {table : TableId} {strategies : List (Strategy τ)}
  (hsound : run.slot.Sound table strategies run.floor)

include hsound

theorem exists_load_of_ok {ticket : Nat} (hunpolled : run.Unpolled ticket)
    {actions : List SlotAction} (hactions : .reset ∉ actions) {t : Loaded τ}
    (hdone : (run.after actions).tickets[ticket]? = some (.done (.ok t))) :
    ∃ load, run.floor ≤ load ∧
      (run.after actions).slot.loads[load]? = some (.finished (.ok t)) := by
  obtain ⟨s, hs⟩ := exists_firstPoll hunpolled hdone
  obtain ⟨before, live, later, rfl, rfl, -⟩ := hs.exists_before
  have hbefore : .reset ∉ before := fun h => hactions (List.mem_append_left _ h)
  have hs' := sound_after hsound hbefore
  by_cases hready : ∃ t', (run.after before).slot.state = .ready t'
  · obtain ⟨t', hstate⟩ := hready
    have hend := hs.ready hstate
    rw [hdone] at hend
    cases hend
    obtain ⟨hfloor, hload⟩ := hs'.follows.of_ready hs'.numbered hstate
    refine ⟨t.load, hfloor, ?_⟩
    rw [after_append]
    exact finished_after hload _
  · obtain ⟨load, hload⟩ := Slot.exists_attached (not_exists.mp hready)
    obtain ⟨-, t', ht', hbound⟩ := hs.binds hsound.follows hload
    rw [hdone] at ht'
    cases ht'
    exact ⟨load, (hs'.follows.of_attached hload).1, hbound⟩

theorem tables_agree {ticket ticket' : Nat} (hunpolled : run.Unpolled ticket)
    (hunpolled' : run.Unpolled ticket') {actions : List SlotAction} (hactions : .reset ∉ actions)
    {t t' : Loaded τ} (hdone : (run.after actions).tickets[ticket]? = some (.done (.ok t)))
    (hdone' : (run.after actions).tickets[ticket']? = some (.done (.ok t'))) : t = t' := by
  obtain ⟨load, hfloor, hload⟩ := exists_load_of_ok hsound hunpolled hactions hdone
  obtain ⟨load', hfloor', hload'⟩ := exists_load_of_ok hsound hunpolled' hactions hdone'
  have hfollows := (sound_after hsound hactions).follows
  obtain ⟨hlast, -⟩ := hfollows.newest_of_not_failed hfloor hload rfl
  obtain ⟨hlast', -⟩ := hfollows.newest_of_not_failed hfloor' hload' rfl
  have he : load = load' := by omega
  subst he
  rw [hload] at hload'
  cases hload'
  rfl

theorem results_agree {ticket ticket' live live' : Nat} {between later : List SlotAction}
    (hactions : .reset ∉ SlotAction.poll ticket live :: between)
    (hticket : run.tickets[ticket]? = some (.pending .fresh)) {second : SlotRun τ}
    (hsecond : run.after (.poll ticket live :: between) = second)
    (hticket' : second.tickets[ticket']? = some (.pending .fresh))
    (hfailures : second.slot.failures = run.slot.failures) {result result' : LoadResult τ}
    (hdone : (second.after (.poll ticket' live' :: later)).tickets[ticket]? = some (.done result))
    (hdone' : (second.after (.poll ticket' live' :: later)).tickets[ticket']? =
      some (.done result')) : result = result' := by
  have hfirst : FirstPoll ticket run (.poll ticket live :: between) run.slot := .now _ _ _ hticket
  have hlast : FirstPoll ticket' second (.poll ticket' live' :: later) second.slot :=
    .now _ _ _ hticket'
  have hfollows : second.slot.Follows second.floor := by
    rw [← hsecond, floor_after hactions]
    exact (sound_after hsound hactions).follows
  have hfloor : second.floor = run.floor := by rw [← hsecond, floor_after hactions]
  by_cases hready : ∃ t, run.slot.state = .ready t
  · obtain ⟨t, hstate⟩ := hready
    have hstays := state_after_of_ready hstate _ hactions
    have hend := done_after (hfirst.ready hstate) (.poll ticket' live' :: later)
    rw [hsecond] at hstays hend
    have hend' := hlast.ready hstays
    rw [hdone] at hend
    rw [hdone'] at hend'
    cases hend
    cases hend'
    rfl
  · obtain ⟨load, hload⟩ := Slot.exists_attached (not_exists.mp hready)
    obtain ⟨hge, hgood⟩ := hsound.follows.of_attached hload
    have hbinds := hfirst.binds hsound.follows hload
    have hfailing := (run.failures_after (.poll ticket live :: between)).2 load
    rw [hsecond] at hbinds hfailing
    -- the load has not failed when the second request comes, so that the slot still follows it
    obtain ⟨l, hl⟩ : ∃ l, second.slot.loads[load]? = some l :=
      ⟨_, List.getElem?_eq_getElem hbinds.1⟩
    have hnot : l.failed = false := by
      rw [Bool.eq_false_iff]
      intro hfailed
      rcases hfailing l hl hfailed with ⟨l', hl', hfailed'⟩ | hlt
      · rw [hgood l' hl'] at hfailed'
        cases hfailed'
      · omega
    obtain ⟨-, hstate⟩ := hfollows.newest_of_not_failed (hfloor ▸ hge) hl hnot
    obtain ⟨-, t, ht, hbound⟩ := hbinds.after (.poll ticket' live' :: later)
    rw [hdone] at ht
    cases ht
    have hend := finished_of_following hfollows hl hnot hstate hticket' hdone'
    have hsame : some (Load.finished result) = some (.finished result') := hbound.symm.trans hend
    cases hsame
    rfl

end

end SlotRun

end FormCompiler
