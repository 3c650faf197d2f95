import FormCompiler.Cache.Activity
import FormCompiler.Proofs.Cache.Attachment

namespace FormCompiler

variable {τ : Type}

open Activity (Below)

namespace Load

def left : Load τ → Nat × Nat × Nat
  | .running r => (1, r.untried.length, r.polls)
  | .finished _ => (0, 0, 0)

theorem left_advance (ctx : LoadContext) (starts : Nat → Nat) (r : RunningLoad τ) :
    Below (advance ctx starts r).load.left (running r).left := by
  cases hl : (advance ctx starts r).load with
  | finished result => exact .inl Nat.zero_lt_one
  | running r' =>
    right
    refine ⟨rfl, ?_⟩
    exact advance_decreases ctx starts r r' hl

end Load

namespace Slot

theorem left_poll {s : Slot τ} {load : Nat} {l : Load τ} (hl : s.loads[load]? = some l) (live : Nat)
    (request : Request) :
    (s.poll live request).slot.loads[load]? = some l ∨
      ∃ l', (s.poll live request).slot.loads[load]? = some l' ∧ Below l'.left l.left := by
  have hp := s.polled_poll live request
  generalize s.poll live request = turn at hp
  have hlt : load < s.loads.length := (List.getElem?_eq_some_iff.mp hl).1
  cases hp with
  | cached => exact .inl hl
  | ended => exact .inl (by rwa [loads_settle])
  | lost => exact .inl hl
  | begun =>
    obtain ⟨turn, -, hslot⟩ := s.begin_slot live
    left
    rw [hslot, List.getElem?_append_left hlt, hl]
  | driven other r _ hr =>
    rw [loads_absorb]
    by_cases he : other = load
    · subst he
      rw [hl] at hr
      cases hr
      right
      exact ⟨_, List.getElem?_set_self hlt, Load.left_advance _ _ r⟩
    · left
      rw [List.getElem?_set_ne he, hl]

theorem left_poll_waiting {s : Slot τ} {load : Nat} {l : Load τ} (hl : s.loads[load]? = some l)
    (live : Nat) :
    (∃ result, (s.poll live (.waiting load)).answer = .inr result) ∨
      (s.poll live (.waiting load)).answer = .inl (.waiting load) ∧
        ∃ l', (s.poll live (.waiting load)).slot.loads[load]? = some l' ∧
          Below l'.left l.left := by
  have hlt : load < s.loads.length := (List.getElem?_eq_some_iff.mp hl).1
  cases hanswer : (s.poll live (.waiting load)).answer with
  | inr result => exact .inl ⟨result, rfl⟩
  | inl request =>
    obtain ⟨rfl, -⟩ := pollLoad_decreases hanswer
    refine .inr ⟨rfl, ?_⟩
    simp only [poll, pollLoad] at hanswer ⊢
    rw [hl] at hanswer ⊢
    cases l with
    | finished result => cases hanswer
    | running r =>
      refine ⟨_, ?_, Load.left_advance ⟨s.table, load, live⟩ s.starts r⟩
      rw [loads_absorb, List.getElem?_set_self hlt]

end Slot

namespace SlotRun

def upTo (run : SlotRun τ) (schedule : Nat → SlotAction) (n : Nat) : SlotRun τ :=
  run.after ((List.range n).map schedule)

theorem upTo_succ (run : SlotRun τ) (schedule : Nat → SlotAction) (n : Nat) :
    run.upTo schedule (n + 1) = (run.upTo schedule n).step (schedule n) := by
  rw [upTo, List.range_succ, List.map_append, after, List.foldl_append]
  rfl

theorem left_step {run : SlotRun τ} {load : Nat} {l : Load τ}
    (hl : run.slot.loads[load]? = some l) (action : SlotAction) :
    (run.step action).slot.loads[load]? = some l ∨
      ∃ l', (run.step action).slot.loads[load]? = some l' ∧ Below l'.left l.left := by
  obtain ⟨hslot, -⟩ | ⟨-, hslot, -⟩ | ⟨_, live, request, -, -, hslot, -⟩ := run.step_cases action
  · rw [hslot]
    exact .inl hl
  · rw [hslot]
    exact .inl hl
  · rw [hslot]
    exact Slot.left_poll hl live request

theorem ticket_step {run : SlotRun τ} {ticket : Nat} {t : Ticket τ}
    (ht : run.tickets[ticket]? = some t) {action : SlotAction}
    (hpoll : ∀ live, action ≠ .poll ticket live) (hdrop : action ≠ .drop ticket) :
    (run.step action).tickets[ticket]? = some t := by
  rcases run.ticket_step_cases action ticket with
    hsame | ⟨hnone, -⟩ | ⟨_, haction, -⟩ | ⟨live, _, haction, -⟩
  · rw [hsame, ht]
  · rw [ht] at hnone
    cases hnone
  · exact absurd haction hdrop
  · exact absurd haction (hpoll live)

section Fair

variable {run : SlotRun τ} {schedule : Nat → SlotAction} {ticket : Nat}
  (hfair : ∀ n, ∃ m live, n ≤ m ∧ schedule m = .poll ticket live)
  (hkept : ∀ n, schedule n ≠ .drop ticket)

include hfair hkept

theorem ends_of_waiting {load : Nat} (l : Load τ) (d n : Nat)
    (hnext : ∃ live, schedule (n + d) = .poll ticket live)
    (hl : (run.upTo schedule n).slot.loads[load]? = some l)
    (hticket : (run.upTo schedule n).tickets[ticket]? = some (.pending (.waiting load))) :
    ∃ m result, (run.upTo schedule m).tickets[ticket]? = some (.done result) := by
  -- by induction on what the load has before it, and on how long it takes until the next poll
  by_cases hpolled : ∃ live, schedule n = .poll ticket live
  · obtain ⟨live, hlive⟩ := hpolled
    obtain ⟨hslot, hafter⟩ := step_poll hticket live
    rw [← hlive, ← upTo_succ] at hslot hafter
    rcases Slot.left_poll_waiting hl live with ⟨result, hanswer⟩ | ⟨hanswer, l', hl', hbelow⟩
    · rw [hanswer] at hafter
      exact ⟨n + 1, result, hafter⟩
    · rw [hanswer] at hafter
      rw [← hslot] at hl'
      obtain ⟨m, live', hm, hnext'⟩ := hfair (n + 1)
      have hnext'' : ∃ live, schedule (n + 1 + (m - (n + 1))) = .poll ticket live := by
        rw [Nat.add_sub_cancel' hm]
        exact ⟨live', hnext'⟩
      exact ends_of_waiting l' (m - (n + 1)) (n + 1) hnext'' hl' hafter
  · cases d with
    | zero => exact absurd hnext hpolled
    | succ d =>
      rw [not_exists] at hpolled
      have hafter := ticket_step hticket hpolled (hkept n)
      have hstep := left_step hl (schedule n)
      rw [← upTo_succ] at hafter hstep
      have hnext' : ∃ live, schedule (n + 1 + d) = .poll ticket live := by
        rw [Nat.add_right_comm]
        exact hnext
      rcases hstep with hl' | ⟨l', hl', hbelow⟩
      · exact ends_of_waiting l d (n + 1) hnext' hl' hafter
      · exact ends_of_waiting l' d (n + 1) hnext' hl' hafter
termination_by (l.left, d)
decreasing_by
  · apply Prod.Lex.left
    simp only [Prod.lex_def]
    exact hbelow
  · apply Prod.Lex.right
    omega
  · apply Prod.Lex.left
    simp only [Prod.lex_def]
    exact hbelow

theorem exists_poll {t : Ticket τ} {n : Nat}
    (ht : (run.upTo schedule n).tickets[ticket]? = some t) :
    ∃ m live, schedule m = .poll ticket live ∧ (run.upTo schedule m).tickets[ticket]? = some t := by
  obtain ⟨m, live, hm, hnext⟩ := hfair n
  obtain ⟨d, rfl⟩ := Nat.exists_eq_add_of_le hm
  induction d generalizing n with
  | zero => exact ⟨n, live, hnext, ht⟩
  | succ d ih =>
    by_cases hpolled : ∃ live, schedule n = .poll ticket live
    · obtain ⟨live', hlive⟩ := hpolled
      exact ⟨n, live', hlive, ht⟩
    · rw [not_exists] at hpolled
      have hafter := ticket_step ht hpolled (hkept n)
      rw [← upTo_succ] at hafter
      have hnext' : schedule (n + 1 + d) = .poll ticket live := by
        rw [Nat.add_right_comm]
        exact hnext
      exact ih hafter (Nat.le_add_right _ _) hnext'

theorem ends_of_pending_waiting {load n : Nat}
    (ht : (run.upTo schedule n).tickets[ticket]? = some (.pending (.waiting load))) :
    ∃ m result, (run.upTo schedule m).tickets[ticket]? = some (.done result) := by
  obtain ⟨m, live, hlive, ht⟩ := exists_poll hfair hkept ht
  cases hl : (run.upTo schedule m).slot.loads[load]? with
  | some l => exact ends_of_waiting hfair hkept l 0 m ⟨live, hlive⟩ hl ht
  | none =>
    have hafter := (step_poll ht live).2
    rw [← hlive, ← upTo_succ] at hafter
    simp only [Slot.poll, Slot.pollLoad, hl] at hafter
    exact ⟨m + 1, _, hafter⟩

theorem ends_of_pending {request : Request} {n : Nat}
    (ht : (run.upTo schedule n).tickets[ticket]? = some (.pending request)) :
    ∃ m result, (run.upTo schedule m).tickets[ticket]? = some (.done result) := by
  cases request with
  | waiting load => exact ends_of_pending_waiting hfair hkept ht
  | fresh =>
    obtain ⟨m, live, hlive, ht⟩ := exists_poll hfair hkept ht
    have hafter := (step_poll ht live).2
    rw [← hlive, ← upTo_succ] at hafter
    cases hanswer : ((run.upTo schedule m).slot.poll live .fresh).answer with
    | inr result =>
      rw [hanswer] at hafter
      exact ⟨m + 1, result, hafter⟩
    | inl request =>
      obtain ⟨load, rfl⟩ := Slot.poll_fresh_inl hanswer
      rw [hanswer] at hafter
      exact ends_of_pending_waiting hfair hkept hafter

end Fair

end SlotRun

end FormCompiler
