import FormCompiler.Proofs.Cache.Turn

namespace FormCompiler

variable {τ : Type}

inductive Ticket (τ : Type) where
  | pending (request : Request)
  | done (result : LoadResult τ)
  | dropped

namespace Ticket

def ofAnswer : Request ⊕ LoadResult τ → Ticket τ
  | .inl request => .pending request
  | .inr result => .done result

end Ticket

inductive SlotAction where
  | start
  | poll (ticket live : Nat)
  | drop (ticket : Nat)
  | reset
  deriving DecidableEq

structure SlotRun (τ : Type) where
  slot : Slot τ
  tickets : List (Ticket τ) := []
  floor : Nat := 0

namespace SlotRun

def ofStrategies (table : TableId) (strategies : List (Strategy τ)) : SlotRun τ where
  slot := { table, strategies }

def pollTicket (run : SlotRun τ) (ticket live : Nat) : SlotRun τ :=
  match run.tickets[ticket]? with
  | some (.pending request) =>
    let turn := run.slot.poll live request
    { run with
      slot := turn.slot
      tickets := run.tickets.set ticket (.ofAnswer turn.answer) }
  | _ => run

def dropTicket (run : SlotRun τ) (ticket : Nat) : SlotRun τ :=
  match run.tickets[ticket]? with
  | some (.pending _) => { run with tickets := run.tickets.set ticket .dropped }
  | _ => run

def step (run : SlotRun τ) : SlotAction → SlotRun τ
  | .start => { run with tickets := run.tickets ++ [.pending .fresh] }
  | .poll ticket live => run.pollTicket ticket live
  | .drop ticket => run.dropTicket ticket
  | .reset => { run with slot := run.slot.reset, floor := run.slot.loads.length }

def after (run : SlotRun τ) (actions : List SlotAction) : SlotRun τ := actions.foldl step run

theorem step_cases (run : SlotRun τ) (action : SlotAction) :
    ((run.step action).slot = run.slot ∧ (run.step action).floor = run.floor) ∨
      (action = .reset ∧ (run.step action).slot = run.slot.reset ∧
        (run.step action).floor = run.slot.loads.length) ∨
      ∃ ticket live request, action = .poll ticket live ∧
        run.tickets[ticket]? = some (.pending request) ∧
        (run.step action).slot = (run.slot.poll live request).slot ∧
        (run.step action).floor = run.floor := by
  cases action with
  | start => exact .inl ⟨rfl, rfl⟩
  | reset => exact .inr (.inl ⟨rfl, rfl, rfl⟩)
  | drop ticket =>
    left
    rw [step, dropTicket]
    split <;> exact ⟨rfl, rfl⟩
  | poll ticket live =>
    rw [step, pollTicket]
    split
    case h_1 request hr => exact .inr (.inr ⟨ticket, live, request, rfl, hr, rfl, rfl⟩)
    case h_2 => exact .inl ⟨rfl, rfl⟩

theorem after_of_poll (P : Nat → Slot τ → Prop)
    (hpoll : ∀ floor s live request, P floor s → P floor (s.poll live request).slot)
    (hreset : ∀ floor s, P floor s → P s.loads.length s.reset)
    (run : SlotRun τ) (actions : List SlotAction) (h : P run.floor run.slot) :
    P (run.after actions).floor (run.after actions).slot := by
  induction actions generalizing run with
  | nil => exact h
  | cons action actions ih =>
    apply ih
    obtain ⟨hslot, hfloor⟩ | ⟨-, hslot, hfloor⟩ | ⟨_, live, request, -, -, hslot, hfloor⟩ :=
      run.step_cases action
    · rw [hslot, hfloor]
      exact h
    · rw [hslot, hfloor]
      exact hreset _ _ h
    · rw [hslot, hfloor]
      exact hpoll _ _ live request h

end SlotRun

end FormCompiler
