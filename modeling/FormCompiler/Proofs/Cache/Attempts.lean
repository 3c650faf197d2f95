import FormCompiler.Proofs.Cache.Coalescing
import FormCompiler.Proofs.Cache.Trace

namespace FormCompiler

variable {τ : Type}

structure FailedAttempt (τ : Type) where
  strategy : Strategy τ
  number : Nat
  failure : Failure
  failed : (strategy.attempt number).outcome = .error failure

namespace FailedAttempt

def reason (a : FailedAttempt τ) : StrategyFailure := ⟨a.strategy.name, a.failure⟩

def events (table : TableId) (position : Nat) (a : FailedAttempt τ) : List LoadEvent :=
  .started position :: (a.strategy.attempt a.number).events ++
    [.noticed (.strategyFailed table a.reason)]

def trace (table : TableId) (past : List (FailedAttempt τ)) : List LoadEvent :=
  past.zipIdx.flatMap fun (a, position) => a.events table position

theorem trace_concat (table : TableId) (past : List (FailedAttempt τ)) (a : FailedAttempt τ) :
    trace table (past ++ [a]) = trace table past ++ a.events table past.length := by
  simp [trace, List.zipIdx_append]

end FailedAttempt

open FailedAttempt (trace)

namespace Load

/-- What a load has done, by what has become of it. Strategies have failed from the first on, each
before the next one was started. Then one is pending, or one has given the table, or none is left
and the error lists the failures. -/
def Account (table : TableId) (load : Nat) (strategies : List (Strategy τ))
    (events : List LoadEvent) : Load τ → Prop
  | .running r => ∃ (past : List (FailedAttempt τ)) (s : Strategy τ) (rest : List (Strategy τ))
      (number : Nat), strategies = past.map (·.strategy) ++ s :: rest ∧
        (∃ polls, r = ⟨past.map (·.reason), s.name, polls, s.attempt number,
          (List.range' (past.length + 1) rest.length).zip rest⟩) ∧
        events = trace table past ++ [.started past.length]
  | .finished (.ok t) => ∃ (past : List (FailedAttempt τ)) (s : Strategy τ)
      (rest : List (Strategy τ)) (number : Nat), strategies = past.map (·.strategy) ++ s :: rest ∧
        (s.attempt number).outcome = .ok t.table ∧ t.load = load ∧
        events = trace table past ++ .started past.length :: (s.attempt number).events
  | .finished (.error error) => ∃ past : List (FailedAttempt τ),
      strategies = past.map (·.strategy) ∧
      error = (if strategies.isEmpty then .noStrategies table
        else .unavailable table (past.map (·.reason))) ∧
      events = trace table past ++ [.noticed (.tableUnavailable error)]

theorem account_tryNext (ctx : LoadContext) (starts : Nat → Nat) (past : List (FailedAttempt τ))
    (rest : List (Strategy τ)) {strategies : List (Strategy τ)}
    (h : strategies = past.map (·.strategy) ++ rest) (hne : strategies.isEmpty = false) :
    let turn := tryNext ctx starts (past.map (·.reason))
      ((List.range' past.length rest.length).zip rest)
    turn.load.Account ctx.table ctx.load strategies (trace ctx.table past ++ turn.events) := by
  induction rest generalizing starts past with
  | nil =>
    rw [List.append_nil] at h
    exact ⟨past, h, by rw [hne]; rfl, rfl⟩
  | cons s rest ih =>
    rw [List.length_cons, List.range'_succ, List.zip_cons_cons]
    simp only [tryNext]
    split
    case h_1 polls hdelay => exact ⟨past, s, rest, _, h, ⟨polls, rfl⟩, rfl⟩
    case h_2 =>
      split
      case h_1 t hok => exact ⟨past, s, rest, _, h, hok, rfl, rfl⟩
      case h_2 failure herror =>
        -- the failed attempt joins those before it, and the load goes on with the next strategy
        let a : FailedAttempt τ := ⟨s, starts past.length, failure, herror⟩
        have hnext := ih (countStart starts past.length) (past ++ [a]) (by simp [h, a])
        simp only [List.map_append, List.map_singleton, List.length_append, List.length_singleton,
          FailedAttempt.trace_concat, List.append_assoc] at hnext
        exact hnext

theorem account_start (ctx : LoadContext) (starts : Nat → Nat) (strategies : List (Strategy τ)) :
    (start ctx starts strategies).load.Account ctx.table ctx.load strategies
      (start ctx starts strategies).events := by
  unfold start
  cases hempty : strategies.isEmpty with
  | true =>
    refine ⟨[], List.isEmpty_iff.mp hempty, ?_, rfl⟩
    rw [hempty]
    rfl
  | false =>
    have htry := account_tryNext ctx starts [] strategies rfl hempty
    rw [if_neg Bool.false_ne_true, List.range_eq_range']
    exact htry

theorem account_advance (ctx : LoadContext) (starts : Nat → Nat) {r : RunningLoad τ}
    {strategies : List (Strategy τ)} {events : List LoadEvent}
    (h : (running r).Account ctx.table ctx.load strategies events) :
    (advance ctx starts r).load.Account ctx.table ctx.load strategies
      (events ++ (advance ctx starts r).events) := by
  obtain ⟨past, s, rest, number, hstrategies, ⟨polls, rfl⟩, rfl⟩ := h
  unfold advance
  split
  case h_1 polls' _ =>
    rw [List.append_nil]
    exact ⟨past, s, rest, number, hstrategies, ⟨polls', rfl⟩, rfl⟩
  case h_2 =>
    split
    case h_1 t hok =>
      refine ⟨past, s, rest, number, hstrategies, hok, rfl, ?_⟩
      rw [List.append_assoc, List.singleton_append]
    case h_2 failure herror =>
      let a : FailedAttempt τ := ⟨s, number, failure, herror⟩
      have hpast : strategies = (past ++ [a]).map (·.strategy) ++ rest := by simp [hstrategies, a]
      have hne : strategies.isEmpty = false := by simp [hstrategies]
      have hnext := account_tryNext ctx starts (past ++ [a]) rest hpast hne
      simp only [List.map_append, List.map_singleton, List.length_append, List.length_singleton,
        FailedAttempt.trace_concat, List.append_assoc] at hnext
      simpa [LoadTurn.after, FailedAttempt.events, FailedAttempt.reason, a] using hnext

end Load

def eventsOf (load : Nat) (journal : List (Nat × LoadEvent)) : List LoadEvent :=
  journal.filterMap fun entry => if entry.1 = load then some entry.2 else none

theorem eventsOf_append (load : Nat) (journal later : List (Nat × LoadEvent)) :
    eventsOf load (journal ++ later) = eventsOf load journal ++ eventsOf load later :=
  List.filterMap_append

theorem eventsOf_self (load : Nat) (events : List LoadEvent) :
    eventsOf load (events.map (load, ·)) = events := by
  simp [eventsOf]

theorem eventsOf_other {load other : Nat} (h : other ≠ load) (events : List LoadEvent) :
    eventsOf load (events.map (other, ·)) = [] := by
  simp [eventsOf, h]

theorem eventsOf_eq_nil {load : Nat} {journal : List (Nat × LoadEvent)}
    (h : ∀ entry ∈ journal, entry.1 ≠ load) : eventsOf load journal = [] := by
  rw [eventsOf, List.filterMap_eq_nil_iff]
  intro entry hentry
  rw [if_neg (h entry hentry)]

namespace Slot

def driven (s : Slot τ) (request : Request) : Nat := (s.awaited? request).getD s.loads.length

theorem driven_of_awaited {s : Slot τ} {request : Request} {load : Nat}
    (h : s.awaited? request = some load) : s.driven request = load := by
  rw [driven, h, Option.getD_some]

theorem driven_of_empty {s : Slot τ} (h : s.state = .empty) : s.driven .fresh = s.loads.length := by
  rw [driven, awaited?, h, Option.getD_none]

theorem strategies_absorb (s : Slot τ) (load : Nat) (turn : LoadTurn τ) :
    (s.absorb load turn).slot.table = s.table ∧
      (s.absorb load turn).slot.strategies = s.strategies := by
  by_cases h : s.state = .loading load
  · rw [absorb_current h]
    exact ⟨rfl, rfl⟩
  · rw [absorb_other h]
    exact ⟨rfl, rfl⟩

theorem events_absorb (s : Slot τ) (load : Nat) (turn : LoadTurn τ) :
    (s.absorb load turn).events = turn.events := by
  unfold absorb
  cases turn.load <;> rfl

structure Accounted (table : TableId) (strategies : List (Strategy τ))
    (journal : List (Nat × LoadEvent)) (s : Slot τ) : Prop where
  table_eq : s.table = table
  strategies_eq : s.strategies = strategies
  account : ∀ (load : Nat) (l : Load τ), s.loads[load]? = some l →
    l.Account table load strategies (eventsOf load journal)
  begun : ∀ entry ∈ journal, entry.1 < s.loads.length

namespace Accounted

variable {table : TableId} {strategies : List (Strategy τ)} {journal : List (Nat × LoadEvent)}
  {s : Slot τ}

theorem absorb (h : s.Accounted table strategies journal) {load : Nat} {r : RunningLoad τ}
    (hr : s.loads[load]? = some (.running r)) (live : Nat) :
    let turn := s.absorb load (Load.advance ⟨s.table, load, live⟩ s.starts r)
    turn.slot.Accounted table strategies (journal ++ turn.events.map (load, ·)) := by
  intro turn
  have hlt : load < s.loads.length := (List.getElem?_eq_some_iff.mp hr).1
  obtain ⟨htable, hstrategies⟩ := s.strategies_absorb load
    (Load.advance ⟨s.table, load, live⟩ s.starts r)
  refine ⟨htable.trans h.table_eq, hstrategies.trans h.strategies_eq, ?_, ?_⟩
  · intro i l hi
    rw [events_absorb, eventsOf_append]
    rcases getElem?_loads_absorb hi with ⟨rfl, rfl⟩ | ⟨hne, hi⟩
    · rw [eventsOf_self, h.table_eq]
      exact Load.account_advance ⟨table, load, live⟩ s.starts (h.account load _ hr)
    · rw [eventsOf_other hne, List.append_nil]
      exact h.account i l hi
  · rw [loads_absorb, List.length_set]
    intro entry hentry
    rcases List.mem_append.mp hentry with hentry | hentry
    · exact h.begun entry hentry
    · obtain ⟨event, -, rfl⟩ := List.mem_map.mp hentry
      exact hlt

theorem begin (h : s.Accounted table strategies journal) (live : Nat) :
    (s.begin live).slot.Accounted table strategies
      (journal ++ (s.begin live).events.map (s.loads.length, ·)) := by
  obtain ⟨hslot, hevents⟩ := s.begin_turn live
  refine ⟨?_, ?_, ?_, ?_⟩
  · rw [hslot]
    exact h.table_eq
  · rw [hslot]
    exact h.strategies_eq
  · intro i l hi
    rw [eventsOf_append]
    rcases getElem?_loads_begin hi with ⟨hlt, hi⟩ | ⟨rfl, rfl⟩
    · rw [eventsOf_other (Nat.ne_of_gt hlt), List.append_nil]
      exact h.account i l hi
    · have hnone : eventsOf s.loads.length journal = [] :=
        eventsOf_eq_nil fun entry hentry => Nat.ne_of_lt (h.begun entry hentry)
      rw [hnone, List.nil_append, eventsOf_self, hevents, h.table_eq, h.strategies_eq]
      exact Load.account_start ⟨table, s.loads.length, live⟩ s.starts strategies
  · intro entry hentry
    rw [hslot, List.length_append, List.length_singleton]
    rcases List.mem_append.mp hentry with hentry | hentry
    · exact Nat.lt_succ_of_lt (h.begun entry hentry)
    · obtain ⟨event, -, rfl⟩ := List.mem_map.mp hentry
      exact Nat.lt_succ_self _

theorem poll (h : s.Accounted table strategies journal) (live : Nat) (request : Request) :
    (s.poll live request).slot.Accounted table strategies
      (journal ++ (s.poll live request).events.map (s.driven request, ·)) := by
  have hp := s.polled_poll live request
  generalize s.poll live request = turn at hp
  cases hp with
  | cached => simpa using h
  | ended load result =>
    obtain ⟨state, hsettle⟩ := s.exists_settle load result
    rw [hsettle, List.map_nil, List.append_nil]
    exact ⟨h.table_eq, h.strategies_eq, h.account, h.begun⟩
  | lost => simpa using h
  | driven load r hload hr =>
    rw [driven_of_awaited hload]
    exact h.absorb hr live
  | begun hfresh hempty =>
    subst hfresh
    rw [driven_of_empty hempty]
    exact h.begin live

theorem reset (h : s.Accounted table strategies journal) :
    s.reset.Accounted table strategies journal := ⟨h.table_eq, h.strategies_eq, h.account, h.begun⟩

end Accounted

end Slot

def PollRecord.news (p : PollRecord (Slot τ) Request) : List (Nat × LoadEvent) :=
  (p.state.poll p.live p.activity).events.map (p.state.driven p.activity, ·)

namespace SlotRun

def found (run : SlotRun τ) : SlotAction → List (PollRecord (Slot τ) Request)
  | .poll ticket live =>
    match run.tickets[ticket]? with
    | some (.pending request) => [⟨ticket, live, run.slot, request⟩]
    | _ => []
  | _ => []

def polls (run : SlotRun τ) : List SlotAction → List (PollRecord (Slot τ) Request)
  | [] => []
  | action :: actions => run.found action ++ (run.step action).polls actions

def journal (run : SlotRun τ) (actions : List SlotAction) : List (Nat × LoadEvent) :=
  (run.polls actions).flatMap (·.news)

theorem found_cases (run : SlotRun τ) (action : SlotAction) :
    (run.found action = [] ∧ ((run.step action).slot = run.slot ∨
        action = .reset ∧ (run.step action).slot = run.slot.reset)) ∨
      ∃ ticket live request, action = .poll ticket live ∧
        run.tickets[ticket]? = some (.pending request) ∧
        run.found action = [⟨ticket, live, run.slot, request⟩] ∧
        (run.step action).slot = (run.slot.poll live request).slot := by
  cases action with
  | start => exact .inl ⟨rfl, .inl rfl⟩
  | reset => exact .inl ⟨rfl, .inr ⟨rfl, rfl⟩⟩
  | drop ticket =>
    refine .inl ⟨rfl, .inl ?_⟩
    rw [step, dropTicket]
    split <;> rfl
  | poll ticket live =>
    rw [step, pollTicket, found]
    cases hr : run.tickets[ticket]? with
    | none => exact .inl ⟨rfl, .inl rfl⟩
    | some t =>
      cases t with
      | pending request => exact .inr ⟨ticket, live, request, rfl, hr, rfl, rfl⟩
      | done result => exact .inl ⟨rfl, .inl rfl⟩
      | dropped => exact .inl ⟨rfl, .inl rfl⟩

theorem after_append (run : SlotRun τ) (actions later : List SlotAction) :
    run.after (actions ++ later) = (run.after actions).after later :=
  List.foldl_append

theorem journal_cons (run : SlotRun τ) (action : SlotAction) (actions : List SlotAction) :
    run.journal (action :: actions) =
      (run.found action).flatMap (·.news) ++ (run.step action).journal actions := by
  rw [journal, polls, List.flatMap_append, journal]

theorem accounted_step {run : SlotRun τ} {table : TableId} {strategies : List (Strategy τ)}
    {past : List (Nat × LoadEvent)} (h : run.slot.Accounted table strategies past)
    (action : SlotAction) :
    (run.step action).slot.Accounted table strategies
      (past ++ (run.found action).flatMap (·.news)) := by
  rcases run.found_cases action with
    ⟨hfound, hslot | ⟨-, hslot⟩⟩ | ⟨ticket, live, request, -, -, hfound, hslot⟩
  · rw [hfound, hslot, List.flatMap_nil, List.append_nil]
    exact h
  · rw [hfound, hslot, List.flatMap_nil, List.append_nil]
    exact h.reset
  · rw [hfound, hslot, List.flatMap_singleton]
    exact h.poll live request

theorem accounted_after {run : SlotRun τ} {table : TableId} {strategies : List (Strategy τ)}
    {past : List (Nat × LoadEvent)} (h : run.slot.Accounted table strategies past)
    (actions : List SlotAction) :
    (run.after actions).slot.Accounted table strategies (past ++ run.journal actions) := by
  induction actions generalizing run past with
  | nil => rwa [journal, polls, List.flatMap_nil, List.append_nil]
  | cons action actions ih =>
    rw [journal_cons, ← List.append_assoc]
    exact ih (accounted_step h action)

theorem accounted_start (table : TableId) (strategies : List (Strategy τ)) :
    (ofStrategies table strategies).slot.Accounted table strategies [] where
  table_eq := rfl
  strategies_eq := rfl
  account load l hl := by simp [ofStrategies] at hl
  begun entry hentry := by cases hentry

end SlotRun

end FormCompiler
