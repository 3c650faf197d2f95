import FormCompiler.Proofs.Cache.Retry
import Mathlib.Data.List.Induction

namespace FormCompiler

variable {τ : Type}

def LoadEvent.isStart (position : Nat) : LoadEvent → Bool
  | .started i => i == position
  | .noticed _ => false

open LoadEvent (isStart)

namespace Load

open FailedAttempt (trace)

theorem countP_events {α : Type} (attempt : Attempt α) (position : Nat) :
    attempt.events.countP (isStart position) = 0 := by
  simp [Attempt.events, List.countP_map, Function.comp_def, isStart]

theorem countP_trace (table : TableId) (past : List (FailedAttempt τ)) (position : Nat) :
    (trace table past).countP (isStart position) = if position < past.length then 1 else 0 := by
  induction past using List.reverseRecOn with
  | nil => rfl
  | append_singleton past a ih =>
    have hlast : (a.events table past.length).countP (isStart position) =
        if past.length = position then 1 else 0 := by
      simp [FailedAttempt.events, List.countP_append, List.countP_cons, countP_events, isStart]
    rw [FailedAttempt.trace_concat, List.countP_append, ih, hlast, List.length_append,
      List.length_singleton]
    split <;> split <;> split <;> omega

theorem Account.starts_le {table : TableId} {load : Nat} {strategies : List (Strategy τ)}
    {events : List LoadEvent} {l : Load τ} (h : l.Account table load strategies events)
    (position : Nat) : events.countP (isStart position) ≤ 1 := by
  have hstarted : ∀ (past : List (FailedAttempt τ)) (rest : List LoadEvent),
      rest.countP (isStart position) = 0 →
      (trace table past ++ .started past.length :: rest).countP (isStart position) ≤ 1 := by
    intro past rest hrest
    rw [List.countP_append, countP_trace, List.countP_cons, hrest]
    simp only [isStart, beq_iff_eq]
    split <;> split <;> omega
  cases l with
  | running r =>
    obtain ⟨past, _, _, _, -, -, rfl⟩ := h
    exact hstarted past [] rfl
  | finished result =>
    cases result with
    | ok t =>
      obtain ⟨past, s, _, number, -, -, -, rfl⟩ := h
      exact hstarted past _ (countP_events _ position)
    | error error =>
      obtain ⟨past, -, -, rfl⟩ := h
      rw [List.countP_append, countP_trace]
      simp only [isStart, List.countP_cons, List.countP_nil]
      split <;> simp

end Load

namespace Slot

def failures (s : Slot τ) : Nat := s.loads.countP Load.failed

theorem failures_absorb {s : Slot τ} {load : Nat} {r : RunningLoad τ}
    (hr : s.loads[load]? = some (.running r)) (turn : LoadTurn τ) :
    (s.absorb load turn).slot.failures =
      s.failures + if turn.load.failed = true then 1 else 0 := by
  obtain ⟨hlt, hr⟩ := List.getElem?_eq_some_iff.mp hr
  rw [failures, loads_absorb, List.countP_set hlt, hr]
  rfl

theorem failures_begin (s : Slot τ) (live : Nat) :
    (s.begin live).slot.failures = s.failures +
      if (Load.start ⟨s.table, s.loads.length, live⟩ s.starts s.strategies).load.failed = true
      then 1 else 0 := by
  rw [failures, (s.begin_turn live).1]
  simp [failures, List.countP_append, List.countP_cons]

theorem failures_poll (s : Slot τ) (live : Nat) (request : Request) :
    s.failures ≤ (s.poll live request).slot.failures ∧
      ∀ (load : Nat) (l' : Load τ), (s.poll live request).slot.loads[load]? = some l' →
        l'.failed = true → (∃ l : Load τ, s.loads[load]? = some l ∧ l.failed = true) ∨
          s.failures < (s.poll live request).slot.failures := by
  have hp := s.polled_poll live request
  generalize s.poll live request = turn at hp
  cases hp with
  | cached => exact ⟨Nat.le_refl _, fun load l' hl' hfailed => .inl ⟨l', hl', hfailed⟩⟩
  | ended load result =>
    simp only [failures, loads_settle]
    exact ⟨Nat.le_refl _, fun load l' hl' hfailed => .inl ⟨l', hl', hfailed⟩⟩
  | lost => exact ⟨Nat.le_refl _, fun load l' hl' hfailed => .inl ⟨l', hl', hfailed⟩⟩
  | driven other r _ hr =>
    rw [failures_absorb hr]
    refine ⟨Nat.le_add_right _ _, ?_⟩
    intro load l' hl' hfailed
    rcases getElem?_loads_absorb hl' with ⟨-, rfl⟩ | ⟨-, hl⟩
    · right
      rw [if_pos hfailed]
      exact Nat.lt_succ_self _
    · exact .inl ⟨l', hl, hfailed⟩
  | begun =>
    rw [failures_begin]
    refine ⟨Nat.le_add_right _ _, ?_⟩
    intro load l' hl' hfailed
    rcases getElem?_loads_begin hl' with ⟨-, hl⟩ | ⟨-, rfl⟩
    · exact .inl ⟨l', hl, hfailed⟩
    · right
      rw [if_pos hfailed]
      exact Nat.lt_succ_self _

inductive Moved (s : Slot τ) (live : Nat) (request : Request) : SlotTurn τ → Prop where
  | still (answer : Request ⊕ LoadResult τ) : Moved s live request ⟨s, answer, []⟩
  | ahead (load : Nat) (r : RunningLoad τ) : s.awaited? request = some load →
      s.state = .loading load → s.loads[load]? = some (.running r) →
      Moved s live request (s.absorb load (Load.advance ⟨s.table, load, live⟩ s.starts r))
  | begun : request = .fresh → s.state = .empty → Moved s live request (s.begin live)

theorem Follows.floor_le_of_awaited {floor : Nat} {s : Slot τ} (h : s.Follows floor)
    {request : Request} (hrequest : ∀ load, request = .waiting load → floor ≤ load) {load : Nat}
    (hload : s.awaited? request = some load) : floor ≤ load := by
  cases request with
  | waiting other =>
    cases hload
    exact hrequest _ rfl
  | fresh =>
    rw [awaited?] at hload
    split at hload
    case h_1 current hstate =>
      cases hload
      exact (h.of_loading hstate).1
    case h_2 => cases hload

theorem Follows.moved {floor : Nat} {s : Slot τ} (h : s.Follows floor) {request : Request}
    (hrequest : ∀ load, request = .waiting load → floor ≤ load) (live : Nat) :
    s.Moved live request (s.poll live request) := by
  have hp := s.polled_poll live request
  generalize s.poll live request = turn at hp
  cases hp with
  | cached => exact .still _
  | ended load result _ hended =>
    rw [h.settle_of_finished hended]
    exact .still _
  | lost => exact .still _
  | begun hfresh hempty => exact .begun hfresh hempty
  | driven load r hload hr =>
    have hfloor := h.floor_le_of_awaited hrequest hload
    obtain ⟨-, hstate⟩ := h.newest_of_not_failed hfloor hr rfl
    exact .ahead load r hload hstate hr

def isIdle (s : Slot τ) : Bool :=
  match s.state with
  | .empty => true
  | _ => false

def retries (base : Nat) (s : Slot τ) (request : Request) : Bool :=
  request == .fresh && s.isIdle && decide (base < s.failures)

structure Tally (base position again starts : Nat) (past : List (Nat × LoadEvent)) (s : Slot τ) :
    Prop where
  base_le : base ≤ s.failures
  starts_le : starts ≤ again + 1
  of_empty : s.state = .empty → s.failures = base → starts ≤ again
  of_loading : ∀ load, s.state = .loading load →
    starts ≤ again + (eventsOf load past).countP (isStart position)

namespace Tally

variable {base position again starts : Nat} {past : List (Nat × LoadEvent)} {s s' : Slot τ}
  {table : TableId} {strategies : List (Strategy τ)}

theorem of_following {load : Nat} {l : Load τ} {events : List LoadEvent}
    (hstate : s'.state = .following load l) (hl : s'.loads[load]? = some l)
    (hfailures : s'.failures = s.failures + if l.failed = true then 1 else 0)
    (haccounted : s'.Accounted table strategies (past ++ events.map (load, ·)))
    (hbase : base ≤ s.failures)
    (hstarts : starts ≤ again + (eventsOf load past).countP (isStart position)) :
    s'.Tally base position again (starts + events.countP (isStart position))
      (past ++ events.map (load, ·)) := by
  have honce := (haccounted.account load l hl).starts_le position
  rw [eventsOf_append, eventsOf_self, List.countP_append] at honce
  refine ⟨?_, ?_, ?_, ?_⟩
  · rw [hfailures]
    exact Nat.le_trans hbase (Nat.le_add_right _ _)
  · omega
  · intro hempty hsame
    rw [hempty, eq_comm, SlotState.following_eq_empty_iff] at hstate
    rw [hfailures, if_pos hstate] at hsame
    omega
  · intro current hcurrent
    rw [hcurrent, eq_comm, SlotState.following_eq_loading_iff] at hstate
    obtain ⟨rfl, -⟩ := hstate
    rw [eventsOf_append, eventsOf_self, List.countP_append]
    omega

theorem poll (h : s.Tally base position again starts past)
    (haccounted : s.Accounted table strategies past) {floor : Nat} (hfollows : s.Follows floor)
    {request : Request} (hrequest : ∀ load, request = .waiting load → floor ≤ load) (live : Nat) :
    (s.poll live request).slot.Tally base position
      (again + if s.retries base request = true then 1 else 0)
      (starts + (s.poll live request).events.countP (isStart position))
      (past ++ (s.poll live request).events.map (s.driven request, ·)) := by
  have hafter := haccounted.poll live request
  have hmoved := hfollows.moved hrequest live
  have hagain : again ≤ again + if s.retries base request = true then 1 else 0 :=
    Nat.le_add_right _ _
  generalize s.poll live request = turn at hafter hmoved ⊢
  cases hmoved with
  | still answer =>
    rw [List.map_nil, List.append_nil, List.countP_nil, Nat.add_zero]
    refine ⟨h.base_le, ?_, ?_, ?_⟩
    · have := h.starts_le
      omega
    · intro hempty hsame
      have := h.of_empty hempty hsame
      omega
    · intro load hload
      have := h.of_loading load hload
      omega
  | ahead load r hload hstate hr =>
    rw [driven_of_awaited hload] at hafter ⊢
    have hlt := (List.getElem?_eq_some_iff.mp hr).1
    refine of_following ?_ ?_ (failures_absorb hr _) hafter h.base_le ?_
    · rw [absorb_current hstate]
    · rw [loads_absorb, List.getElem?_set_self hlt]
    · have := h.of_loading load hstate
      omega
  | begun hfresh hempty =>
    subst hfresh
    rw [driven_of_empty hempty] at hafter ⊢
    refine of_following ?_ ?_ (s.failures_begin live) hafter h.base_le ?_
    · rw [(s.begin_turn live).1]
    · rw [(s.begin_turn live).1, List.getElem?_concat_length]
    · -- a request that finds no failure is the first one to start anything
      have hbound : starts ≤ again + if s.retries base .fresh = true then 1 else 0 := by
        by_cases hsame : s.failures = base
        · exact Nat.le_trans (h.of_empty hempty hsame) hagain
        · have hlt : base < s.failures := Nat.lt_of_le_of_ne h.base_le (Ne.symm hsame)
          rw [if_pos (by simp [retries, isIdle, hempty, hlt])]
          exact h.starts_le
      exact Nat.le_trans hbound (Nat.le_add_right _ _)

end Tally

structure Sound (table : TableId) (strategies : List (Strategy τ)) (floor : Nat) (s : Slot τ) :
    Prop where
  follows : s.Follows floor
  numbered : s.Numbered
  accounted : ∃ past, s.Accounted table strategies past

namespace Sound

variable {table : TableId} {strategies : List (Strategy τ)} {floor : Nat} {s : Slot τ}

theorem init (table : TableId) (strategies : List (Strategy τ)) :
    Sound table strategies 0 { table, strategies } where
  follows := .idle rfl rfl
  numbered i t hi := by cases hi
  accounted := ⟨[], SlotRun.accounted_start table strategies⟩

theorem poll (h : s.Sound table strategies floor) (live : Nat) (request : Request) :
    (s.poll live request).slot.Sound table strategies floor := by
  obtain ⟨past, hpast⟩ := h.accounted
  exact ⟨h.follows.poll live request, h.numbered.poll live request, _, hpast.poll live request⟩

theorem reset (h : s.Sound table strategies floor) :
    s.reset.Sound table strategies s.loads.length := by
  obtain ⟨past, hpast⟩ := h.accounted
  exact ⟨.reset s, h.numbered, past, hpast.reset⟩

end Sound

theorem Follows.floor_le_of_waits {floor : Nat} {s : Slot τ} (h : s.Follows floor)
    {request : Request} (hrequest : ∀ load, request = .waiting load → floor ≤ load)
    {live load : Nat}
    (hanswer : (s.poll live request).answer = .inl (.waiting load)) : floor ≤ load := by
  cases request with
  | waiting other =>
    obtain ⟨he, -⟩ := pollLoad_decreases hanswer
    cases he
    exact hrequest _ rfl
  | fresh =>
    simp only [Slot.poll] at hanswer
    split at hanswer
    case h_1 => cases hanswer
    case h_2 current hstate =>
      obtain ⟨he, -⟩ := pollLoad_decreases hanswer
      cases he
      exact (h.of_loading hstate).1
    case h_3 =>
      obtain ⟨he, -⟩ := absorb_answer_inl hanswer
      cases he
      exact h.floor_le

end Slot

namespace SlotRun

def Attends (run : SlotRun τ) : Prop :=
  ∀ (ticket load : Nat), run.tickets[ticket]? = some (.pending (.waiting load)) → run.floor ≤ load

theorem floor_step {run : SlotRun τ} {action : SlotAction} (h : action ≠ .reset) :
    (run.step action).floor = run.floor := by
  rcases run.step_cases action with ⟨-, hfloor⟩ | ⟨hreset, -⟩ | ⟨_, _, _, -, -, -, hfloor⟩
  · exact hfloor
  · exact absurd hreset h
  · exact hfloor

theorem Attends.step {run : SlotRun τ} (h : run.Attends) (hfollows : run.slot.Follows run.floor)
    {action : SlotAction} (haction : action ≠ .reset) : (run.step action).Attends := by
  intro ticket load hticket
  rw [floor_step haction]
  rcases run.ticket_step_cases action ticket with
    hsame | ⟨-, hfresh⟩ | ⟨_, -, -, hdropped⟩ | ⟨live, request, rfl, hr⟩
  · rw [hsame] at hticket
    exact h ticket load hticket
  · rw [hfresh] at hticket
    cases hticket
  · rw [hdropped] at hticket
    cases hticket
  · rw [(step_poll hr live).2] at hticket
    cases hanswer : (run.slot.poll live request).answer with
    | inr result =>
      rw [hanswer] at hticket
      cases hticket
    | inl request' =>
      rw [hanswer] at hticket
      cases hticket
      refine hfollows.floor_le_of_waits ?_ hanswer
      rintro other rfl
      exact h ticket other hr

theorem floor_after {run : SlotRun τ} {actions : List SlotAction} (h : .reset ∉ actions) :
    (run.after actions).floor = run.floor := by
  induction actions generalizing run with
  | nil => rfl
  | cons action actions ih =>
    rw [List.mem_cons, not_or] at h
    exact (ih h.2).trans (floor_step (Ne.symm h.1))

theorem sound_after {run : SlotRun τ} {table : TableId} {strategies : List (Strategy τ)}
    (h : run.slot.Sound table strategies run.floor) {actions : List SlotAction}
    (hactions : .reset ∉ actions) :
    (run.after actions).slot.Sound table strategies run.floor := by
  have hafter := after_of_poll (fun floor s => s.Sound table strategies floor)
    (fun _ _ live request h => h.poll live request) (fun _ _ h => h.reset) run actions h
  rwa [floor_after hactions] at hafter

theorem tally_after {run : SlotRun τ} {table : TableId} {strategies : List (Strategy τ)}
    {base position again starts : Nat} {past : List (Nat × LoadEvent)}
    (h : run.slot.Tally base position again starts past)
    (haccounted : run.slot.Accounted table strategies past)
    (hfollows : run.slot.Follows run.floor) (hattends : run.Attends) {actions : List SlotAction}
    (hactions : .reset ∉ actions) :
    (run.after actions).slot.Tally base position
      (again + (run.polls actions).countP fun p => p.state.retries base p.activity)
      (starts + (run.journal actions).countP fun entry => isStart position entry.2)
      (past ++ run.journal actions) := by
  induction actions generalizing run again starts past with
  | nil =>
    change run.slot.Tally base position again starts (past ++ [])
    rwa [List.append_nil]
  | cons action actions ih =>
    rw [List.mem_cons, not_or] at hactions
    have haction := Ne.symm hactions.1
    rw [journal_cons, polls, List.countP_append, List.countP_append, ← List.append_assoc,
      ← Nat.add_assoc, ← Nat.add_assoc]
    refine ih ?_ (accounted_step haccounted action) (follows_step hfollows action)
      (hattends.step hfollows haction) hactions.2
    rcases run.found_cases action with
      ⟨hfound, hslot | ⟨hreset, -⟩⟩ | ⟨ticket, live, request, -, hticket, hfound, hslot⟩
    · rw [hfound, hslot]
      simpa using h
    · exact absurd hreset haction
    · have hrequest : ∀ load, request = .waiting load → run.floor ≤ load := by
        rintro load rfl
        exact hattends ticket load hticket
      have hpoll := h.poll haccounted hfollows hrequest live
      rw [hfound, hslot, List.flatMap_singleton, List.countP_singleton, PollRecord.news,
        List.countP_map]
      exact hpoll

end SlotRun

end FormCompiler
