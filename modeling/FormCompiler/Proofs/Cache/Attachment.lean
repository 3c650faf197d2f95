import FormCompiler.Proofs.Cache.Coalescing

namespace FormCompiler

variable {τ : Type}

namespace Slot

def attached? (s : Slot τ) : Option Nat :=
  match s.state with
  | .ready _ => none
  | .loading load => some load
  | .empty => some s.loads.length

theorem exists_attached {s : Slot τ} (h : ∀ t, s.state ≠ .ready t) :
    ∃ load, s.attached? = some load := by
  unfold attached?
  split
  case h_1 t ht => exact absurd ht (h t)
  case h_2 load _ => exact ⟨load, rfl⟩
  case h_3 => exact ⟨_, rfl⟩

theorem Follows.of_attached {floor : Nat} {s : Slot τ} (h : s.Follows floor) {load : Nat}
    (hload : s.attached? = some load) :
    floor ≤ load ∧ ∀ l, s.loads[load]? = some l → l.failed = false := by
  unfold attached? at hload
  split at hload
  case h_1 => cases hload
  case h_2 current hstate =>
    cases hload
    obtain ⟨hfloor, -, r, hr⟩ := h.of_loading hstate
    refine ⟨hfloor, ?_⟩
    intro l hl
    rw [hr] at hl
    cases hl
    rfl
  case h_3 =>
    cases hload
    refine ⟨h.floor_le, ?_⟩
    intro l hl
    rw [List.getElem?_eq_none (Nat.le_refl _)] at hl
    cases hl

theorem finished_absorb {s : Slot τ} {load i : Nat} {r : RunningLoad τ} {result : LoadResult τ}
    (hr : s.loads[load]? = some (.running r)) (hi : s.loads[i]? = some (.finished result))
    (turn : LoadTurn τ) : (s.absorb load turn).slot.loads[i]? = some (.finished result) := by
  have hne : load ≠ i := by
    rintro rfl
    rw [hr] at hi
    cases hi
  rw [loads_absorb, List.getElem?_set_ne hne, hi]

theorem finished_poll {s : Slot τ} {i : Nat} {result : LoadResult τ}
    (hi : s.loads[i]? = some (.finished result)) (live : Nat) (request : Request) :
    (s.poll live request).slot.loads[i]? = some (.finished result) := by
  have hp := s.polled_poll live request
  generalize s.poll live request = turn at hp
  cases hp with
  | cached => exact hi
  | ended => rwa [loads_settle]
  | lost => exact hi
  | driven load r _ hr => exact finished_absorb hr hi _
  | begun =>
    obtain ⟨turn, -, hslot⟩ := s.begin_slot live
    rw [hslot, List.getElem?_append_left (List.getElem?_eq_some_iff.mp hi).1, hi]

end Slot

namespace Ticket

def BoundTo (s : Slot τ) (load : Nat) : Ticket τ → Prop
  | .pending request => request = .waiting load
  | .done result => s.loads[load]? = some (.finished result)
  | .dropped => True

theorem boundTo_absorb {s : Slot τ} {load : Nat} (hload : load < s.loads.length)
    (turn : LoadTurn τ) :
    (ofAnswer (s.absorb load turn).answer).BoundTo (s.absorb load turn).slot load := by
  have hset : (s.absorb load turn).slot.loads[load]? = some turn.load := by
    rw [Slot.loads_absorb, List.getElem?_set_self hload]
  unfold Slot.absorb at hset ⊢
  cases hturn : turn.load with
  | running r => rfl
  | finished result =>
    rw [hturn] at hset
    exact hset

theorem boundTo_pollLoad {s : Slot τ} {load : Nat} (hload : load < s.loads.length) (live : Nat) :
    (ofAnswer (s.pollLoad live load).answer).BoundTo (s.pollLoad live load).slot load := by
  unfold Slot.pollLoad
  split
  case h_1 r hr => exact boundTo_absorb hload _
  case h_2 result hr =>
    dsimp only [ofAnswer, BoundTo]
    rwa [Slot.loads_settle]
  case h_3 hr =>
    rw [List.getElem?_eq_none_iff] at hr
    omega

theorem lt_length_poll_fresh {s : Slot τ} {load : Nat} (h : s.attached? = some load)
    (hloading : s.state = .loading load → load < s.loads.length) (live : Nat) :
    load < (s.poll live .fresh).slot.loads.length := by
  unfold Slot.attached? at h
  split at h
  case h_1 => cases h
  case h_2 current hs =>
    cases h
    rcases s.length_loads_poll live .fresh with ⟨-, hlen⟩ | ⟨-, hlen⟩ <;>
      have := hloading hs <;> omega
  case h_3 hs =>
    cases h
    rcases s.length_loads_poll live .fresh with ⟨-, hlen⟩ | ⟨hother, -⟩
    · omega
    · exact absurd ⟨rfl, hs⟩ hother

theorem boundTo_poll_fresh {s : Slot τ} {load : Nat} (h : s.attached? = some load)
    (hloading : s.state = .loading load → load < s.loads.length) (live : Nat) :
    (ofAnswer (s.poll live .fresh).answer).BoundTo (s.poll live .fresh).slot load := by
  cases hs : s.state with
  | ready table =>
    simp only [Slot.attached?, hs] at h
    cases h
  | loading current =>
    simp only [Slot.attached?, hs, Option.some_inj] at h
    subst h
    simp only [Slot.poll, hs]
    exact boundTo_pollLoad (hloading hs) live
  | empty =>
    simp only [Slot.attached?, hs, Option.some_inj] at h
    subst h
    simp only [Slot.poll, hs]
    exact boundTo_absorb (by simp) _

theorem BoundTo.mono {s s' : Slot τ} {load : Nat} {t : Ticket τ} (h : t.BoundTo s load)
    (hs : ∀ (i : Nat) (result : LoadResult τ), s.loads[i]? = some (.finished result) →
      s'.loads[i]? = some (.finished result)) : t.BoundTo s' load := by
  cases t with
  | pending request => exact h
  | done result => exact hs load result h
  | dropped => trivial

end Ticket

namespace SlotRun

theorem step_poll {run : SlotRun τ} {ticket : Nat} {request : Request}
    (h : run.tickets[ticket]? = some (.pending request)) (live : Nat) :
    (run.step (.poll ticket live)).slot = (run.slot.poll live request).slot ∧
      (run.step (.poll ticket live)).tickets[ticket]? =
        some (.ofAnswer (run.slot.poll live request).answer) := by
  have hlt := (List.getElem?_eq_some_iff.mp h).1
  simp only [step, pollTicket, h, List.getElem?_set_self hlt, and_self]

theorem ticket_step_cases (run : SlotRun τ) (action : SlotAction) (ticket : Nat) :
    (run.step action).tickets[ticket]? = run.tickets[ticket]? ∨
      (run.tickets[ticket]? = none ∧
        (run.step action).tickets[ticket]? = some (.pending .fresh)) ∨
      (∃ request, action = .drop ticket ∧ run.tickets[ticket]? = some (.pending request) ∧
        (run.step action).tickets[ticket]? = some .dropped) ∨
      ∃ live request, action = .poll ticket live ∧
        run.tickets[ticket]? = some (.pending request) := by
  cases action with
  | start =>
    rcases Nat.lt_trichotomy ticket run.tickets.length with hlt | rfl | hgt
    · left
      rw [step, List.getElem?_append_left hlt]
    · right; left
      rw [step, List.getElem?_concat_length]
      exact ⟨List.getElem?_eq_none (Nat.le_refl _), rfl⟩
    · left
      rw [step, List.getElem?_eq_none, List.getElem?_eq_none (by omega)]
      rw [List.length_append, List.length_singleton]
      omega
  | reset => exact .inl rfl
  | drop other =>
    rw [step, dropTicket]
    split
    case h_2 => exact .inl rfl
    case h_1 request hr =>
      by_cases he : other = ticket
      · subst he
        right; right; left
        refine ⟨request, rfl, hr, ?_⟩
        rw [List.getElem?_set_self (List.getElem?_eq_some_iff.mp hr).1]
      · left
        rw [List.getElem?_set_ne he]
  | poll other live =>
    rw [step, pollTicket]
    split
    case h_2 => exact .inl rfl
    case h_1 request hr =>
      by_cases he : other = ticket
      · subst he
        exact .inr (.inr (.inr ⟨live, request, rfl, hr⟩))
      · left
        rw [List.getElem?_set_ne he]

theorem finished_step {run : SlotRun τ} {i : Nat} {result : LoadResult τ}
    (hi : run.slot.loads[i]? = some (.finished result)) (action : SlotAction) :
    (run.step action).slot.loads[i]? = some (.finished result) := by
  obtain ⟨hslot, -⟩ | ⟨-, hslot, -⟩ | ⟨_, live, request, -, -, hslot, -⟩ := run.step_cases action
  · rw [hslot, hi]
  · rw [hslot]
    exact hi
  · rw [hslot]
    exact Slot.finished_poll hi live request

theorem length_loads_le_step (run : SlotRun τ) (action : SlotAction) :
    run.slot.loads.length ≤ (run.step action).slot.loads.length := by
  rcases run.length_loads_step action with h | ⟨h, -⟩ <;> omega

def Binds (run : SlotRun τ) (ticket load : Nat) : Prop :=
  load < run.slot.loads.length ∧
    ∃ t, run.tickets[ticket]? = some t ∧ t.BoundTo run.slot load

theorem Binds.step {run : SlotRun τ} {ticket load : Nat} (h : run.Binds ticket load)
    (action : SlotAction) : (run.step action).Binds ticket load := by
  obtain ⟨hload, t, ht, hbound⟩ := h
  refine ⟨Nat.lt_of_lt_of_le hload (run.length_loads_le_step action), ?_⟩
  rcases run.ticket_step_cases action ticket with
    hsame | ⟨hnone, -⟩ | ⟨_, -, -, hdropped⟩ | ⟨live, request, rfl, hr⟩
  · exact ⟨t, by rw [hsame, ht], hbound.mono fun i result hi => finished_step hi action⟩
  · rw [ht] at hnone
    cases hnone
  · exact ⟨.dropped, hdropped, trivial⟩
  · rw [ht] at hr
    cases hr
    cases hbound
    obtain ⟨hslot, hpolled⟩ := step_poll ht live
    refine ⟨_, hpolled, ?_⟩
    rw [hslot]
    exact Ticket.boundTo_pollLoad hload live

theorem Binds.after {run : SlotRun τ} {ticket load : Nat} (h : run.Binds ticket load)
    (actions : List SlotAction) : (run.after actions).Binds ticket load := by
  induction actions generalizing run with
  | nil => exact h
  | cons action actions ih => exact ih (h.step action)

theorem done_after {run : SlotRun τ} {ticket : Nat} {result : LoadResult τ}
    (h : run.tickets[ticket]? = some (.done result)) (actions : List SlotAction) :
    (run.after actions).tickets[ticket]? = some (.done result) := by
  induction actions generalizing run with
  | nil => exact h
  | cons action actions ih =>
    apply ih
    rcases run.ticket_step_cases action ticket with
      hsame | ⟨hnone, -⟩ | ⟨_, -, hr, -⟩ | ⟨_, _, -, hr⟩
    · rw [hsame, h]
    · rw [h] at hnone
      cases hnone
    · rw [h] at hr
      cases hr
    · rw [h] at hr
      cases hr

/-- The first poll of a request among some actions, with the slot as that poll finds it. -/
inductive FirstPoll (ticket : Nat) : SlotRun τ → List SlotAction → Slot τ → Prop where
  | now (run : SlotRun τ) (live : Nat) (actions : List SlotAction) :
      run.tickets[ticket]? = some (.pending .fresh) →
      FirstPoll ticket run (.poll ticket live :: actions) run.slot
  | later (run : SlotRun τ) (action : SlotAction) (actions : List SlotAction) (s : Slot τ) :
      FirstPoll ticket (run.step action) actions s → FirstPoll ticket run (action :: actions) s

def Unpolled (run : SlotRun τ) (ticket : Nat) : Prop :=
  ∀ t, run.tickets[ticket]? = some t → t = .pending .fresh ∨ t = .dropped

theorem Unpolled.step {run : SlotRun τ} {ticket : Nat} (h : run.Unpolled ticket)
    (action : SlotAction) :
    (run.step action).Unpolled ticket ∨
      run.tickets[ticket]? = some (.pending .fresh) ∧ ∃ live, action = .poll ticket live := by
  rcases run.ticket_step_cases action ticket with
    hsame | ⟨-, hfresh⟩ | ⟨_, -, -, hdropped⟩ | ⟨live, request, haction, hr⟩
  · left
    intro t ht
    exact h t (by rw [← hsame, ht])
  · left
    intro t ht
    rw [hfresh] at ht
    cases ht
    exact .inl rfl
  · left
    intro t ht
    rw [hdropped] at ht
    cases ht
    exact .inr rfl
  · right
    rcases h _ hr with he | he <;> cases he
    exact ⟨hr, live, haction⟩

theorem exists_firstPoll {run : SlotRun τ} {ticket : Nat} (h : run.Unpolled ticket)
    {actions : List SlotAction} {result : LoadResult τ}
    (hdone : (run.after actions).tickets[ticket]? = some (.done result)) :
    ∃ s, FirstPoll ticket run actions s := by
  induction actions generalizing run with
  | nil => rcases h _ hdone with he | he <;> cases he
  | cons action actions ih =>
    rcases h.step action with hunpolled | ⟨hfresh, live, rfl⟩
    · obtain ⟨s, hs⟩ := ih hunpolled hdone
      exact ⟨s, .later run action actions s hs⟩
    · exact ⟨run.slot, .now run live actions hfresh⟩

theorem FirstPoll.ready {run : SlotRun τ} {ticket : Nat} {actions : List SlotAction} {s : Slot τ}
    (h : FirstPoll ticket run actions s) {t : Loaded τ} (ht : s.state = .ready t) :
    (run.after actions).tickets[ticket]? = some (.done (.ok t)) := by
  induction h with
  | now run live actions hfresh =>
    have hpolled := (step_poll hfresh live).2
    rw [Slot.poll] at hpolled
    simp only [ht] at hpolled
    exact done_after hpolled actions
  | later run action actions s _ ih => exact ih ht

theorem follows_step {run : SlotRun τ} (h : run.slot.Follows run.floor) (action : SlotAction) :
    (run.step action).slot.Follows (run.step action).floor := by
  apply after_of_poll (fun floor s => s.Follows floor) _ _ run [action] h
  · intro floor s live request h
    exact h.poll live request
  · intro floor s _
    exact .reset s

theorem FirstPoll.binds {run : SlotRun τ} {ticket : Nat} {actions : List SlotAction} {s : Slot τ}
    (h : FirstPoll ticket run actions s) (hrun : run.slot.Follows run.floor) {load : Nat}
    (hload : s.attached? = some load) : (run.after actions).Binds ticket load := by
  induction h with
  | now run live actions hfresh =>
    -- a slot that waits for a load has begun it, so that the request cannot get lost
    have hloading : run.slot.state = .loading load → load < run.slot.loads.length := by
      intro hstate
      obtain ⟨-, hlen, -⟩ := hrun.of_loading hstate
      omega
    obtain ⟨hslot, hpolled⟩ := step_poll hfresh live
    have hbinds : (run.step (.poll ticket live)).Binds ticket load := by
      rw [Binds, hslot]
      exact ⟨Ticket.lt_length_poll_fresh hload hloading live, _, hpolled,
        Ticket.boundTo_poll_fresh hload hloading live⟩
    exact hbinds.after actions
  | later run action actions s _ ih => exact ih (follows_step hrun action) hload

end SlotRun

/-- However requests are started, polled and dropped and the slot is reset: a request that has ended
has been polled for a first time. If it found a table then, it has that table, and otherwise what
the load ended with that it attached to. So all that attach to one load have the same result. -/
theorem requests_agree (table : TableId) (strategies : List (Strategy τ))
    (actions : List SlotAction) :
    let start := SlotRun.ofStrategies table strategies
    let run := start.after actions
    (∀ (ticket : Nat) (result : LoadResult τ), run.tickets[ticket]? = some (.done result) →
        (∃ s, SlotRun.FirstPoll ticket start actions s) ∧
        ∀ s, SlotRun.FirstPoll ticket start actions s →
          (∀ t, s.state = .ready t → result = .ok t) ∧
          ((∀ t, s.state ≠ .ready t) → ∃ load, s.attached? = some load ∧
            run.slot.loads[load]? = some (.finished result))) ∧
      ∀ (ticket ticket' : Nat) (s s' : Slot τ) (load : Nat) (result result' : LoadResult τ),
        SlotRun.FirstPoll ticket start actions s → SlotRun.FirstPoll ticket' start actions s' →
        s.attached? = some load → s'.attached? = some load →
        run.tickets[ticket]? = some (.done result) → run.tickets[ticket']? = some (.done result') →
        result = result' := by
  intro start run
  have hstart : start.slot.Follows start.floor := .idle rfl rfl
  -- what a request ends with stands in the load that it attached to
  have hresult : ∀ (ticket : Nat) (s : Slot τ) (load : Nat) (result : LoadResult τ),
      SlotRun.FirstPoll ticket start actions s → s.attached? = some load →
      run.tickets[ticket]? = some (.done result) →
      run.slot.loads[load]? = some (.finished result) := by
    intro ticket s load result hs hload hdone
    obtain ⟨-, t, ht, hbound⟩ := hs.binds hstart hload
    rw [hdone] at ht
    cases ht
    exact hbound
  refine ⟨?_, ?_⟩
  · intro ticket result hdone
    have hunpolled : start.Unpolled ticket := by
      intro t ht
      simp [start, SlotRun.ofStrategies] at ht
    refine ⟨SlotRun.exists_firstPoll hunpolled hdone, ?_⟩
    intro s hs
    constructor
    · intro t ht
      have hready := hs.ready ht
      rw [hdone] at hready
      cases hready
      rfl
    · intro hnone
      obtain ⟨load, hload⟩ := Slot.exists_attached hnone
      exact ⟨load, hload, hresult ticket s load result hs hload hdone⟩
  · intro ticket ticket' s s' load result result' hs hs' hload hload' hdone hdone'
    have hended := hresult ticket s load result hs hload hdone
    rw [hresult ticket' s' load result' hs' hload' hdone'] at hended
    cases hended
    rfl

def waitingRun : List SlotAction :=
  [.start, .poll 0 1, .start, .poll 1 1, .reset, .start, .poll 2 1, .poll 0 1]

theorem requests_agree_waiting :
    let run := (SlotRun.ofStrategies .dictionary [Strategy.slow]).after waitingRun
    run.slot.state = .loading 1 ∧ run.slot.loads[0]? = some (.finished (.ok ⟨0, 0⟩)) ∧
      ∃ result, run.tickets[0]? = some (.done result) ∧ run.tickets[1]? = some (.done result) ∧
        run.slot.loads[0]? = some (.finished result) := by
  intro run
  obtain ⟨hresult, hagree⟩ := requests_agree .dictionary [Strategy.slow] waitingRun
  have hfirst : SlotRun.FirstPoll 0 (.ofStrategies .dictionary [Strategy.slow]) waitingRun
      (SlotRun.after (.ofStrategies .dictionary [Strategy.slow]) [.start]).slot :=
    .later _ _ _ _ (.now _ _ _ rfl)
  have hsecond : SlotRun.FirstPoll 1 (.ofStrategies .dictionary [Strategy.slow]) waitingRun
      (SlotRun.after (.ofStrategies .dictionary [Strategy.slow]) [.start, .poll 0 1, .start]).slot :=
    .later _ _ _ _ (.later _ _ _ _ (.later _ _ _ _ (.now _ _ _ rfl)))
  have hdone : run.tickets[0]? = some (.done (.ok ⟨0, 0⟩)) := rfl
  have hdone' : run.tickets[1]? = some (.done (.ok ⟨0, 0⟩)) := rfl
  obtain ⟨load, hload, hended⟩ := ((hresult 0 _ hdone).2 _ hfirst).2 (by intro t ht; cases ht)
  have hzero : load = 0 := (Option.some_inj.mp hload).symm
  subst hzero
  have hsame := hagree 0 1 _ _ 0 _ _ hfirst hsecond rfl rfl hdone hdone'
  exact ⟨rfl, hended, _, hdone, hsame ▸ hdone', hended⟩

end FormCompiler
