import FormCompiler.Proofs.Cache.Attempts
import FormCompiler.Proofs.Cache.Progress
import FormCompiler.Proofs.Cache.Stability

namespace FormCompiler

variable {τ : Type}

namespace SlotRun

theorem length_loads_le_after (run : SlotRun τ) (actions : List SlotAction) :
    run.slot.loads.length ≤ (run.after actions).slot.loads.length := by
  induction actions generalizing run with
  | nil => exact Nat.le_refl _
  | cons action actions ih => exact Nat.le_trans (run.length_loads_le_step action) (ih _)

theorem finished_after {run : SlotRun τ} {i : Nat} {result : LoadResult τ}
    (hi : run.slot.loads[i]? = some (.finished result)) (actions : List SlotAction) :
    (run.after actions).slot.loads[i]? = some (.finished result) := by
  induction actions generalizing run with
  | nil => exact hi
  | cons action actions ih => exact ih (finished_step hi action)

theorem FirstPoll.exists_before {run : SlotRun τ} {ticket : Nat} {actions : List SlotAction}
    {s : Slot τ} (h : FirstPoll ticket run actions s) :
    ∃ before live later, actions = before ++ .poll ticket live :: later ∧
      (run.after before).slot = s ∧
      (run.after before).tickets[ticket]? = some (.pending .fresh) := by
  induction h with
  | now run live actions hfresh => exact ⟨[], live, actions, rfl, rfl, hfresh⟩
  | later run action actions s _ ih =>
    obtain ⟨before, live, later, rfl, hslot, hfresh⟩ := ih
    exact ⟨action :: before, live, later, rfl, hslot, hfresh⟩

theorem account_since {table : TableId} {strategies : List (Strategy τ)} {run : SlotRun τ}
    {past : List (Nat × LoadEvent)} (h : run.slot.Accounted table strategies past)
    (later : List SlotAction) {load : Nat} (hload : run.slot.loads.length ≤ load) {l : Load τ}
    (hl : (run.after later).slot.loads[load]? = some l) :
    l.Account table load strategies (eventsOf load (run.journal later)) := by
  have haccount := (accounted_after h later).account load l hl
  have hpast : eventsOf load past = [] :=
    eventsOf_eq_nil fun entry hentry =>
      Nat.ne_of_lt (Nat.lt_of_lt_of_le (h.begun entry hentry) hload)
  rwa [eventsOf_append, hpast, List.nil_append] at haccount

end SlotRun

/-- However requests are started, polled and dropped and the slot is reset: a load tries its
strategies in their order, each after all before it have failed, and ends with the first table or
with all failures. A request that is polled again and again ends. What a failed load has ended with
goes to no request that is polled for the first time later: that one has the table it finds, or what
another load ends with, and a load that it begins tries all strategies again. -/
theorem failures_not_kept (table : TableId) (strategies : List (Strategy τ))
    (actions : List SlotAction) :
    let start := SlotRun.ofStrategies table strategies
    let run := start.after actions
    (∀ (load : Nat) (l : Load τ), run.slot.loads[load]? = some l →
        l.Account table load strategies (eventsOf load (start.journal actions))) ∧
      (∀ (schedule : Nat → SlotAction) (ticket n : Nat) (request : Request),
        (run.upTo schedule n).tickets[ticket]? = some (.pending request) →
        (∀ i, ∃ m live, i ≤ m ∧ schedule m = .poll ticket live) →
        (∀ i, schedule i ≠ .drop ticket) →
        ∃ m result, (run.upTo schedule m).tickets[ticket]? = some (.done result)) ∧
      ∀ (load : Nat) (error : LoadError), run.slot.loads[load]? = some (.finished (.error error)) →
        ∀ ticket, run.Unpolled ticket → ∀ later,
          (∀ result, (run.after later).tickets[ticket]? = some (.done result) →
            ∃ s, SlotRun.FirstPoll ticket run later s) ∧
          ∀ s, SlotRun.FirstPoll ticket run later s →
            (∀ t, s.state = .ready t → t.load ≠ load ∧
              (run.after later).tickets[ticket]? = some (.done (.ok t))) ∧
            ∀ other, s.attached? = some other → other ≠ load ∧
              (∀ result, (run.after later).tickets[ticket]? = some (.done result) →
                (run.after later).slot.loads[other]? = some (.finished result)) ∧
              (s.state = .empty → ∃ l, (run.after later).slot.loads[other]? = some l ∧
                l.Account table other strategies (eventsOf other (run.journal later))) := by
  intro start run
  have haccounted : run.slot.Accounted table strategies (start.journal actions) :=
    SlotRun.accounted_after (SlotRun.accounted_start table strategies) actions
  have hrun : run.slot.Follows run.floor := SlotRun.follows_after table strategies actions
  refine ⟨haccounted.account, ?_, ?_⟩
  · intro schedule ticket n request hpending hfair hkept
    exact SlotRun.ends_of_pending hfair hkept hpending
  · intro load error herror ticket hunpolled later
    refine ⟨fun result hdone => SlotRun.exists_firstPoll hunpolled hdone, ?_⟩
    intro s hs
    obtain ⟨before, live, after, -, rfl, -⟩ := hs.exists_before
    -- the load that has failed still stands there, and the slot follows another one
    have hfailed := SlotRun.finished_after herror before
    have hfollows : (run.after before).slot.Follows (run.after before).floor := by
      rw [← SlotRun.after_append]
      exact SlotRun.follows_after table strategies (actions ++ before)
    have hnumbered : (run.after before).slot.Numbered := by
      rw [← SlotRun.after_append]
      exact SlotRun.numbered_after table strategies (actions ++ before)
    constructor
    · intro t ht
      refine ⟨?_, hs.ready ht⟩
      rintro rfl
      obtain ⟨-, hload⟩ := hfollows.of_ready hnumbered ht
      rw [hfailed] at hload
      cases hload
    · intro other hother
      obtain ⟨hlt, t, ht, hbound⟩ := hs.binds hrun hother
      refine ⟨?_, ?_, ?_⟩
      · rintro rfl
        have hgood := (hfollows.of_attached hother).2 _ hfailed
        cases hgood
      · intro result hdone
        rw [hdone] at ht
        cases ht
        exact hbound
      · intro hempty
        rw [Slot.attached?, hempty] at hother
        cases hother
        have hbegun := run.length_loads_le_after before
        have hl := List.getElem?_eq_getElem hlt
        exact ⟨_, hl, SlotRun.account_since haccounted later hbegun hl⟩

def Strategy.recovering : Strategy Nat where
  name := "recovering"
  attempt n := { delay := .polls 1, outcome := if n = 0 then .error ⟨["down"]⟩ else .ok n }

def Strategy.closed : Strategy Nat where
  name := "closed"
  attempt _ := { delay := .polls 0, outcome := .error ⟨["closed"]⟩ }

def unsteadyStrategies : List (Strategy Nat) := [.recovering, .closed]

def failingRun : List SlotAction := [.start, .poll 0 1, .poll 0 1]

def recoveringRun : List SlotAction := [.start, .poll 1 1, .poll 1 1]

theorem failures_not_kept_recovering :
    let run := (SlotRun.ofStrategies .dictionary unsteadyStrategies).after failingRun
    let error := LoadError.unavailable .dictionary
      [⟨"recovering", ⟨["down"]⟩⟩, ⟨"closed", ⟨["closed"]⟩⟩]
    run.slot.loads[0]? = some (.finished (.error error)) ∧
      Load.Account .dictionary 0 unsteadyStrategies
        (eventsOf 0 ((SlotRun.ofStrategies .dictionary unsteadyStrategies).journal failingRun))
        (.finished (.error error)) ∧
      (run.after recoveringRun).tickets[1]? = some (.done (.ok ⟨1, 1⟩)) ∧
      (∃ other, other ≠ 0 ∧
        (run.after recoveringRun).slot.loads[other]? = some (.finished (.ok ⟨1, 1⟩)) ∧
        ∃ l, (run.after recoveringRun).slot.loads[other]? = some l ∧
          l.Account .dictionary other unsteadyStrategies
            (eventsOf other (run.journal recoveringRun))) ∧
      ∃ m result, (((SlotRun.ofStrategies .dictionary unsteadyStrategies).after [.start]).upTo
        (fun _ => .poll 0 1) m).tickets[0]? = some (.done result) := by
  dsimp only
  obtain ⟨haccount, -, hlater⟩ := failures_not_kept .dictionary unsteadyStrategies failingRun
  obtain ⟨-, hends, -⟩ := failures_not_kept .dictionary unsteadyStrategies [.start]
  refine ⟨rfl, haccount 0 _ rfl, rfl, ?_, ?_⟩
  · have hunpolled :
        ((SlotRun.ofStrategies .dictionary unsteadyStrategies).after failingRun).Unpolled 1 :=
      fun t ht => by cases ht
    obtain ⟨-, hfirst⟩ := hlater 0 _ rfl 1 hunpolled recoveringRun
    obtain ⟨hother, hresult, hbegun⟩ := (hfirst _ (.later _ _ _ _ (.now _ _ _ rfl))).2 1 rfl
    exact ⟨1, hother, hresult _ rfl, hbegun rfl⟩
  · apply hends (fun _ => .poll 0 1) 0 0 .fresh rfl
    · exact fun i => ⟨i, 1, Nat.le_refl i, rfl⟩
    · intro i h
      cases h

end FormCompiler
