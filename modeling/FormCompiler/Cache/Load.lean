import FormCompiler.Notice

namespace FormCompiler

/-- How long an operation stays pending: for so many polls, or in the background, for as many polls
as there are activities that wait with it in one round. -/
inductive Delay where
  | polls (n : Nat)
  | background
  deriving DecidableEq, Repr

def Delay.count (live : Nat) : Delay → Nat
  | .polls n => n
  | .background => live

structure Attempt (α : Type) where
  delay : Delay
  outcome : Except Failure α
  notices : List Notice := []

structure Strategy (τ : Type) where
  name : String
  attempt : Nat → Attempt τ

structure Loaded (τ : Type) where
  load : Nat
  table : τ

abbrev LoadResult (τ : Type) := Except LoadError (Loaded τ)

inductive LoadEvent where
  | started (strategy : Nat)
  | noticed (notice : Notice)
  deriving Repr

structure RunningLoad (τ : Type) where
  failures : List StrategyFailure
  strategy : String
  polls : Nat
  attempt : Attempt τ
  untried : List (Nat × Strategy τ)

inductive Load (τ : Type) where
  | running (r : RunningLoad τ)
  | finished (result : LoadResult τ)

structure LoadTurn (τ : Type) where
  load : Load τ
  starts : Nat → Nat
  events : List LoadEvent

def countStart (starts : Nat → Nat) (strategy : Nat) : Nat → Nat :=
  fun i => if i = strategy then starts i + 1 else starts i

structure LoadContext where
  table : TableId
  load : Nat
  live : Nat

namespace LoadTurn

variable {τ : Type}

def after (events : List LoadEvent) (turn : LoadTurn τ) : LoadTurn τ :=
  { turn with events := events ++ turn.events }

end LoadTurn

def Attempt.events {α : Type} (attempt : Attempt α) : List LoadEvent :=
  attempt.notices.map .noticed

namespace Load

variable {τ : Type}

def tryNext (ctx : LoadContext) (starts : Nat → Nat) (failures : List StrategyFailure) :
    List (Nat × Strategy τ) → LoadTurn τ
  | [] =>
    let error := .unavailable ctx.table failures
    ⟨.finished (.error error), starts, [.noticed (.tableUnavailable error)]⟩
  | (i, s) :: rest =>
    let attempt := s.attempt (starts i)
    let starts := countStart starts i
    match attempt.delay.count ctx.live with
    | n + 1 => ⟨.running ⟨failures, s.name, n, attempt, rest⟩, starts, [.started i]⟩
    | 0 =>
      match attempt.outcome with
      | .ok table => ⟨.finished (.ok ⟨ctx.load, table⟩), starts, .started i :: attempt.events⟩
      | .error failure =>
        let failed := ⟨s.name, failure⟩
        (tryNext ctx starts (failures ++ [failed]) rest).after
          (.started i :: attempt.events ++ [.noticed (.strategyFailed ctx.table failed)])

def start (ctx : LoadContext) (starts : Nat → Nat) (strategies : List (Strategy τ)) : LoadTurn τ :=
  if strategies.isEmpty then
    let error := .noStrategies ctx.table
    ⟨.finished (.error error), starts, [.noticed (.tableUnavailable error)]⟩
  else tryNext ctx starts [] ((List.range strategies.length).zip strategies)

def advance (ctx : LoadContext) (starts : Nat → Nat) (r : RunningLoad τ) : LoadTurn τ :=
  match r.polls with
  | n + 1 => ⟨.running { r with polls := n }, starts, []⟩
  | 0 =>
    match r.attempt.outcome with
    | .ok table => ⟨.finished (.ok ⟨ctx.load, table⟩), starts, r.attempt.events⟩
    | .error failure =>
      let failed := ⟨r.strategy, failure⟩
      (tryNext ctx starts (r.failures ++ [failed]) r.untried).after
        (r.attempt.events ++ [.noticed (.strategyFailed ctx.table failed)])

def backlog : Load τ → Nat
  | .running r => r.untried.length
  | .finished _ => 0

def owed : Load τ → Nat
  | .running r => r.polls
  | .finished _ => 0

theorem backlog_tryNext (ctx : LoadContext) (starts : Nat → Nat) (failures : List StrategyFailure)
    (untried : List (Nat × Strategy τ)) (r : RunningLoad τ)
    (h : (tryNext ctx starts failures untried).load = .running r) :
    r.untried.length < untried.length := by
  induction untried generalizing starts failures with
  | nil => simp [tryNext] at h
  | cons entry rest ih =>
    simp only [tryNext] at h
    split at h
    · cases h; simp
    · split at h
      · simp at h
      · have := ih _ _ h
        simp only [List.length_cons]
        omega

theorem advance_decreases (ctx : LoadContext) (starts : Nat → Nat) (r r' : RunningLoad τ)
    (h : (advance ctx starts r).load = .running r') :
    r'.untried.length < r.untried.length ∨
      r'.untried.length = r.untried.length ∧ r'.polls < r.polls := by
  unfold advance at h
  split at h
  case h_1 n hn => cases h; exact .inr ⟨rfl, by simp [hn]⟩
  case h_2 =>
    split at h
    · simp at h
    · exact .inl (backlog_tryNext _ _ _ _ _ h)

end Load

end FormCompiler
