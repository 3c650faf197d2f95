import FormCompiler.Cache.Basic
import FormCompiler.Form.Field

namespace FormCompiler

structure Reply where
  delay : Nat
  outcome : Except Failure Json

/-- The lookup functions at work: the reply to a function's `n`-th call, counted from zero. -/
abbrev Backend (φ : Type) := φ → Nat → Json → Reply

inductive Resolution where
  | dictionary (path : String) (request : Request)
  | lookup (path : String) (params : Json) (request : Request)
  | call (path : String) (polls : Nat) (outcome : Except Failure Json)

namespace Resolution

variable {φ : Type}

def dictionaryOptions (path : String) :
    LoadResult Json → Except OptionError ChoiceList
  | .error error => .error (.table error)
  | .ok loaded =>
    match loaded.table.at? path with
    | some (.array entries) => .ok (ChoiceList.ofEntries entries)
    | _ => .error (.missingDictionary path)

def responseOptions (path : String) (response : Json) : Except OptionError ChoiceList :=
  match response.get? "code", response.get? "data" with
  | some (.number code), some (.array entries) =>
    if code.isZero then .ok (ChoiceList.ofEntries entries)
    else .error (.unusableResponse path response)
  | _, _ => .error (.unusableResponse path response)

def callOptions (path : String) : Except Failure Json → Except OptionError ChoiceList
  | .error failure => .error (.callFailed path failure)
  | .ok response => responseOptions path response

def target? (path : String) : LoadResult (LookupTable φ) → Except OptionError φ
  | .error error => .error (.table error)
  | .ok loaded =>
    match loaded.table.at? path with
    | some (.function f) => .ok f
    | _ => .error (.notCallable path)

def settle (c : Cache φ) (path : String) :
    Except OptionError ChoiceList → Cache φ × (Resolution ⊕ ChoiceList)
  | .ok options => (c, .inr options)
  | .error error => (c.note [.degraded path error], .inr .empty)

def callCount [DecidableEq φ] (c : Cache φ) (f : φ) : Nat :=
  c.history.countP fun e => match e with
    | .called g _ => g = f
    | _ => false

def startCall [DecidableEq φ] (backend : Backend φ) (c : Cache φ) (path : String) (f : φ)
    (params : Json) : Cache φ × (Resolution ⊕ ChoiceList) :=
  let reply := backend f (callCount c f) params
  let c := c.record [.called f params]
  match reply.delay with
  | n + 1 => (c, .inl (.call path n reply.outcome))
  | 0 => settle c path (callOptions path reply.outcome)

def poll [DecidableEq φ] (backend : Backend φ) (live : Nat) (c : Cache φ) :
    Resolution → Cache φ × (Resolution ⊕ ChoiceList)
  | .dictionary path request =>
    let turn := c.pollDictionary live request
    match turn.2 with
    | .inl request => (turn.1, .inl (.dictionary path request))
    | .inr result => settle turn.1 path (dictionaryOptions path result)
  | .lookup path params request =>
    let turn := c.pollLookup live request
    match turn.2 with
    | .inl request => (turn.1, .inl (.lookup path params request))
    | .inr result =>
      match target? path result with
      | .ok f => startCall backend turn.1 path f params
      | .error error => settle turn.1 path (.error error)
  | .call path (n + 1) outcome => (c, .inl (.call path n outcome))
  | .call path 0 outcome => settle c path (callOptions path outcome)

def stage : Resolution → Nat
  | .dictionary _ request => request.stage
  | .lookup _ _ request => request.stage + 1
  | .call _ _ _ => 0

def polls : Resolution → Nat
  | .call _ n _ => n
  | _ => 0

theorem settle_ne_inl (c : Cache φ) (path : String) (result : Except OptionError ChoiceList)
    (r : Resolution) : (settle c path result).2 ≠ .inl r := by
  cases result <;> simp [settle]

theorem pollDictionary_progress {live : Nat} {c : Cache φ} {r r' : Request}
    (h : (c.pollDictionary live r).2 = .inl r') :
    r'.stage < r.stage ∨ r'.stage = r.stage ∧
      ((c.pollDictionary live r).1.backlog < c.backlog ∨
        (c.pollDictionary live r).1.backlog = c.backlog ∧
          (c.pollDictionary live r).1.owed < c.owed) := by
  simpa [Cache.dictionaryRequests] using Cache.dictionaryRequests.progress live c r r' h

theorem pollLookup_progress {live : Nat} {c : Cache φ} {r r' : Request}
    (h : (c.pollLookup live r).2 = .inl r') :
    r'.stage < r.stage ∨ r'.stage = r.stage ∧
      ((c.pollLookup live r).1.backlog < c.backlog ∨
        (c.pollLookup live r).1.backlog = c.backlog ∧ (c.pollLookup live r).1.owed < c.owed) := by
  simpa [Cache.lookupRequests] using Cache.lookupRequests.progress live c r r' h

theorem poll_progress [DecidableEq φ] (backend : Backend φ) (live : Nat) (c : Cache φ)
    (r r' : Resolution) (h : (poll backend live c r).2 = .inl r') :
    r'.stage < r.stage ∨ r'.stage = r.stage ∧
      ((poll backend live c r).1.backlog < c.backlog ∨
        (poll backend live c r).1.backlog = c.backlog ∧
          (poll backend live c r).1.owed + r'.polls < c.owed + r.polls) := by
  cases r with
  | dictionary path request =>
    simp only [poll] at h ⊢
    split at h
    case h_1 request' hr =>
      cases h
      simpa [hr, stage, polls] using pollDictionary_progress hr
    case h_2 => exact absurd h (settle_ne_inl _ _ _ _)
  | lookup path params request =>
    simp only [poll] at h ⊢
    split at h
    case h_1 request' hr =>
      cases h
      simpa [hr, stage, polls] using pollLookup_progress hr
    case h_2 =>
      split at h
      case h_1 =>
        simp only [startCall] at h
        split at h
        · cases h; exact .inl (by simp [stage])
        · exact absurd h (settle_ne_inl _ _ _ _)
      case h_2 => exact absurd h (settle_ne_inl _ _ _ _)
  | call path n outcome =>
    cases n with
    | zero => exact absurd h (settle_ne_inl _ _ _ _)
    | succ n => cases h; exact .inr ⟨rfl, .inr ⟨rfl, by simp [poll, polls]⟩⟩

def activity [DecidableEq φ] (backend : Backend φ) : Activity (Cache φ) Resolution ChoiceList where
  poll := poll backend
  stage := stage
  polls := polls
  backlog := Cache.backlog
  owed := Cache.owed
  progress := poll_progress backend

def ofSource : Form.OptionSource → Resolution ⊕ ChoiceList
  | .inline choices => .inr (ChoiceList.ofChoices choices)
  | .dictionary path => .inl (.dictionary path .fresh)
  | .lookup path params => .inl (.lookup path params .fresh)

def resolveAll [DecidableEq φ] (backend : Backend φ) (c : Cache φ)
    (sources : List Form.OptionSource) : Cache φ × List ChoiceList :=
  (activity backend).finish c (sources.map ofSource)

def resolveField [DecidableEq φ] (backend : Backend φ) (c : Cache φ) (f : Form.Field) :
    Cache φ × Option ChoiceList :=
  match f.optionSource? with
  | none => (c, none)
  | some source =>
    let resolved := resolveAll backend c [source]
    (resolved.1, resolved.2.head?)

end Resolution

end FormCompiler
