import FormCompiler.Cache.Activity
import FormCompiler.Cache.Slot
import FormCompiler.Table.Lookup

namespace FormCompiler

inductive Event (φ : Type) where
  | started (table : TableId) (strategy : Nat)
  | called (function : φ) (params : Json)
  | noticed (notice : Notice)

namespace Event

variable {φ : Type}

def ofLoad (table : TableId) : LoadEvent → Event φ
  | .started strategy => .started table strategy
  | .noticed notice => .noticed notice

def notice? : Event φ → Option Notice
  | .noticed notice => some notice
  | _ => none

end Event

structure Cache (φ : Type) where
  dictionaries : Slot Json
  lookups : Slot (LookupTable φ)
  history : List (Event φ) := []

namespace Cache

variable {φ : Type}

def ofStrategies (dictionaries : List (Strategy Json)) (lookups : List (Strategy (LookupTable φ))) :
    Cache φ where
  dictionaries := { table := .dictionary, strategies := dictionaries }
  lookups := { table := .lookup, strategies := lookups }

def reset (c : Cache φ) : Cache φ :=
  { c with dictionaries := c.dictionaries.reset, lookups := c.lookups.reset }

def isLoaded (c : Cache φ) : TableId → Bool
  | .dictionary => c.dictionaries.isLoaded
  | .lookup => c.lookups.isLoaded

def record (c : Cache φ) (events : List (Event φ)) : Cache φ :=
  { c with history := c.history ++ events }

def note (c : Cache φ) (notices : List Notice) : Cache φ := c.record (notices.map .noticed)

def pollDictionary (live : Nat) (c : Cache φ) (r : Request) :
    Cache φ × (Request ⊕ LoadResult Json) :=
  let turn := c.dictionaries.poll live r
  ({ c with dictionaries := turn.slot }.record (turn.events.map (Event.ofLoad .dictionary)),
    turn.answer)

def pollLookup (live : Nat) (c : Cache φ) (r : Request) :
    Cache φ × (Request ⊕ LoadResult (LookupTable φ)) :=
  let turn := c.lookups.poll live r
  ({ c with lookups := turn.slot }.record (turn.events.map (Event.ofLoad .lookup)), turn.answer)

def backlog (c : Cache φ) : Nat := c.dictionaries.backlog + c.lookups.backlog

def owed (c : Cache φ) : Nat := c.dictionaries.owed + c.lookups.owed

end Cache

def Request.stage : Request → Nat
  | .fresh => 1
  | .waiting _ => 0

namespace Slot

variable {τ : Type}

theorem poll_progress {s : Slot τ} {live : Nat} {r r' : Request}
    (h : (s.poll live r).answer = .inl r') :
    r'.stage < r.stage ∨ r'.stage = r.stage ∧
      ((s.poll live r).slot.backlog < s.backlog ∨
        (s.poll live r).slot.backlog = s.backlog ∧ (s.poll live r).slot.owed < s.owed) := by
  cases r with
  | fresh => obtain ⟨load, rfl⟩ := poll_fresh_inl h; exact .inl (by simp [Request.stage])
  | waiting load =>
    obtain ⟨rfl, hdec⟩ := pollLoad_decreases h
    exact .inr ⟨rfl, hdec⟩

end Slot

namespace Cache

variable {φ : Type}

def dictionaryRequests : Activity (Cache φ) Request (LoadResult Json) where
  poll := pollDictionary
  stage := Request.stage
  polls := fun _ => 0
  backlog := backlog
  owed := owed
  progress := by
    intro live c r r' h
    have := Slot.poll_progress h
    simp only [pollDictionary, record, backlog, owed]
    omega

def lookupRequests : Activity (Cache φ) Request (LoadResult (LookupTable φ)) where
  poll := pollLookup
  stage := Request.stage
  polls := fun _ => 0
  backlog := backlog
  owed := owed
  progress := by
    intro live c r r' h
    have := Slot.poll_progress h
    simp only [pollLookup, record, backlog, owed]
    omega

end Cache

end FormCompiler
