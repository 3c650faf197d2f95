import FormCompiler.Cache.Load

/-!
The slot of one support table. The first request for a table begins a load, later requests wait for
the same one, and a success stays until a reset. A request does nothing before its first poll, and
polling any request polls the load it waits for once.
-/
namespace FormCompiler

inductive SlotState (τ : Type) where
  | empty
  | loading (load : Nat)
  | ready (table : Loaded τ)

structure Slot (τ : Type) where
  table : TableId
  strategies : List (Strategy τ)
  state : SlotState τ := .empty
  loads : List (Load τ) := []
  starts : Nat → Nat := fun _ => 0

inductive Request where
  | fresh
  | waiting (load : Nat)
  deriving DecidableEq, Repr

structure SlotTurn (τ : Type) where
  slot : Slot τ
  answer : Request ⊕ LoadResult τ
  events : List LoadEvent

namespace Slot

variable {τ : Type}

def isLoaded (s : Slot τ) : Bool :=
  match s.state with
  | .ready _ => true
  | _ => false

def reset (s : Slot τ) : Slot τ := { s with state := .empty }

/-- A load that has ended fills the slot, or empties it, unless the slot has moved on. -/
def settle (s : Slot τ) (load : Nat) (result : LoadResult τ) : Slot τ :=
  match s.state with
  | .loading current =>
    if current = load then
      { s with state := match result with
          | .ok table => .ready table
          | .error _ => .empty }
    else s
  | _ => s

def absorb (s : Slot τ) (load : Nat) (turn : LoadTurn τ) : SlotTurn τ :=
  let s := { s with loads := s.loads.set load turn.load, starts := turn.starts }
  match turn.load with
  | .running _ => ⟨s, .inl (.waiting load), turn.events⟩
  | .finished result => ⟨s.settle load result, .inr result, turn.events⟩

def pollLoad (s : Slot τ) (live load : Nat) : SlotTurn τ :=
  match s.loads[load]? with
  | some (.running r) => s.absorb load (Load.advance ⟨s.table, load, live⟩ s.starts r)
  | some (.finished result) => ⟨s.settle load result, .inr result, []⟩
  | none => ⟨s, .inr (.error (.noStrategies s.table)), []⟩

def begin (s : Slot τ) (live : Nat) : SlotTurn τ :=
  let load := s.loads.length
  let turn := Load.start ⟨s.table, load, live⟩ s.starts s.strategies
  absorb { s with state := .loading load, loads := s.loads ++ [turn.load] } load turn

def poll (s : Slot τ) (live : Nat) : Request → SlotTurn τ
  | .waiting load => s.pollLoad live load
  | .fresh =>
    match s.state with
    | .ready table => ⟨s, .inr (.ok table), []⟩
    | .loading load => s.pollLoad live load
    | .empty => s.begin live

def backlog (s : Slot τ) : Nat := s.loads.foldr (Load.backlog · + ·) 0

def owed (s : Slot τ) : Nat := s.loads.foldr (Load.owed · + ·) 0

theorem foldr_set {α : Type} (f : α → Nat) (l : List α) (i : Nat) (old new : α)
    (h : l[i]? = some old) :
    (l.set i new).foldr (f · + ·) 0 + f old = l.foldr (f · + ·) 0 + f new := by
  induction l generalizing i with
  | nil => simp at h
  | cons a l ih =>
    cases i with
    | zero => simp at h; subst h; simp; omega
    | succ i =>
      have := ih i (by simpa using h)
      simp only [List.set_cons_succ, List.foldr_cons]
      omega

theorem absorb_answer_inl {s : Slot τ} {load : Nat} {turn : LoadTurn τ} {request : Request}
    (h : (s.absorb load turn).answer = .inl request) :
    request = .waiting load ∧ (∃ r, turn.load = .running r) ∧
      (s.absorb load turn).slot.loads = s.loads.set load turn.load := by
  unfold absorb at h ⊢
  split at h
  case h_1 r hr => cases h; simp [hr]
  case h_2 => simp at h

theorem pollLoad_decreases {s : Slot τ} {live load : Nat} {request : Request}
    (h : (s.pollLoad live load).answer = .inl request) :
    request = .waiting load ∧
      ((s.pollLoad live load).slot.backlog < s.backlog ∨
        (s.pollLoad live load).slot.backlog = s.backlog ∧
          (s.pollLoad live load).slot.owed < s.owed) := by
  unfold pollLoad at h ⊢
  cases hl : s.loads[load]? with
  | none => simp [hl] at h
  | some entry =>
    cases entry with
    | finished result => simp [hl] at h
    | running r =>
      simp only [hl] at h ⊢
      obtain ⟨hreq, ⟨r', hr'⟩, hloads⟩ := absorb_answer_inl h
      refine ⟨hreq, ?_⟩
      have hdec := Load.advance_decreases _ _ _ _ hr'
      have hb := foldr_set Load.backlog s.loads load (.running r) (.running r') hl
      have ho := foldr_set Load.owed s.loads load (.running r) (.running r') hl
      simp only [backlog, owed, hloads, hr', Load.backlog, Load.owed] at hb ho ⊢
      omega

theorem poll_fresh_inl {s : Slot τ} {live : Nat} {request : Request}
    (h : (s.poll live .fresh).answer = .inl request) : ∃ load, request = .waiting load := by
  simp only [poll] at h
  split at h
  · simp at h
  · exact ⟨_, (pollLoad_decreases h).1⟩
  · exact ⟨_, (absorb_answer_inl h).1⟩

end Slot

end FormCompiler
