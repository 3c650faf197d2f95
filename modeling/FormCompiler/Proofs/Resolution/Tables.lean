import FormCompiler.Proofs.Cache.Sharing
import FormCompiler.Proofs.Resolution.Calls
import FormCompiler.Proofs.Resolution.History

namespace FormCompiler

variable {φ τ : Type}

def Event.isStart (table : TableId) (position : Nat) : Event φ → Bool
  | .started table' i => table' == table && i == position
  | _ => false

theorem Event.countP_ofLoad (table table' : TableId) (position : Nat) (events : List LoadEvent) :
    (events.map (Event.ofLoad (φ := φ) table')).countP (Event.isStart table position) =
      if table' = table then events.countP (LoadEvent.isStart position) else 0 := by
  rw [List.countP_map]
  split
  case isTrue h =>
    apply List.countP_congr
    intro e _
    cases e <;> simp [Event.ofLoad, Event.isStart, LoadEvent.isStart, h]
  case isFalse h =>
    rw [List.countP_eq_zero]
    intro e _
    cases e <;> simp [Event.ofLoad, Event.isStart, h]

theorem Event.countP_calls (table : TableId) (position : Nat) (calls : List (φ × Json))
    (notices : List Notice) :
    (calls.map (fun m : φ × Json => Event.called m.1 m.2) ++ notices.map Event.noticed).countP
      (Event.isStart table position) = 0 := by
  rw [List.countP_eq_zero]
  intro e he
  rcases List.mem_append.mp he with he | he
  · obtain ⟨_, -, rfl⟩ := List.mem_map.mp he
    exact Bool.false_ne_true
  · obtain ⟨_, -, rfl⟩ := List.mem_map.mp he
    exact Bool.false_ne_true

structure Cache.Sound (w : Supply φ) (c : Cache φ) : Prop where
  dictionaries : ∃ floor, c.dictionaries.Sound .dictionary w.dictionaries floor
  lookups : ∃ floor, c.lookups.Sound .lookup w.lookups floor

namespace Cache.Sound

variable {w : Supply φ} {c : Cache φ}

theorem init (w : Supply φ) : (Cache.ofStrategies w.dictionaries w.lookups).Sound w :=
  ⟨⟨0, .init _ _⟩, ⟨0, .init _ _⟩⟩

theorem reset (h : c.Sound w) : c.reset.Sound w := by
  obtain ⟨⟨_, hdictionaries⟩, ⟨_, hlookups⟩⟩ := h
  exact ⟨⟨_, hdictionaries.reset⟩, ⟨_, hlookups.reset⟩⟩

theorem pollDictionary (h : c.Sound w) (live : Nat) (request : Request) :
    ∃ floor, (c.dictionaries.poll live request).slot.Sound .dictionary w.dictionaries floor := by
  obtain ⟨floor, hslot⟩ := h.dictionaries
  exact ⟨floor, hslot.poll live request⟩

theorem pollLookup (h : c.Sound w) (live : Nat) (request : Request) :
    ∃ floor, (c.lookups.poll live request).slot.Sound .lookup w.lookups floor := by
  obtain ⟨floor, hslot⟩ := h.lookups
  exact ⟨floor, hslot.poll live request⟩

theorem pollTask [DecidableEq φ] (h : c.Sound w) (backend : Backend φ) (live : Nat) (t : Task) :
    (t.poll backend live c).1.Sound w := by
  cases t with
  | dictionary request => exact ⟨h.pollDictionary live request, h.lookups⟩
  | lookup request => exact ⟨h.dictionaries, h.pollLookup live request⟩
  | options r =>
    obtain ⟨hdictionaries, hlookups⟩ := r.poll_slots backend live c
    constructor
    · rw [Task.poll, hdictionaries]
      split
      · exact h.pollDictionary live _
      · exact h.dictionaries
    · rw [Task.poll, hlookups]
      split
      · exact h.pollLookup live _
      · exact h.lookups

end Cache.Sound

variable [DecidableEq φ]

theorem Supply.Reaches.sound {w : Supply φ} {c : Cache φ} {tasks : List Task}
    (h : w.Reaches c tasks) : c.Sound w := by
  induction h with
  | init => exact .init w
  | note notices _ ih => exact ⟨ih.dictionaries, ih.lookups⟩
  | begin fresh _ _ ih => exact ih
  | poll before after t live _ ih => exact ih.pollTask w.backend live t
  | drop before after t _ ih => exact ih
  | reset _ ih => exact ih.reset

structure TableView (φ τ : Type) [DecidableEq φ] where
  table : TableId
  slot : Cache φ → Slot τ
  request? : Resolution → Option Request
  isSome_request? : ∀ r, (request? r).isSome = true ↔ r.table? = some table
  fresh_request : ∀ r request, (Task.options r).Fresh → request? r = some request → request = .fresh
  slot_note : ∀ c notices, slot (Cache.note c notices) = slot c
  slot_poll : ∀ backend live c r, slot (Resolution.poll backend live c r).1 =
    match request? r with
    | some request => ((slot c).poll live request).slot
    | none => slot c
  request_poll : ∀ backend live c r, (Resolution.poll backend live c r).2.getLeft?.bind request? =
    (request? r).bind fun request => ((slot c).poll live request).answer.getLeft?
  countP_loadEvents : ∀ p position,
    (Resolution.loadEvents p).countP (Event.isStart table position) =
    match request? p.activity with
    | some request =>
      ((slot p.state).poll p.live request).events.countP (LoadEvent.isStart position)
    | none => 0
  sound : ∀ w c, Cache.Sound w c → ∃ strategies floor, (slot c).Sound table strategies floor

namespace Resolution

def dictionaryRequest? : Resolution → Option Request
  | .dictionary _ request => some request
  | _ => none

def lookupRequest? : Resolution → Option Request
  | .lookup _ _ request => some request
  | _ => none

theorem isSome_dictionaryRequest? (r : Resolution) :
    r.dictionaryRequest?.isSome = true ↔ r.table? = some .dictionary := by
  cases r <;> simp [dictionaryRequest?, table?]

theorem isSome_lookupRequest? (r : Resolution) :
    r.lookupRequest?.isSome = true ↔ r.table? = some .lookup := by
  cases r <;> simp [lookupRequest?, table?]

theorem bind_request_eq_none {request? : Resolution → Option Request} {table : TableId}
    (hrequest : ∀ r, (request? r).isSome = true ↔ r.table? = some table)
    {e : Resolution ⊕ ChoiceList} (h : tableOf e ≠ some table) :
    e.getLeft?.bind request? = none := by
  cases e with
  | inr options => rfl
  | inl r =>
    rw [Sum.getLeft?_inl, Option.bind_some, ← Option.not_isSome_iff_eq_none, hrequest]
    exact h

theorem dictionaryRequest?_poll (backend : Backend φ) (live : Nat) (c : Cache φ) (r : Resolution) :
    (poll backend live c r).2.getLeft?.bind dictionaryRequest? =
      r.dictionaryRequest?.bind fun request =>
        (c.dictionaries.poll live request).answer.getLeft? := by
  cases r with
  | dictionary path request =>
    cases ha : (c.dictionaries.poll live request).answer with
    | inl request' => simp [poll, Cache.pollDictionary, ha, dictionaryRequest?]
    | inr result => simp [poll, Cache.pollDictionary, ha, dictionaryRequest?, settle_answer]
  | lookup path params request =>
    apply bind_request_eq_none isSome_dictionaryRequest?
    intro htable
    cases tableOf_poll htable
  | call path polls outcome =>
    apply bind_request_eq_none isSome_dictionaryRequest?
    intro htable
    cases tableOf_poll htable

theorem lookupRequest?_poll (backend : Backend φ) (live : Nat) (c : Cache φ) (r : Resolution) :
    (poll backend live c r).2.getLeft?.bind lookupRequest? =
      r.lookupRequest?.bind fun request => (c.lookups.poll live request).answer.getLeft? := by
  cases r with
  | dictionary path request =>
    apply bind_request_eq_none isSome_lookupRequest?
    intro htable
    cases tableOf_poll htable
  | lookup path params request =>
    cases ha : (c.lookups.poll live request).answer with
    | inl request' => simp [poll, Cache.pollLookup, ha, lookupRequest?]
    | inr result =>
      have hanswer : answer? ⟨0, live, c, .lookup path params request⟩ = some result :=
        Sum.getRight?_eq_some_iff.mpr ha
      have hnone := tableOf_poll_of_answer backend hanswer
      simp only [lookupRequest?, Option.bind_some, ha, Sum.getLeft?_inr]
      apply bind_request_eq_none isSome_lookupRequest?
      rw [hnone]
      simp
  | call path polls outcome =>
    apply bind_request_eq_none isSome_lookupRequest?
    intro htable
    cases tableOf_poll htable

omit [DecidableEq φ] in
theorem countP_loadEvents (p : PollRecord (Cache φ) Resolution) (table : TableId) (position : Nat) :
    (loadEvents p).countP (Event.isStart table position) =
      match table, p.activity with
      | .dictionary, .dictionary _ request =>
        (p.state.dictionaries.poll p.live request).events.countP (LoadEvent.isStart position)
      | .lookup, .lookup _ _ request =>
        (p.state.lookups.poll p.live request).events.countP (LoadEvent.isStart position)
      | _, _ => 0 := by
  unfold loadEvents
  cases p.activity <;> cases table <;> simp only [Event.countP_ofLoad] <;> rfl

end Resolution

namespace TableView

def dictionary : TableView φ Json where
  table := .dictionary
  slot := Cache.dictionaries
  request? := Resolution.dictionaryRequest?
  isSome_request? := Resolution.isSome_dictionaryRequest?
  fresh_request r request hfresh hrequest := by
    cases r <;> cases hrequest
    exact hfresh
  slot_note _ _ := rfl
  slot_poll backend live c r := by
    rw [(Resolution.poll_slots backend live c r).1]
    cases r <;> rfl
  request_poll := Resolution.dictionaryRequest?_poll
  countP_loadEvents p position := by
    rw [Resolution.countP_loadEvents]
    cases p.activity <;> rfl
  sound w c h := by
    obtain ⟨floor, hslot⟩ := h.dictionaries
    exact ⟨_, floor, hslot⟩

def lookup : TableView φ (LookupTable φ) where
  table := .lookup
  slot := Cache.lookups
  request? := Resolution.lookupRequest?
  isSome_request? := Resolution.isSome_lookupRequest?
  fresh_request r request hfresh hrequest := by
    cases r <;> cases hrequest
    exact hfresh
  slot_note _ _ := rfl
  slot_poll backend live c r := by
    rw [(Resolution.poll_slots backend live c r).2]
    cases r <;> rfl
  request_poll := Resolution.lookupRequest?_poll
  countP_loadEvents p position := by
    rw [Resolution.countP_loadEvents]
    cases p.activity <;> rfl
  sound w c h := by
    obtain ⟨floor, hslot⟩ := h.lookups
    exact ⟨_, floor, hslot⟩

end TableView

end FormCompiler
