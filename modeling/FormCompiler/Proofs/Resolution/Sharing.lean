import FormCompiler.Proofs.Resolution.Tables

namespace FormCompiler

variable {φ τ : Type} [DecidableEq φ]

namespace TableView

variable (V : TableView φ τ)

def requestOf (e : Resolution ⊕ ChoiceList) : Option Request := e.getLeft?.bind V.request?

def answer? (p : PollRecord (Cache φ) Resolution) : Option (LoadResult τ) :=
  (V.request? p.activity).bind fun request =>
    ((V.slot p.state).poll p.live request).answer.getRight?

def answerAt (log : List (PollRecord (Cache φ) Resolution)) (position : Nat) :
    Option (LoadResult τ) :=
  (PollRecord.ofPosition log position).findSome? V.answer?

def asks (p : PollRecord (Cache φ) Resolution) : Bool := V.request? p.activity == some .fresh

def failures (p : PollRecord (Cache φ) Resolution) : Nat := (V.slot p.state).failures

def retries (base : Nat) (p : PollRecord (Cache φ) Resolution) : Bool :=
  V.asks p && (V.slot p.state).isIdle && decide (base < V.failures p)

def record? (p : PollRecord (Cache φ) Resolution) : Option (PollRecord (Slot τ) Request) :=
  (V.request? p.activity).map fun request => ⟨p.position, p.live, V.slot p.state, request⟩

def actions (log : List (PollRecord (Cache φ) Resolution)) : List SlotAction :=
  log.filterMap fun p => (V.request? p.activity).map fun _ => .poll p.position p.live

theorem actions_append (log log' : List (PollRecord (Cache φ) Resolution)) :
    V.actions (log ++ log') = V.actions log ++ V.actions log' := List.filterMap_append

theorem actions_cons_of_some {p : PollRecord (Cache φ) Resolution} {request : Request}
    (h : V.request? p.activity = some request) (log : List (PollRecord (Cache φ) Resolution)) :
    V.actions (p :: log) = .poll p.position p.live :: V.actions log := by
  rw [actions, List.filterMap_cons, h]
  rfl

theorem actions_cons_of_none {p : PollRecord (Cache φ) Resolution}
    (h : V.request? p.activity = none) (log : List (PollRecord (Cache φ) Resolution)) :
    V.actions (p :: log) = V.actions log := by
  rw [actions, List.filterMap_cons, h]
  rfl

theorem reset_not_mem (log : List (PollRecord (Cache φ) Resolution)) : .reset ∉ V.actions log := by
  intro h
  obtain ⟨p, -, hp⟩ := List.mem_filterMap.mp h
  obtain ⟨request, -, he⟩ := Option.map_eq_some_iff.mp hp
  cases he

structure Mirrors (run : SlotRun τ) (x : Cache φ × List (Resolution ⊕ ChoiceList)) : Prop where
  slot_eq : run.slot = V.slot x.1
  pending_iff : ∀ (i : Nat) (request : Request),
    run.tickets[i]? = some (.pending request) ↔ x.2[i]?.bind V.requestOf = some request

variable {V} {run : SlotRun τ} {x y : Cache φ × List (Resolution ⊕ ChoiceList)}
  {backend : Backend φ} {log : List (PollRecord (Cache φ) Resolution)}

theorem Mirrors.poll {c : Cache φ} {entries : List (Resolution ⊕ ChoiceList)}
    (h : V.Mirrors run (c, entries)) {position : Nat} {r : Resolution}
    (hentry : entries[position]? = some (.inl r)) (live : Nat) :
    V.Mirrors (run.after (V.actions [⟨position, live, c, r⟩]))
      ((Resolution.poll backend live c r).1,
        entries.set position (Resolution.poll backend live c r).2) := by
  have hlt := (List.getElem?_eq_some_iff.mp hentry).1
  have hnext := V.request_poll backend live c r
  have hset : ∀ i,
      (entries.set position (Resolution.poll backend live c r).2)[i]?.bind V.requestOf =
      if position = i then (V.request? r).bind fun request =>
        ((V.slot c).poll live request).answer.getLeft?
      else entries[i]?.bind V.requestOf := by
    intro i
    by_cases hi : position = i
    · subst hi
      rw [if_pos rfl, List.getElem?_set_self hlt, Option.bind_some]
      exact hnext
    · rw [if_neg hi, List.getElem?_set_ne hi]
  cases hr : V.request? r with
  | none =>
    -- the slot of the other table is polled, or none, and the run of this one stands still
    rw [V.actions_cons_of_none hr]
    constructor
    · rw [V.slot_poll, hr]
      exact h.slot_eq
    · intro i request
      rw [hset, hr]
      split
      case isTrue hi =>
        subst hi
        have hbefore := h.pending_iff position request
        rw [hentry, Option.bind_some, requestOf, Sum.getLeft?_inl, Option.bind_some, hr] at hbefore
        exact hbefore
      case isFalse => exact h.pending_iff i request
  | some request =>
    have hticket : run.tickets[position]? = some (.pending request) := by
      rw [h.pending_iff, hentry]
      exact hr
    obtain ⟨hslot, hpolled⟩ := SlotRun.step_poll hticket live
    rw [V.actions_cons_of_some hr]
    change V.Mirrors (run.step (.poll position live)) _
    constructor
    · rw [hslot, V.slot_poll, hr, h.slot_eq]
    · intro i request'
      rw [hset, hr]
      split
      case isTrue hi =>
        subst hi
        rw [hpolled, h.slot_eq, Option.bind_some]
        cases ((V.slot c).poll live request).answer <;> simp [Ticket.ofAnswer]
      case isFalse hi =>
        rw [← h.pending_iff, SlotRun.step, SlotRun.pollTicket, hticket]
        dsimp only
        rw [List.getElem?_set_ne hi]

theorem Mirrors.runs (h : (Resolution.activity backend).Runs Eq x log y) (hm : V.Mirrors run x) :
    V.Mirrors (run.after (V.actions log)) y := by
  induction h generalizing run with
  | refl => exact hm
  | @poll s s' entries position live r log y hentry hbetween _ ih =>
    subst hbetween
    rw [← List.singleton_append, V.actions_append, SlotRun.after_append]
    exact ih (hm.poll hentry live)

theorem Mirrors.polls_eq (h : (Resolution.activity backend).Runs Eq x log y)
    (hm : V.Mirrors run x) : run.polls (V.actions log) = log.filterMap V.record? := by
  induction h generalizing run with
  | refl => rfl
  | @poll s s' entries position live r log y hentry hbetween _ ih =>
    subst hbetween
    have hnext := ih (hm.poll hentry live)
    cases hr : V.request? r with
    | none =>
      rw [V.actions_cons_of_none hr] at hnext ⊢
      rw [List.filterMap_cons, record?, hr]
      exact hnext
    | some request =>
      have hticket : run.tickets[position]? = some (.pending request) := by
        rw [hm.pending_iff, hentry]
        exact hr
      rw [V.actions_cons_of_some hr] at hnext ⊢
      rw [SlotRun.polls, SlotRun.found, hticket, List.filterMap_cons, record?, hr, hm.slot_eq]
      exact congrArg _ hnext

theorem Mirrors.done_of_answerAt (h : (Resolution.activity backend).Runs Eq x log y)
    (hm : V.Mirrors run x) {position : Nat} {result : LoadResult τ}
    (hanswer : V.answerAt log position = some result) :
    (run.after (V.actions log)).tickets[position]? = some (.done result) := by
  induction h generalizing run with
  | refl => cases hanswer
  | @poll s s' entries i live r log y hentry hbetween _ ih =>
    subst hbetween
    have hnext : V.Mirrors (run.after (V.actions [⟨i, live, s, r⟩]))
        ((Resolution.poll backend live s r).1,
          entries.set i (Resolution.poll backend live s r).2) :=
      hm.poll hentry live
    rw [← List.singleton_append, V.actions_append, SlotRun.after_append]
    by_cases hi : i = position
    · subst hi
      rw [answerAt, PollRecord.ofPosition, List.filter_cons_of_pos (by simp),
        List.findSome?_cons] at hanswer
      split at hanswer
      case h_1 hnow =>
        cases hanswer
        obtain ⟨request, hr, hright⟩ := Option.bind_eq_some_iff.mp hnow
        have hticket : run.tickets[i]? = some (.pending request) := by
          rw [hm.pending_iff, hentry]
          exact hr
        apply SlotRun.done_after
        rw [V.actions_cons_of_some hr]
        refine (SlotRun.step_poll hticket live).2.trans ?_
        rw [hm.slot_eq, Sum.getRight?_eq_some_iff.mp hright]
        rfl
      case h_2 => exact ih hnext hanswer
    · rw [answerAt, PollRecord.ofPosition, List.filter_cons_of_neg (by simpa using hi)] at hanswer
      exact ih hnext hanswer

theorem Mirrors.of_asks {p : PollRecord (Cache φ) Resolution}
    (h : (Resolution.activity backend).Runs Eq x (p :: log) y) (hm : V.Mirrors run x)
    (hp : V.asks p = true) :
    V.request? p.activity = some .fresh ∧ run.slot = V.slot p.state ∧
      run.tickets[p.position]? = some (.pending .fresh) := by
  have hrequest : V.request? p.activity = some .fresh := beq_iff_eq.mp hp
  cases h with
  | poll hentry hbetween _ =>
    subst hbetween
    refine ⟨hrequest, hm.slot_eq, ?_⟩
    rw [hm.pending_iff, hentry]
    exact hrequest

theorem countP_events (V : TableView φ τ) (backend : Backend φ)
    (p : PollRecord (Cache φ) Resolution) (position : Nat) :
    (Resolution.events backend p).countP (Event.isStart V.table position) =
      match V.request? p.activity with
      | some request =>
        ((V.slot p.state).poll p.live request).events.countP (LoadEvent.isStart position)
      | none => 0 := by
  obtain ⟨notices, hevents⟩ := Resolution.events_eq backend p
  rw [hevents, List.countP_append, Event.countP_calls, Nat.add_zero]
  exact V.countP_loadEvents p position

theorem countP_news (V : TableView φ τ) (backend : Backend φ)
    (log : List (PollRecord (Cache φ) Resolution)) (position : Nat) :
    ((log.filterMap V.record?).flatMap (·.news)).countP
        (fun entry => LoadEvent.isStart position entry.2) =
      (log.flatMap (Resolution.events backend)).countP (Event.isStart V.table position) := by
  induction log with
  | nil => rfl
  | cons p log ih =>
    rw [List.flatMap_cons, List.countP_append, countP_events, ← ih, List.filterMap_cons, record?]
    cases V.request? p.activity with
    | none => exact (Nat.zero_add _).symm
    | some request =>
      rw [Option.map_some]
      dsimp only
      rw [List.flatMap_cons, List.countP_append, PollRecord.news, List.countP_map]
      rfl

variable (V) in
structure Opening (x : Cache φ × List (Resolution ⊕ ChoiceList)) : Prop where
  sound : ∃ strategies floor, (V.slot x.1).Sound V.table strategies floor
  fresh : ∀ e ∈ x.2, ∀ request, V.requestOf e = some request → request = .fresh

namespace Opening

def ticket (V : TableView φ τ) (e : Resolution ⊕ ChoiceList) : Ticket τ :=
  match V.requestOf e with
  | some request => .pending request
  | none => .dropped

theorem ticket_eq_pending_iff (e : Resolution ⊕ ChoiceList) (request : Request) :
    ticket V e = .pending request ↔ V.requestOf e = some request := by
  unfold ticket
  cases V.requestOf e <;> simp

theorem exists_run (h : V.Opening x) :
    ∃ (run : SlotRun τ) (strategies : List (Strategy τ)), V.Mirrors run x ∧
      run.slot.Sound V.table strategies run.floor ∧ run.Attends ∧
      ∀ ticket, run.Unpolled ticket := by
  obtain ⟨strategies, floor, hsound⟩ := h.sound
  have hpending : ∀ (i : Nat) (request : Request),
      (x.2.map (ticket V))[i]? = some (.pending request) ↔
        x.2[i]?.bind V.requestOf = some request := by
    intro i request
    rw [List.getElem?_map]
    cases x.2[i]? with
    | none => simp
    | some e => simpa using ticket_eq_pending_iff e request
  have hfresh : ∀ (i : Nat) (request : Request),
      (x.2.map (ticket V))[i]? = some (.pending request) → request = .fresh := by
    intro i request hi
    obtain ⟨e, he, hrequest⟩ := Option.bind_eq_some_iff.mp ((hpending i request).mp hi)
    exact h.fresh e (List.mem_of_getElem? he) request hrequest
  refine ⟨⟨V.slot x.1, x.2.map (ticket V), floor⟩, strategies, ⟨rfl, hpending⟩, hsound, ?_, ?_⟩
  · intro i load hi
    cases hfresh i _ hi
  · intro i t ht
    obtain ⟨e, -, rfl⟩ := List.mem_map.mp (List.mem_of_getElem? ht)
    unfold ticket at ht ⊢
    cases hrequest : V.requestOf e with
    | none => exact .inr rfl
    | some request =>
      rw [hrequest] at ht
      rw [hfresh i request ht]
      exact .inl rfl

variable (V) in
def Waits (e : Resolution ⊕ ChoiceList) (log : List (PollRecord (Cache φ) Resolution))
    (e' : Resolution ⊕ ChoiceList) : Prop :=
  (V.requestOf e).isSome = true → log.findSome? V.answer? = none → (V.requestOf e').isSome = true

theorem waits_poll (backend : Backend φ) (p : PollRecord (Cache φ) Resolution)
    (log : List (PollRecord (Cache φ) Resolution)) (e' : Resolution ⊕ ChoiceList)
    (h : Waits V (Resolution.poll backend p.live p.state p.activity).2 log e') :
    Waits V (.inl p.activity) (p :: log) e' := by
  intro hwaits hnone
  obtain ⟨request, hr⟩ := Option.isSome_iff_exists.mp hwaits
  rw [requestOf, Sum.getLeft?_inl, Option.bind_some] at hr
  rw [List.findSome?_cons] at hnone
  split at hnone
  case h_1 => cases hnone
  case h_2 hnow =>
    rw [answer?, hr, Option.bind_some, Sum.getRight?_eq_none_iff] at hnow
    obtain ⟨request', ha⟩ := Sum.isLeft_iff.mp hnow
    have hnext := V.request_poll backend p.live p.state p.activity
    rw [hr, Option.bind_some, ha, Sum.getLeft?_inl] at hnext
    exact h (Option.isSome_iff_exists.mpr ⟨request', hnext⟩) hnone

theorem isSome_answerAt (h : (Resolution.activity backend).Runs Eq x log y)
    (hend : ∀ e ∈ y.2, e.isRight = true) {position : Nat} {e : Resolution ⊕ ChoiceList}
    (he : x.2[position]? = some e) (hrequest : (V.requestOf e).isSome = true) :
    (V.answerAt log position).isSome = true := by
  obtain ⟨e', he', hwaits⟩ :=
    h.ofPosition (Waits V) (fun _ hwaits _ => hwaits) (waits_poll backend) he
  rw [← Option.not_isNone, Bool.not_eq_true', Bool.eq_false_iff, Ne, Option.isNone_iff_eq_none]
  intro hnone
  obtain ⟨options, rfl⟩ := Sum.isRight_iff.mp (hend e' (List.mem_of_getElem? he'))
  cases hwaits hrequest hnone

variable (V) in
structure Begins (e : Resolution ⊕ ChoiceList) (log : List (PollRecord (Cache φ) Resolution))
    (e' : Resolution ⊕ ChoiceList) : Prop where
  unanswered : V.requestOf e = none → log.findSome? V.answer? = none
  first : ∀ p ∈ log.head?, e = .inl p.activity

theorem begins_poll (backend : Backend φ) (p : PollRecord (Cache φ) Resolution)
    (log : List (PollRecord (Cache φ) Resolution)) (e' : Resolution ⊕ ChoiceList)
    (h : Begins V (Resolution.poll backend p.live p.state p.activity).2 log e') :
    Begins V (.inl p.activity) (p :: log) e' where
  unanswered hnone := by
    rw [requestOf, Sum.getLeft?_inl, Option.bind_some] at hnone
    have hnext := V.request_poll backend p.live p.state p.activity
    rw [hnone, Option.bind_none] at hnext
    rw [List.findSome?_cons, answer?, hnone, Option.bind_none]
    exact h.unanswered hnext
  first q hq := by
    cases hq
    rfl

theorem exists_asks (h : (Resolution.activity backend).Runs Eq x log y) (hx : V.Opening x)
    {position : Nat} {result : LoadResult τ} (hanswer : V.answerAt log position = some result) :
    ∃ p ∈ log, p.position = position ∧ V.asks p = true := by
  obtain ⟨p, hp, -⟩ := List.exists_of_findSome?_eq_some hanswer
  obtain ⟨hmem, hposition⟩ := List.mem_filter.mp hp
  have hlt := h.position_lt p hmem
  rw [of_decide_eq_true hposition] at hlt
  have he := List.getElem?_eq_getElem hlt
  obtain ⟨e', -, hbegins⟩ :=
    h.ofPosition (Begins V) (fun e => ⟨fun _ => rfl, fun p hp => by cases hp⟩)
      (begins_poll backend) he
  cases hlog : PollRecord.ofPosition log position with
  | nil =>
    rw [hlog] at hp
    cases hp
  | cons first rest =>
    have hfirst : first ∈ PollRecord.ofPosition log position := by
      rw [hlog]
      exact List.mem_cons_self
    obtain ⟨hmem, hposition⟩ := List.mem_filter.mp hfirst
    refine ⟨first, hmem, of_decide_eq_true hposition, ?_⟩
    have hentry := hbegins.first first (by rw [hlog]; rfl)
    cases hrequest : V.requestOf x.2[position] with
    | none =>
      have hnone := hbegins.unanswered hrequest
      rw [answerAt, hnone] at hanswer
      cases hanswer
    | some request =>
      have hfresh := hx.fresh _ (List.getElem_mem hlt) request hrequest
      subst hfresh
      rw [hentry, requestOf, Sum.getLeft?_inl, Option.bind_some] at hrequest
      rw [asks, hrequest]
      rfl

variable (h : (Resolution.activity backend).Runs Eq x log y) (hx : V.Opening x)

include h hx

theorem tables_agree {position position' : Nat} {t t' : Loaded τ}
    (ht : V.answerAt log position = some (.ok t))
    (ht' : V.answerAt log position' = some (.ok t')) : t = t' := by
  obtain ⟨run, strategies, hm, hsound, -, hunpolled⟩ := hx.exists_run
  exact SlotRun.tables_agree hsound (hunpolled position) (hunpolled position') (V.reset_not_mem log)
    (hm.done_of_answerAt h ht) (hm.done_of_answerAt h ht')

theorem results_agree {before between after : List (PollRecord (Cache φ) Resolution)}
    {p q : PollRecord (Cache φ) Resolution} (hlog : log = before ++ p :: (between ++ q :: after))
    (hp : V.asks p = true) (hq : V.asks q = true) (hfailures : V.failures q = V.failures p)
    {result result' : LoadResult τ} (hresult : V.answerAt log p.position = some result)
    (hresult' : V.answerAt log q.position = some result') : result = result' := by
  obtain ⟨run, strategies, hm, hsound, -, -⟩ := hx.exists_run
  have hdone := hm.done_of_answerAt h hresult
  have hdone' := hm.done_of_answerAt h hresult'
  subst hlog
  obtain ⟨z, hbefore, hrest⟩ := h.split
  have hmz := hm.runs hbefore
  obtain ⟨hprequest, hpslot, hpticket⟩ := hmz.of_asks hrest hp
  rw [← List.cons_append] at hrest
  obtain ⟨z', hbetween, hafter⟩ := hrest.split
  have hmz' := hmz.runs hbetween
  obtain ⟨hqrequest, hqslot, hqticket⟩ := hmz'.of_asks hafter hq
  have hsecond := V.reset_not_mem (p :: between)
  rw [V.actions_cons_of_some hprequest] at hsecond hmz' hqslot hqticket
  rw [V.actions_append, V.actions_cons_of_some hprequest, V.actions_append,
    V.actions_cons_of_some hqrequest, SlotRun.after_append, ← List.cons_append,
    SlotRun.after_append] at hdone hdone'
  have hsound' : (run.after (V.actions before)).slot.Sound V.table strategies
      (run.after (V.actions before)).floor := by
    rw [SlotRun.floor_after (V.reset_not_mem before)]
    exact SlotRun.sound_after hsound (V.reset_not_mem before)
  refine SlotRun.results_agree hsound' hsecond hpticket rfl hqticket ?_ hdone hdone'
  rw [hqslot, hpslot]
  exact hfailures

theorem starts_le (position : Nat) :
    (log.flatMap (Resolution.events backend)).countP (Event.isStart V.table position) ≤
      log.countP (V.retries (V.slot x.1).failures) + 1 := by
  obtain ⟨run, strategies, hm, hsound, hattends, -⟩ := hx.exists_run
  obtain ⟨past, hpast⟩ := hsound.accounted
  have hnone : run.slot.Tally run.slot.failures position 0 0 past :=
    ⟨Nat.le_refl _, Nat.zero_le _, fun _ _ => Nat.le_refl _, fun _ _ => Nat.zero_le _⟩
  have htally := (SlotRun.tally_after hnone hpast hsound.follows hattends
    (V.reset_not_mem log)).starts_le
  rw [SlotRun.journal, hm.polls_eq h, V.countP_news backend, hm.slot_eq, List.countP_filterMap,
    Nat.zero_add, Nat.zero_add] at htally
  have hretries : ∀ p : PollRecord (Cache φ) Resolution,
      ((V.record? p).map fun q => q.state.retries (V.slot x.1).failures q.activity).getD false =
        V.retries (V.slot x.1).failures p := by
    intro p
    unfold record? retries asks
    cases V.request? p.activity with
    | none => rfl
    | some request => rfl
  simpa only [hretries] using htally

theorem results_agree_of_failures
    (hgood : ∀ p ∈ log, V.asks p = true → V.failures p = (V.slot x.1).failures)
    {position position' : Nat} {result result' : LoadResult τ}
    (hresult : V.answerAt log position = some result)
    (hresult' : V.answerAt log position' = some result') : result = result' := by
  by_cases hsame : position = position'
  · subst hsame
    rw [hresult] at hresult'
    cases hresult'
    rfl
  obtain ⟨p, hp, rfl, hpasks⟩ := exists_asks h hx hresult
  obtain ⟨q, hq, rfl, hqasks⟩ := exists_asks h hx hresult'
  have hfailures : V.failures q = V.failures p := by rw [hgood p hp hpasks, hgood q hq hqasks]
  obtain ⟨before, after, hlog⟩ := List.append_of_mem hp
  have hq' : q ∈ before ∨ q ∈ after := by
    rw [hlog, List.mem_append, List.mem_cons] at hq
    rcases hq with hq | rfl | hq
    · exact .inl hq
    · exact absurd rfl hsame
    · exact .inr hq
  rcases hq' with hq' | hq'
  · obtain ⟨before', between, rfl⟩ := List.append_of_mem hq'
    rw [List.append_assoc, List.cons_append] at hlog
    exact (results_agree h hx hlog hqasks hpasks hfailures.symm hresult' hresult).symm
  · obtain ⟨between, after', rfl⟩ := List.append_of_mem hq'
    exact results_agree h hx hlog hpasks hqasks hfailures hresult hresult'

end Opening

end TableView

end FormCompiler
