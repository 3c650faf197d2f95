import FormCompiler.Proofs.Cache.Stability
import FormCompiler.Proofs.Cache.Trace
import FormCompiler.Proofs.Resolution.Supply

namespace FormCompiler

variable {φ : Type}

def Event.call? : Event φ → Option (φ × Json)
  | .called f params => some (f, params)
  | _ => none

theorem Event.call?_noticed (notices : List Notice) :
    (notices.map (Event.noticed (φ := φ))).filterMap Event.call? = [] := by
  rw [List.filterMap_map, List.filterMap_eq_nil_iff]
  intro n _
  rfl

theorem Event.call?_ofLoad (table : TableId) (loads : List LoadEvent) :
    (loads.map (Event.ofLoad (φ := φ) table)).filterMap Event.call? = [] := by
  rw [List.filterMap_map, List.filterMap_eq_nil_iff]
  intro e _
  cases e <;> rfl

namespace Resolution

def table? : Resolution → Option TableId
  | .dictionary _ _ => some .dictionary
  | .lookup _ _ _ => some .lookup
  | .call _ _ _ => none

def tableOf (e : Resolution ⊕ ChoiceList) : Option TableId := e.getLeft?.bind table?

def answer? (p : PollRecord (Cache φ) Resolution) : Option (LoadResult (LookupTable φ)) :=
  match p.activity with
  | .lookup _ _ request => (p.state.pollLookup p.live request).2.getRight?
  | _ => none

def due (answer : Option (LoadResult (LookupTable φ))) : Resolution → Option (φ × Json)
  | .lookup path params _ =>
    answer.bind fun result => (target? path result).toOption.map (·, params)
  | _ => none

def dueOf (answer : Option (LoadResult (LookupTable φ))) (e : Resolution ⊕ ChoiceList) :
    Option (φ × Json) := e.getLeft?.bind (due answer)

theorem due_none (r : Resolution) : due (φ := φ) none r = none := by cases r <;> rfl

def degradations (path : String) : Except OptionError ChoiceList → List Notice
  | .ok _ => []
  | .error error => [.degraded path error]

theorem history_settle (c : Cache φ) (path : String) (result : Except OptionError ChoiceList) :
    (settle c path result).1.history = c.history ++ (degradations path result).map .noticed := by
  cases result with
  | ok options => exact (List.append_nil _).symm
  | error error => rfl

theorem tableOf_settle (c : Cache φ) (path : String) (result : Except OptionError ChoiceList) :
    tableOf (settle c path result).2 = none := by
  cases result <;> rfl

theorem dueOf_eq_none {answer : Option (LoadResult (LookupTable φ))} {e : Resolution ⊕ ChoiceList}
    (h : tableOf e ≠ some .lookup) : dueOf answer e = none := by
  cases e with
  | inr options => rfl
  | inl r =>
    cases r with
    | lookup => exact absurd rfl h
    | dictionary => rfl
    | call => rfl

structure Begun (n : Nat) (entries : List (Resolution ⊕ ChoiceList)) : Prop where
  past : ∀ i e, i < n → entries[i]? = some e → tableOf e ≠ some .lookup
  fresh : ∀ i path params request, n ≤ i →
    entries[i]? = some (.inl (.lookup path params request)) → request = .fresh

namespace Begun

variable {n i : Nat} {entries : List (Resolution ⊕ ChoiceList)} {c : Cache φ}
  {t : Loaded (LookupTable φ)} {r : Resolution}

theorem answer?_eq (h : Begun n entries) (hentry : entries[i]? = some (.inl r))
    (hi : n ≤ i) (hr : r.table? = some .lookup) (hready : c.lookups.state = .ready t) (live : Nat) :
    answer? ⟨i, live, c, r⟩ = some (.ok t) := by
  cases r with
  | lookup path params request =>
    have hfresh := h.fresh i path params request hi hentry
    subst hfresh
    simp [answer?, Cache.pollLookup, Slot.poll_fresh_of_ready hready]
  | dictionary => cases hr
  | call => cases hr

theorem due_eq (h : Begun n entries) (hentry : entries[i]? = some (.inl r)) (hi : n ≤ i)
    (hready : c.lookups.state = .ready t) (live : Nat) :
    due (answer? ⟨i, live, c, r⟩) r = due (some (.ok t)) r := by
  by_cases hr : r.table? = some .lookup
  · rw [h.answer?_eq hentry hi hr hready]
  · have hnone : ∀ answer, due (φ := φ) answer r = none := fun answer =>
      dueOf_eq_none (e := .inl r) hr
    rw [hnone, hnone]

theorem filterMap_due (h : Begun n entries) (hentry : entries[i]? = some (.inl r))
    (hi : i < n ∨ i = n ∧ c.lookups.state = .ready t) (live : Nat) (e : Resolution ⊕ ChoiceList) :
    (entries.drop n).filterMap (dueOf (some (.ok t))) =
      (due (answer? ⟨i, live, c, r⟩) r).toList ++
        ((entries.set i e).drop (max n (i + 1))).filterMap (dueOf (some (.ok t))) := by
  rw [List.drop_set_of_lt (by omega)]
  rcases hi with hlt | ⟨rfl, hready⟩
  · have hnone : due (answer? ⟨i, live, c, r⟩) r = none :=
      dueOf_eq_none (e := .inl r) (h.past i _ hlt hentry)
    rw [hnone, Nat.max_eq_left hlt]
    rfl
  · obtain ⟨hlength, he⟩ := List.getElem?_eq_some_iff.mp hentry
    rw [Nat.max_eq_right (Nat.le_succ _), List.drop_eq_getElem_cons hlength, he,
      List.filterMap_cons, h.due_eq hentry (Nat.le_refl i) hready live]
    cases hdue : due (some (.ok t)) r <;> simp [dueOf, hdue]

end Begun

variable [DecidableEq φ]

theorem history_startCall (backend : Backend φ) (c : Cache φ) (path : String) (f : φ)
    (params : Json) :
    ∃ notices : List Notice, (startCall backend c path f params).1.history =
      c.history ++ .called f params :: notices.map .noticed := by
  simp only [startCall]
  split
  · exact ⟨[], rfl⟩
  · refine ⟨degradations path (callOptions path (backend f (callCount c f) params).outcome), ?_⟩
    rw [history_settle, Cache.record, List.append_assoc]
    rfl

def loadEvents (p : PollRecord (Cache φ) Resolution) : List (Event φ) :=
  match p.activity with
  | .dictionary _ request =>
    (p.state.dictionaries.poll p.live request).events.map (Event.ofLoad .dictionary)
  | .lookup _ _ request => (p.state.lookups.poll p.live request).events.map (Event.ofLoad .lookup)
  | .call _ _ _ => []

omit [DecidableEq φ] in
theorem call?_loadEvents (p : PollRecord (Cache φ) Resolution) :
    (loadEvents p).filterMap Event.call? = [] := by
  unfold loadEvents
  split
  · exact Event.call?_ofLoad _ _
  · exact Event.call?_ofLoad _ _
  · rfl

theorem history_poll (backend : Backend φ) (p : PollRecord (Cache φ) Resolution) :
    ∃ notices : List Notice,
      (poll backend p.live p.state p.activity).1.history = p.state.history ++
        (loadEvents p ++ ((due (answer? p) p.activity).toList.map (fun m => .called m.1 m.2) ++
          notices.map .noticed)) := by
  obtain ⟨position, live, c, r⟩ := p
  cases r with
  | dictionary path request =>
    have hturn : (c.pollDictionary live request).1.history =
      c.history ++ (c.dictionaries.poll live request).events.map (Event.ofLoad .dictionary) := rfl
    cases ha : (c.pollDictionary live request).2 with
    | inl request' => exact ⟨[], by simp [poll, ha, hturn, loadEvents, due]⟩
    | inr result =>
      refine ⟨degradations path (dictionaryOptions path result), ?_⟩
      simp [poll, ha, history_settle, hturn, loadEvents, due]
  | lookup path params request =>
    have hturn : (c.pollLookup live request).1.history =
      c.history ++ (c.lookups.poll live request).events.map (Event.ofLoad .lookup) := rfl
    cases ha : (c.pollLookup live request).2 with
    | inl request' => exact ⟨[], by simp [poll, ha, hturn, loadEvents, answer?, due]⟩
    | inr result =>
      cases ht : target? path result with
      | ok f =>
        obtain ⟨notices, h⟩ := history_startCall backend (c.pollLookup live request).1 path f params
        refine ⟨notices, ?_⟩
        simp [poll, ha, ht, h, hturn, loadEvents, answer?, due, Except.toOption]
      | error error =>
        refine ⟨[.degraded path error], ?_⟩
        simp [poll, ha, ht, history_settle, degradations, hturn, loadEvents, answer?, due,
          Except.toOption]
  | call path polls outcome =>
    cases polls with
    | succ n => exact ⟨[], by simp [poll, loadEvents, due]⟩
    | zero =>
      refine ⟨degradations path (callOptions path outcome), ?_⟩
      simp [poll, history_settle, loadEvents, due]

def events (backend : Backend φ) (p : PollRecord (Cache φ) Resolution) : List (Event φ) :=
  (poll backend p.live p.state p.activity).1.history.drop p.state.history.length

theorem history_eq (backend : Backend φ) (p : PollRecord (Cache φ) Resolution) :
    (poll backend p.live p.state p.activity).1.history =
      p.state.history ++ events backend p := by
  obtain ⟨notices, h⟩ := history_poll backend p
  rw [events, h, List.drop_left]

theorem events_eq (backend : Backend φ) (p : PollRecord (Cache φ) Resolution) :
    ∃ notices : List Notice, events backend p =
      loadEvents p ++ ((due (answer? p) p.activity).toList.map (fun m => .called m.1 m.2) ++
        notices.map .noticed) := by
  obtain ⟨notices, h⟩ := history_poll backend p
  exact ⟨notices, by rw [events, h, List.drop_left]⟩

theorem calls_events (backend : Backend φ) (p : PollRecord (Cache φ) Resolution) :
    (events backend p).filterMap Event.call? = (due (answer? p) p.activity).toList := by
  obtain ⟨notices, h⟩ := events_eq backend p
  rw [h, List.filterMap_append, List.filterMap_append, call?_loadEvents, Event.call?_noticed,
    List.append_nil, List.nil_append]
  cases due (answer? p) p.activity <;> rfl

theorem table?_of_started {backend : Backend φ} {p : PollRecord (Cache φ) Resolution}
    {table : TableId} {strategy : Nat} (h : .started table strategy ∈ events backend p) :
    p.activity.table? = some table := by
  obtain ⟨notices, hevents⟩ := events_eq backend p
  rw [hevents] at h
  rcases List.mem_append.mp h with h | h
  · unfold loadEvents at h
    split at h
    case h_3 => cases h
    all_goals
      obtain ⟨e, -, he⟩ := List.mem_map.mp h
      cases e with
      | started =>
        cases he
        simp_all [table?]
      | noticed => cases he
  · simp at h

theorem tableOf_startCall (backend : Backend φ) (c : Cache φ) (path : String) (f : φ)
    (params : Json) : tableOf (startCall backend c path f params).2 = none := by
  simp only [startCall]
  split
  · rfl
  · exact tableOf_settle _ path _

theorem tableOf_poll {backend : Backend φ} {live : Nat} {c : Cache φ} {r : Resolution}
    {table : TableId} (h : tableOf (poll backend live c r).2 = some table) :
    r.table? = some table := by
  cases r with
  | dictionary path request =>
    simp only [poll] at h
    split at h
    · exact h
    · rw [tableOf_settle] at h
      cases h
  | lookup path params request =>
    simp only [poll] at h
    split at h
    · exact h
    · split at h
      · rw [tableOf_startCall] at h
        cases h
      · rw [tableOf_settle] at h
        cases h
  | call path polls outcome =>
    cases polls with
    | succ n => exact h
    | zero =>
      rw [poll, tableOf_settle] at h
      cases h

theorem tableOf_poll_of_answer (backend : Backend φ) {p : PollRecord (Cache φ) Resolution}
    {result : LoadResult (LookupTable φ)} (h : answer? p = some result) :
    tableOf (poll backend p.live p.state p.activity).2 = none := by
  obtain ⟨position, live, c, r⟩ := p
  cases r with
  | lookup path params request =>
    have hr : (c.pollLookup live request).2 = .inr result := Sum.getRight?_eq_some_iff.mp h
    simp only [poll, hr]
    split
    · exact tableOf_startCall backend _ path _ params
    · exact tableOf_settle _ path _
  | dictionary => cases h
  | call => cases h

theorem poll_of_unanswered (backend : Backend φ) {position live : Nat} {c : Cache φ}
    {path : String} {params : Json} {request : Request}
    (h : answer? ⟨position, live, c, .lookup path params request⟩ = none) :
    ∃ request', (poll backend live c (.lookup path params request)).2 =
      .inl (.lookup path params request') := by
  obtain ⟨request', hr⟩ := Sum.isLeft_iff.mp (Sum.getRight?_eq_none_iff.mp h)
  exact ⟨request', by simp only [poll, hr]⟩

def callsOf (backend : Backend φ) (log : List (PollRecord (Cache φ) Resolution)) : List (φ × Json) :=
  (log.flatMap (events backend)).filterMap Event.call?

theorem calls_cons (backend : Backend φ) (p : PollRecord (Cache φ) Resolution)
    (log : List (PollRecord (Cache φ) Resolution)) :
    callsOf backend (p :: log) = (due (answer? p) p.activity).toList ++ callsOf backend log := by
  rw [callsOf, List.flatMap_cons, List.filterMap_append, calls_events, callsOf]

structure Asked (backend : Backend φ) (e : Resolution ⊕ ChoiceList)
    (log : List (PollRecord (Cache φ) Resolution)) (e' : Resolution ⊕ ChoiceList) : Prop where
  calls_eq : callsOf backend log = (dueOf (log.findSome? answer?) e).toList
  table : ∀ p ∈ log, ∀ table, p.activity.table? = some table → tableOf e = some table
  unanswered : tableOf e = some .lookup → log.findSome? answer? = none →
    tableOf e' = some .lookup

namespace Asked

variable {backend : Backend φ}

theorem refl (e : Resolution ⊕ ChoiceList) : Asked backend e [] e where
  calls_eq := by
    cases e with
    | inl r => exact congrArg Option.toList (due_none r).symm
    | inr => rfl
  table := by simp
  unanswered h _ := h

theorem poll (p : PollRecord (Cache φ) Resolution) {log : List (PollRecord (Cache φ) Resolution)}
    {e' : Resolution ⊕ ChoiceList}
    (h : Asked backend (Resolution.poll backend p.live p.state p.activity).2 log e') :
    Asked backend (.inl p.activity) (p :: log) e' := by
  have htable : ∀ table, tableOf (Resolution.poll backend p.live p.state p.activity).2 = some table →
      p.activity.table? = some table := fun _ => tableOf_poll
  have hasks : ∀ q ∈ p :: log, ∀ table, q.activity.table? = some table →
      p.activity.table? = some table := by
    rw [List.forall_mem_cons]
    exact ⟨fun _ hp => hp, fun q hq table hqt => htable table (h.table q hq table hqt)⟩
  by_cases hlookup : p.activity.table? = some .lookup
  · cases ha : answer? p with
    | some result =>
      -- the answer decides on the call, and no call is due after it
      have hnext := tableOf_poll_of_answer backend ha
      refine ⟨?_, hasks, ?_⟩
      · rw [calls_cons, h.calls_eq, dueOf_eq_none (by rw [hnext]; simp), List.findSome?_cons, ha]
        simp [dueOf]
      · rw [List.findSome?_cons, ha]
        intro _ hnone
        cases hnone
    | none =>
      obtain ⟨position, live, c, r⟩ := p
      cases r with
      | dictionary => cases hlookup
      | call => cases hlookup
      | lookup path params request =>
        obtain ⟨request', hnext⟩ := poll_of_unanswered backend ha
        rw [hnext] at h
        refine ⟨?_, hasks, ?_⟩
        · rw [calls_cons, h.calls_eq, List.findSome?_cons, ha]
          rfl
        · rw [List.findSome?_cons, ha]
          exact fun _ => h.unanswered rfl
  · have hnext : tableOf (Resolution.poll backend p.live p.state p.activity).2 ≠ some .lookup :=
      fun ht => hlookup (htable _ ht)
    have hnone : ∀ answer, due (φ := φ) answer p.activity = none := fun answer =>
      dueOf_eq_none (e := .inl p.activity) hlookup
    refine ⟨?_, hasks, fun ht => absurd ht hlookup⟩
    rw [calls_cons, h.calls_eq, dueOf_eq_none hnext, hnone]
    exact congrArg Option.toList (hnone _).symm

end Asked

variable {backend : Backend φ} {between : Cache φ → Cache φ → Prop}
  {x y : Cache φ × List (Resolution ⊕ ChoiceList)} {log : List (PollRecord (Cache φ) Resolution)}

def answerAt (log : List (PollRecord (Cache φ) Resolution)) (position : Nat) :
    Option (LoadResult (LookupTable φ)) :=
  (PollRecord.ofPosition log position).findSome? answer?

theorem asked_of_runs (h : (activity backend).Runs between x log y) {position : Nat}
    {e : Resolution ⊕ ChoiceList} (he : x.2[position]? = some e) :
    ∃ e', y.2[position]? = some e' ∧
      Asked backend e (PollRecord.ofPosition log position) e' :=
  h.ofPosition (Asked backend) .refl (fun p _ _ => Asked.poll p) he

theorem perm_calls (h : (activity backend).Runs between x log y) :
    (callsOf backend log).Perm (x.2.zipIdx.filterMap fun (e, i) => dueOf (answerAt log i) e) := by
  have hsorted := PollRecord.perm_flatMap_range (events backend) h.position_lt
  refine (hsorted.filterMap _).trans (List.Perm.of_eq ?_)
  have hentries : ∀ a ∈ x.2.zipIdx, callsOf backend (PollRecord.ofPosition log a.2) =
      (dueOf (answerAt log a.2) a.1).toList := by
    intro a ha
    obtain ⟨e', -, hasked⟩ := asked_of_runs h (List.mem_zipIdx_iff_getElem?.mp ha)
    exact hasked.calls_eq
  rw [List.filterMap_flatMap, List.filterMap_eq_flatMap_toList, ← List.flatMap_congr hentries,
    List.range_eq_range', ← List.zipIdx_map_snd, List.flatMap_map]
  rfl

theorem history_of_runs (h : (activity backend).Runs Eq x log y) :
    y.1.history = x.1.history ++ log.flatMap (events backend) := by
  induction h with
  | refl => simp
  | @poll s s' entries position live r log y hentry hbetween _ ih =>
    subst hbetween
    have hpoll := history_eq backend ⟨position, live, s, r⟩
    refine ih.trans ?_
    rw [List.flatMap_cons, ← List.append_assoc]
    exact congrArg (· ++ _) hpoll

theorem exists_table_of_started (h : (activity backend).Runs between x log y) {table : TableId}
    {strategy : Nat} (hstarted : .started table strategy ∈ log.flatMap (events backend)) :
    ∃ e ∈ x.2, tableOf e = some table := by
  obtain ⟨p, hp, hstarted⟩ := List.mem_flatMap.mp hstarted
  have hlt := h.position_lt p hp
  obtain ⟨e', -, hasked⟩ := asked_of_runs h (List.getElem?_eq_getElem hlt)
  refine ⟨_, List.getElem_mem hlt, hasked.table p ?_ table (table?_of_started hstarted)⟩
  exact List.mem_filter.mpr ⟨hp, by simp⟩

theorem answered_of_ended (h : (activity backend).Runs between x log y)
    (hend : ∀ e ∈ y.2, e.isRight = true) {position : Nat} {e : Resolution ⊕ ChoiceList}
    (he : x.2[position]? = some e) (htable : tableOf e = some .lookup) :
    (answerAt log position).isSome = true := by
  obtain ⟨e', he', hasked⟩ := asked_of_runs h he
  rw [← Option.not_isNone, Bool.not_eq_true', Bool.eq_false_iff, Ne, Option.isNone_iff_eq_none]
  intro hnone
  have htable' := hasked.unanswered htable hnone
  obtain ⟨options, rfl⟩ := Sum.isRight_iff.mp (hend e' (List.mem_of_getElem? he'))
  cases htable'

theorem ready_poll {c : Cache φ} {t : Loaded (LookupTable φ)} (h : c.lookups.state = .ready t)
    (backend : Backend φ) (live : Nat) (r : Resolution) :
    (poll backend live c r).1.lookups.state = .ready t := by
  rw [(poll_slots backend live c r).2]
  split
  · exact Slot.state_poll_of_ready h live _
  · exact h

theorem Begun.poll {n i : Nat} {entries : List (Resolution ⊕ ChoiceList)} {c : Cache φ}
    {t : Loaded (LookupTable φ)} {r : Resolution} (h : Begun n entries)
    (hentry : entries[i]? = some (.inl r)) (hi : i < n ∨ i = n ∧ c.lookups.state = .ready t)
    (backend : Backend φ) (live : Nat) :
    Begun (max n (i + 1)) (entries.set i (Resolution.poll backend live c r).2) := by
  have hnext : tableOf (Resolution.poll backend live c r).2 ≠ some .lookup := by
    intro htable
    have hr := tableOf_poll htable
    rcases hi with hlt | ⟨rfl, hready⟩
    · exact h.past i _ hlt hentry hr
    · have hanswer := h.answer?_eq hentry (Nat.le_refl i) hr hready live
      rw [tableOf_poll_of_answer backend hanswer] at htable
      cases htable
  constructor
  · intro j e hj he
    rw [List.getElem?_set] at he
    split at he
    · split at he
      · cases he
        exact hnext
      · cases he
    · exact h.past j e (by omega) he
  · intro j path params request hj he
    rw [List.getElem?_set_ne (by omega)] at he
    exact h.fresh j path params request (by omega) he

theorem calls_of_ready {t : Loaded (LookupTable φ)} (h : (activity backend).Runs between x log y)
    {n : Nat} (horderly : PollRecord.Orderly (·.lookups.state = .ready t) n log)
    (hbegun : Begun n x.2) (hend : ∀ e ∈ y.2, e.isRight = true) :
    callsOf backend log = (x.2.drop n).filterMap (dueOf (some (.ok t))) := by
  induction h generalizing n with
  | refl x =>
    symm
    apply List.filterMap_eq_nil_iff.mpr
    intro e he
    obtain ⟨options, rfl⟩ := Sum.isRight_iff.mp (hend e (List.mem_of_mem_drop he))
    rfl
  | @poll s s' entries i live r log y hentry _ _ ih =>
    have hpoll := hbegun.poll hentry horderly.1 backend live
    rw [calls_cons, ih horderly.2 hpoll hend]
    exact (hbegun.filterMap_due hentry horderly.1 live _).symm

end Resolution

end FormCompiler
