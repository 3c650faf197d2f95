import FormCompiler.Proofs.Resolution.Agreement
import FormCompiler.Proofs.Resolution.Sharing

namespace FormCompiler

variable {φ : Type}

theorem Event.notice?_noticed (notices : List Notice) :
    (notices.map (Event.noticed (φ := φ))).filterMap Event.notice? = notices := by
  rw [List.filterMap_map]
  exact List.filterMap_some

theorem Event.notice?_called (calls : List (φ × Json)) :
    (calls.map fun m => Event.called m.1 m.2).filterMap Event.notice? = [] := by
  rw [List.filterMap_map, List.filterMap_eq_nil_iff]
  intro m _
  rfl

namespace Resolution

theorem Expects.issued_dictionary {w : Supply φ} {c : Cache φ} {r : Resolution}
    {options : ChoiceList} (h : r.Expects w c options) {request : Request}
    (hr : r.dictionaryRequest? = some request) :
    c.dictionaries.Issued request := by
  cases r with
  | dictionary path request' =>
    cases hr
    exact h.1
  | lookup path params request' => cases hr
  | call path polls outcome => cases hr

theorem Expects.issued_lookup {w : Supply φ} {c : Cache φ} {r : Resolution}
    {options : ChoiceList} (h : r.Expects w c options) {request : Request}
    (hr : r.lookupRequest? = some request) :
    c.lookups.Issued request := by
  cases r with
  | lookup path params request' =>
    cases hr
    exact h.1
  | dictionary path request' => cases hr
  | call path polls outcome => cases hr

theorem target?_of_at? {path : String} {load : Nat} {table : LookupTable φ} {f : φ}
    (h : table.at? path = some (.function f)) : target? path (.ok ⟨load, table⟩) = .ok f := by
  simp only [target?, h]

variable [DecidableEq φ]

theorem responseOptions_of_zero {path : String} {response : Json} {code : Number}
    {entries : List Json} (hcode : response.get? "code" = some (.number code))
    (hzero : code.isZero = true) (hdata : response.get? "data" = some (.array entries)) :
    responseOptions path response = .ok (.ofEntries entries) := by
  simp only [responseOptions, hcode, hdata, hzero, ↓reduceIte]

theorem callCount_pollLookup (c : Cache φ) (live : Nat) (request : Request) (f : φ) :
    callCount (c.pollLookup live request).1 f = callCount c f := by
  have hnone : calls f ((c.lookups.poll live request).events.map (Event.ofLoad .lookup)) = 0 := by
    rw [calls, List.countP_eq_zero]
    intro e he
    obtain ⟨event, -, rfl⟩ := List.mem_map.mp he
    cases event <;> simp [Event.ofLoad]
  rw [Cache.pollLookup, callCount_record, hnone]
  rfl

def made? (backend : Backend φ) (p : PollRecord (Cache φ) Resolution) :
    Option ((φ × Json) × Except Failure Json) :=
  (due (answer? p) p.activity).map fun m =>
    (m, (backend m.1 (callCount p.state m.1) m.2).outcome)

def ownNotices (backend : Backend φ) (p : PollRecord (Cache φ) Resolution) : List Notice :=
  ((events backend p).drop (loadEvents p).length).filterMap Event.notice?

theorem ownNotices_eq {backend : Backend φ} {p : PollRecord (Cache φ) Resolution}
    (calls : List (φ × Json)) {notices : List Notice}
    (h : (poll backend p.live p.state p.activity).1.history = p.state.history ++ (loadEvents p ++
      (calls.map (fun m => .called m.1 m.2) ++ notices.map .noticed))) :
    ownNotices backend p = notices := by
  rw [ownNotices, events, h, List.drop_left, List.drop_left, List.filterMap_append,
    Event.notice?_called, Event.notice?_noticed, List.nil_append]

theorem notices_poll (backend : Backend φ) (p : PollRecord (Cache φ) Resolution) :
    (poll backend p.live p.state p.activity).1.history.filterMap Event.notice? =
      p.state.history.filterMap Event.notice? ++
        ((loadEvents p).filterMap Event.notice? ++ ownNotices backend p) := by
  obtain ⟨notices, h⟩ := history_poll backend p
  rw [ownNotices_eq _ h, h]
  simp only [List.filterMap_append, Event.notice?_called, Event.notice?_noticed, List.nil_append]

structure Settles (backend : Backend φ) (log : List (PollRecord (Cache φ) Resolution))
    (options : ChoiceList) (path : String) (result : Except OptionError ChoiceList) : Prop where
  options_eq : options = result.toOption.getD .empty
  notices_eq : log.flatMap (ownNotices backend) = degradations path result

def Concludes (backend : Backend φ) (log : List (PollRecord (Cache φ) Resolution))
    (options : ChoiceList) : Resolution ⊕ ChoiceList → Prop
  | .inr options' => options = options' ∧ log.flatMap (ownNotices backend) = []
  | .inl (.dictionary path _) => ∃ result,
      log.findSome? (TableView.dictionary (φ := φ)).answer? = some result ∧
        Settles backend log options path (dictionaryOptions path result)
  | .inl (.lookup path params _) => ∃ result,
      log.findSome? (TableView.lookup (φ := φ)).answer? = some result ∧
        (∀ f, target? path result = .ok f → ∃ outcome,
          log.findSome? (made? backend) = some ((f, params), outcome) ∧
            Settles backend log options path (callOptions path outcome)) ∧
        ∀ error, target? path result = .error error →
          Settles backend log options path (.error error)
  | .inl (.call path _ outcome) => Settles backend log options path (callOptions path outcome)

variable {backend : Backend φ} {options : ChoiceList}
  {log : List (PollRecord (Cache φ) Resolution)}

theorem Settles.cons {p : PollRecord (Cache φ) Resolution} {path : String}
    {result : Except OptionError ChoiceList} (h : Settles backend log options path result)
    (hp : ownNotices backend p = []) : Settles backend (p :: log) options path result where
  options_eq := h.options_eq
  notices_eq := by rw [List.flatMap_cons, hp, List.nil_append, h.notices_eq]

theorem settles_of_settle {p : PollRecord (Cache φ) Resolution} {c : Cache φ} {path : String}
    {result : Except OptionError ChoiceList}
    (h : Concludes backend log options (settle c path result).2)
    (hp : ownNotices backend p = degradations path result) :
    Settles backend (p :: log) options path result := by
  rw [settle_answer] at h
  refine ⟨h.1, ?_⟩
  rw [List.flatMap_cons, hp, h.2, List.append_nil]

theorem settles_of_startCall {p : PollRecord (Cache φ) Resolution} {c : Cache φ} {path : String}
    {f : φ} {params : Json} (hc : c.history = p.state.history ++ loadEvents p)
    (hp : poll backend p.live p.state p.activity = startCall backend c path f params)
    (h : Concludes backend log options (startCall backend c path f params).2) :
    Settles backend (p :: log) options path
      (callOptions path (backend f (callCount c f) params).outcome) := by
  have hcalled : (c.record [.called f params]).history =
      p.state.history ++ (loadEvents p ++ [.called f params]) := by
    rw [← List.append_assoc, ← hc]
    rfl
  simp only [startCall] at h hp
  split at h
  case h_1 n hdelay =>
    rw [hdelay] at hp
    refine Settles.cons h (ownNotices_eq [(f, params)] ?_)
    rw [hp, hcalled]
    rfl
  case h_2 hdelay =>
    rw [hdelay] at hp
    refine settles_of_settle h (ownNotices_eq [(f, params)] ?_)
    rw [hp, history_settle, hcalled]
    simp

theorem concludes_dictionary {position live : Nat} {c : Cache φ} {path : String}
    {request : Request}
    (h : Concludes backend log options (poll backend live c (.dictionary path request)).2) :
    Concludes backend (⟨position, live, c, .dictionary path request⟩ :: log) options
      (.inl (.dictionary path request)) := by
  have hanswer : (TableView.dictionary (φ := φ)).answer?
      ⟨position, live, c, .dictionary path request⟩ =
        (c.pollDictionary live request).2.getRight? := rfl
  have hhistory : (c.pollDictionary live request).1.history =
      c.history ++ loadEvents ⟨position, live, c, .dictionary path request⟩ := rfl
  cases ha : (c.pollDictionary live request).2 with
  | inl request' =>
    have hpoll : poll backend live c (.dictionary path request) =
        ((c.pollDictionary live request).1, .inl (.dictionary path request')) := by
      simp only [poll, ha]
    rw [hpoll] at h
    obtain ⟨result, hfound, hsettles⟩ := h
    refine ⟨result, ?_, hsettles.cons (ownNotices_eq [] ?_)⟩
    · rw [List.findSome?_cons, hanswer, ha]
      exact hfound
    · rw [hpoll, hhistory]
      simp
  | inr result =>
    have hpoll : poll backend live c (.dictionary path request) =
        settle (c.pollDictionary live request).1 path (dictionaryOptions path result) := by
      simp only [poll, ha]
    rw [hpoll] at h
    refine ⟨result, ?_, settles_of_settle h (ownNotices_eq [] ?_)⟩
    · rw [List.findSome?_cons, hanswer, ha]
      rfl
    · rw [hpoll, history_settle, hhistory]
      simp

theorem concludes_lookup {position live : Nat} {c : Cache φ} {path : String} {params : Json}
    {request : Request}
    (h : Concludes backend log options (poll backend live c (.lookup path params request)).2) :
    Concludes backend (⟨position, live, c, .lookup path params request⟩ :: log) options
      (.inl (.lookup path params request)) := by
  have hanswer : (TableView.lookup (φ := φ)).answer?
      ⟨position, live, c, .lookup path params request⟩ =
        (c.pollLookup live request).2.getRight? := rfl
  have hhistory : (c.pollLookup live request).1.history =
      c.history ++ loadEvents ⟨position, live, c, .lookup path params request⟩ := rfl
  cases ha : (c.pollLookup live request).2 with
  | inl request' =>
    have hpoll : poll backend live c (.lookup path params request) =
        ((c.pollLookup live request).1, .inl (.lookup path params request')) := by
      simp only [poll, ha]
    have hown : ownNotices backend ⟨position, live, c, .lookup path params request⟩ = [] := by
      apply ownNotices_eq []
      rw [hpoll, hhistory]
      simp
    have hmade : made? backend ⟨position, live, c, .lookup path params request⟩ = none := by
      simp [made?, answer?, due, ha]
    rw [hpoll] at h
    obtain ⟨result, hfound, hcalled, hrefused⟩ := h
    refine ⟨result, ?_, ?_, fun error he => (hrefused error he).cons hown⟩
    · rw [List.findSome?_cons, hanswer, ha]
      exact hfound
    · intro f hf
      obtain ⟨outcome, hout, hsettles⟩ := hcalled f hf
      refine ⟨outcome, ?_, hsettles.cons hown⟩
      rw [List.findSome?_cons, hmade]
      exact hout
  | inr result =>
    -- the call is started by the poll that gets the answer, so its outcome stands first in the log
    refine ⟨result, ?_, ?_, ?_⟩
    · rw [List.findSome?_cons, hanswer, ha]
      rfl
    · intro f hf
      have hpoll : poll backend live c (.lookup path params request) =
          startCall backend (c.pollLookup live request).1 path f params := by
        simp only [poll, ha, hf]
      have hmade : made? backend ⟨position, live, c, .lookup path params request⟩ =
          some ((f, params), (backend f (callCount c f) params).outcome) := by
        simp [made?, answer?, due, ha, hf, Except.toOption]
      rw [hpoll] at h
      refine ⟨(backend f (callCount c f) params).outcome, ?_, ?_⟩
      · rw [List.findSome?_cons, hmade]
      · rw [← callCount_pollLookup c live request f]
        exact settles_of_startCall hhistory hpoll h
    · intro error he
      have hpoll : poll backend live c (.lookup path params request) =
          settle (c.pollLookup live request).1 path (.error error) := by
        simp only [poll, ha, he]
      rw [hpoll] at h
      refine settles_of_settle h (ownNotices_eq [] ?_)
      rw [hpoll, history_settle, hhistory]
      simp

theorem concludes_poll (p : PollRecord (Cache φ) Resolution)
    (h : Concludes backend log options (poll backend p.live p.state p.activity).2) :
    Concludes backend (p :: log) options (.inl p.activity) := by
  obtain ⟨position, live, c, r⟩ := p
  cases r with
  | dictionary path request => exact concludes_dictionary h
  | lookup path params request => exact concludes_lookup h
  | call path polls outcome =>
    cases polls with
    | succ n =>
      refine Settles.cons h (ownNotices_eq [] ?_)
      simp [poll, loadEvents]
    | zero =>
      refine settles_of_settle h (ownNotices_eq [] ?_)
      simp [poll, history_settle, loadEvents]

theorem concludes_of_runs {between : Cache φ → Cache φ → Prop}
    {x y : Cache φ × List (Resolution ⊕ ChoiceList)}
    (h : (activity backend).Runs between x log y) {position : Nat} {e : Resolution ⊕ ChoiceList}
    (he : x.2[position]? = some e) (hend : y.2[position]? = some (.inr options)) :
    Concludes backend (PollRecord.ofPosition log position) options e := by
  obtain ⟨e', he', hends⟩ := h.ofPosition
    (fun e log e' => ∀ options, e' = .inr options → Concludes backend log options e)
    (by rintro e options rfl; exact ⟨rfl, rfl⟩)
    (fun p log e' hends options he' => concludes_poll p (hends options he')) he
  rw [hend] at he'
  cases he'
  exact hends options rfl

def EndsWith (backend : Backend φ) (log : List (PollRecord (Cache φ) Resolution))
    (options : ChoiceList) : Resolution ⊕ ChoiceList → Prop
  | .inr options' => options = options'
  | .inl (.dictionary path _) => ∃ result,
      log.findSome? (TableView.dictionary (φ := φ)).answer? = some result ∧
        options = (dictionaryOptions path result).toOption.getD .empty
  | .inl (.lookup path params _) => ∃ result,
      log.findSome? (TableView.lookup (φ := φ)).answer? = some result ∧
        (∀ f, target? path result = .ok f → ∃ n,
          options = (callOptions path (backend f n params).outcome).toOption.getD .empty) ∧
        ∀ error, target? path result = .error error → options = .empty
  | .inl (.call path _ outcome) => options = (callOptions path outcome).toOption.getD .empty

theorem exists_outcome_of_made {m : φ × Json} {outcome : Except Failure Json}
    (h : log.findSome? (made? backend) = some (m, outcome)) :
    ∃ n, outcome = (backend m.1 n m.2).outcome := by
  obtain ⟨p, -, hp⟩ := List.exists_of_findSome?_eq_some h
  obtain ⟨m', -, hm⟩ := Option.map_eq_some_iff.mp hp
  cases hm
  exact ⟨_, rfl⟩

theorem Concludes.endsWith {e : Resolution ⊕ ChoiceList} (h : Concludes backend log options e) :
    EndsWith backend log options e := by
  rcases e with r | options'
  · cases r with
    | dictionary path request =>
      obtain ⟨result, hfound, hsettles⟩ := h
      exact ⟨result, hfound, hsettles.options_eq⟩
    | lookup path params request =>
      obtain ⟨result, hfound, hcalled, hrefused⟩ := h
      refine ⟨result, hfound, ?_, fun error he => (hrefused error he).options_eq⟩
      intro f hf
      obtain ⟨outcome, hmade, hsettles⟩ := hcalled f hf
      obtain ⟨n, rfl⟩ := exists_outcome_of_made hmade
      exact ⟨n, hsettles.options_eq⟩
    | call path polls outcome => exact h.options_eq
  · exact h.1

theorem endsWith_of_runs {between : Cache φ → Cache φ → Prop}
    {x y : Cache φ × List (Resolution ⊕ ChoiceList)}
    (h : (activity backend).Runs between x log y) {position : Nat} {e : Resolution ⊕ ChoiceList}
    (he : x.2[position]? = some e) (hend : y.2[position]? = some (.inr options)) :
    EndsWith backend (PollRecord.ofPosition log position) options e :=
  (concludes_of_runs h he hend).endsWith

end Resolution

end FormCompiler
