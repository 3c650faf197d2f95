import FormCompiler.Proofs.Layout.Answers
import FormCompiler.Proofs.Layout.Orders
import FormCompiler.Proofs.Resolution.Calls

namespace FormCompiler

namespace Form

namespace Field

def isOpen (f : Field) : Bool := f.companion?.isNone && (f.enums.getD []).isEmpty

def dictionary? (f : Field) : Option String := if f.isOpen then f.enumDict else none

def lookup? (f : Field) : Option (String × Json) :=
  if f.isOpen && f.enumDict.isNone then
    f.enumApi.map fun path => (path, f.enumApiParams.getD Json.emptyObject)
  else none

def asks (f : Field) : TableId → Bool
  | .dictionary => f.dictionary?.isSome
  | .lookup => f.lookup?.isSome

def waits (f : Field) : Bool := f.asks .dictionary || f.asks .lookup

def call? {φ : Type} (f : Field) (answer : Option (LoadResult (LookupTable φ))) :
    Option (φ × Json) :=
  f.lookup?.bind fun (path, params) =>
    answer.bind fun result => (Resolution.target? path result).toOption.map (·, params)

def resolution (f : Field) : Resolution ⊕ ChoiceList :=
  match f.dictionary?, f.lookup? with
  | some path, _ => .inl (.dictionary path .fresh)
  | none, some (path, params) => .inl (.lookup path params .fresh)
  | none, none => .inr .empty

theorem dueOf_resolution {φ : Type} (f : Field) (answer : Option (LoadResult (LookupTable φ))) :
    Resolution.dueOf answer f.resolution = f.call? answer := by
  unfold resolution call?
  cases hd : f.dictionary? with
  | none => cases f.lookup? <;> rfl
  | some path =>
    have hl : f.lookup? = none := by
      unfold dictionary? at hd
      unfold lookup?
      split at hd
      · simp [hd]
      · cases hd
    rw [hl]
    rfl

theorem tableOf_resolution (f : Field) (table : TableId) :
    Resolution.tableOf f.resolution = some table ↔ f.asks table = true := by
  unfold resolution asks dictionary? lookup?
  cases f.isOpen <;> cases f.enumDict <;> cases f.enumApi <;> cases table <;>
    simp [Resolution.tableOf, Resolution.table?]

theorem isLeft_resolution {f : Field} (h : f.waits = true) : f.resolution.isLeft = true := by
  unfold waits asks at h
  unfold resolution
  cases hd : f.dictionary? <;> cases hl : f.lookup? <;> simp_all

theorem pending_eq (block key : String) (f : Field) :
    (if f.companion?.isSome then [] else Layout.pendingOf block key f).map
        (fun p => Resolution.ofSource p.source) = if f.waits then [f.resolution] else [] := by
  unfold Layout.pendingOf optionSource? waits asks resolution dictionary? lookup? isOpen
  rcases f.enums with _ | _ | _ <;> cases f.companion? <;> cases f.enumDict <;> cases f.enumApi <;>
    simp [Resolution.ofSource, Option.filter]

end Field

def waitingFields (form : Form) : List Field :=
  (form.declarations.map (·.2.2)).filter Field.waits

theorem resolutions_eq (form : Form) (o : CompilerOptions) :
    ((Layout.ofForm form o).pending.map (·.source)).map Resolution.ofSource =
      form.waitingFields.map Field.resolution := by
  rw [Layout.ofForm, Layout.foldl_place_pending, List.nil_append, waitingFields, List.map_map]
  induction form.declarations with
  | nil => rfl
  | cons d ds ih =>
    have hd := Field.pending_eq d.1 d.2.1 d.2.2
    rw [List.flatMap_cons, List.map_append, ih, List.map_cons, List.filter_cons]
    simp only [Function.comp_def, hd]
    cases d.2.2.waits <;> simp

end Form

def waitingFields (document : Json) : List Form.Field :=
  match Form.config? document with
  | none => []
  | some ms => (Form.ofMembers ms).waitingFields

variable {φ : Type}

theorem awaiting_entries (document : Json) (o : CompilerOptions) (c : Cache φ) :
    (awaiting document o c).2 = (waitingFields document).map Form.Field.resolution := by
  unfold awaiting waitingFields
  cases Form.config? document with
  | none => rfl
  | some ms => exact (Form.ofMembers ms).resolutions_eq o

theorem awaiting_state (document : Json) (o : CompilerOptions) (c : Cache φ) :
    (awaiting document o c).1.lookups = c.lookups ∧
      ∃ notices : List Notice, (awaiting document o c).1.history =
        c.history ++ notices.map .noticed := by
  unfold awaiting
  cases Form.config? document with
  | none => exact ⟨rfl, [.noConfig], rfl⟩
  | some ms =>
    refine ⟨rfl, Form.notices ms ++ (Layout.ofForm (Form.ofMembers ms) o).notices, ?_⟩
    simp [Cache.note, Cache.record]

theorem isLeft_awaiting (document : Json) (o : CompilerOptions) (c : Cache φ) :
    ∀ e ∈ (awaiting document o c).2, e.isLeft = true := by
  rw [awaiting_entries, List.forall_mem_map]
  intro f hf
  unfold waitingFields at hf
  split at hf
  · cases hf
  · exact Form.Field.isLeft_resolution (List.mem_filter.mp hf).2

theorem begun_awaiting (document : Json) (o : CompilerOptions) (c : Cache φ) :
    Resolution.Begun 0 (awaiting document o c).2 where
  past i e hi := absurd hi (Nat.not_lt_zero i)
  fresh := by
    intro i path params request _ he
    rw [awaiting_entries, List.getElem?_map] at he
    obtain ⟨f, -, he⟩ := Option.map_eq_some_iff.mp he
    unfold Form.Field.resolution at he
    split at he <;> cases he
    rfl

variable [DecidableEq φ]

def writtenParams (j : Json) : Json :=
  match j.get? "enumApiParams" with
  | none | some .null => Json.emptyObject
  | some params => params

theorem params_eq {j : Json} {f : Form.Field} (h : Form.Field.read? j = some f) {path : String}
    {params : Json} (hf : f.lookup? = some (path, params)) : params = writtenParams j := by
  cases j with
  | object ms =>
    simp only [Form.Field.read?, Option.ite_none_right_eq_some, Option.some_inj] at h
    obtain ⟨-, rfl⟩ := h
    simp only [Form.Field.lookup?, Option.ite_none_right_eq_some, Option.map_eq_some_iff,
      Prod.mk.injEq] at hf
    obtain ⟨-, _, -, -, rfl⟩ := hf
    simp only [writtenParams, Json.get?, Form.Field.ofMembers, Choice.set?]
    cases ms.lookup "enumApiParams" with
    | none => rfl
    | some v => cases v <;> rfl
  | _ => cases h

/-- Whatever the cache holds, in whichever order the fields are polled and whatever others do to the
cache in the meantime: each waiting field that asks for a lookup function and is answered with a
table that has the function makes one call, with the parameters that are written for it, and there
is no other call. A strategy is started only for a table that a waiting field asks for. In the end
every field that asks for a function has been answered. When the fields are polled for the first
time in their order and the functions are there each time, the calls are made in that order; so it
is in a compile in rounds that finds the functions there when it begins. -/
theorem compile_calls (document : Json) (o : CompilerOptions) (backend : Backend φ) (c : Cache φ) :
    (∃ (log : List (PollRecord (Cache φ) Resolution)) (options : List ChoiceList),
      (Resolution.activity backend).Runs Eq (awaiting document o c) log
        ((compile document o backend c).1, options.map .inr) ∧
      (∀ t, c.lookups.state = .ready t →
        PollRecord.Orderly (·.lookups.state = .ready t) 0 log) ∧
      ∃ notices : List Notice, (compile document o backend c).1.history =
        c.history ++ (notices.map .noticed ++ log.flatMap (Resolution.events backend))) ∧
    (∀ j f path params, Form.Field.read? j = some f → f.lookup? = some (path, params) →
      params = writtenParams j) ∧
    ∀ between log y, (Resolution.activity backend).Runs between (awaiting document o c) log y →
      (Resolution.callsOf backend log).Perm
        ((waitingFields document).zipIdx.filterMap fun (f, i) =>
          f.call? (Resolution.answerAt log i)) ∧
      (∀ table strategy,
        .started table strategy ∈ log.flatMap (Resolution.events backend) →
          ∃ f ∈ waitingFields document, f.asks table = true) ∧
      ((∀ e ∈ y.2, e.isRight = true) →
        (∀ i f, (waitingFields document)[i]? = some f → f.asks .lookup = true →
          (Resolution.answerAt log i).isSome = true) ∧
        ∀ t, PollRecord.Orderly (·.lookups.state = .ready t) 0 log →
          Resolution.callsOf backend log =
            (waitingFields document).filterMap fun f => f.call? (some (.ok t))) := by
  have hentries := awaiting_entries document o c
  obtain ⟨hlookups, notices, hnotices⟩ := awaiting_state document o c
  refine ⟨?_, fun _ _ _ _ hj hf => params_eq hj hf, ?_⟩
  · obtain ⟨log, hlog, horderly⟩ := (Resolution.activity backend).orderly_finish
      (awaiting document o c).1 (awaiting document o c).2 (isLeft_awaiting document o c)
    have hcache := congrArg Prod.fst (compile_eq_finish document o backend c)
    rw [← hcache] at hlog
    refine ⟨log, _, hlog, ?_, notices, ?_⟩
    · intro t hready
      refine horderly _ (fun live s r hs => Resolution.ready_poll hs backend live r) ?_
      rw [hlookups, hready]
    · rw [Resolution.history_of_runs hlog, hnotices, List.append_assoc]
  intro between log y h
  refine ⟨?_, ?_, fun hend => ⟨?_, ?_⟩⟩
  · have hperm := Resolution.perm_calls h
    rw [hentries, List.zipIdx_map, List.filterMap_map] at hperm
    simpa only [Function.comp_def, Prod.map, id_eq, Form.Field.dueOf_resolution] using hperm
  · intro table strategy hstarted
    obtain ⟨e, he, htable⟩ := Resolution.exists_table_of_started h hstarted
    rw [hentries] at he
    obtain ⟨f, hf, rfl⟩ := List.mem_map.mp he
    exact ⟨f, hf, (f.tableOf_resolution table).mp htable⟩
  · intro i f hf hasks
    have he : (awaiting document o c).2[i]? = some f.resolution := by
      rw [hentries, List.getElem?_map, hf, Option.map_some]
    exact Resolution.answered_of_ended h hend he ((f.tableOf_resolution .lookup).mpr hasks)
  · intro t horderly
    have hcalls := Resolution.calls_of_ready h horderly (begun_awaiting document o c) hend
    rw [hentries, List.drop_zero, List.filterMap_map] at hcalls
    simpa only [Function.comp_def, Form.Field.dueOf_resolution] using hcalls

def calling : Json :=
  .object [("config", .object [("A", .object [("properties", .object [
    ("region", .object [("enumApi", .string "regions"), ("enumApiParams", .string "all")]),
    ("sex", .object [("enumApi", .string "sexes")]),
    ("town", .object [("enumApi", .string "towns"), ("enumApiParams", .null)])])])])]

theorem compile_calls_calling :
    let table : LookupTable Nat := .group [("towns", .function 1), ("regions", .function 0)]
    let backend : Backend Nat := fun _ _ _ => ⟨1, .error ⟨["refused"]⟩⟩
    let start : Cache Nat := .ofStrategies []
      [{ name := "local", attempt _ := { delay := .polls 0, outcome := .ok table } }]
    let c := (start.pollLookup 1 .fresh).1
    c.lookups.state = .ready ⟨0, table⟩ ∧
      (compile calling {} backend c).1.history.filterMap Event.call? =
        [(0, .string "all"), (1, Json.emptyObject)] := by
  intro table backend start c
  have hready : c.lookups.state = .ready ⟨0, table⟩ := rfl
  obtain ⟨⟨log, options, hlog, horderly, notices, hhistory⟩, -, hcalls⟩ :=
    compile_calls calling {} backend c
  have hend : ∀ e ∈ (options.map .inr : List (Resolution ⊕ ChoiceList)), e.isRight = true := by
    simp
  have horder := ((hcalls _ _ _ hlog).2.2 hend).2 _ (horderly _ hready)
  refine ⟨hready, ?_⟩
  rw [hhistory, List.filterMap_append, List.filterMap_append, Event.call?_noticed, List.nil_append]
  exact horder

end FormCompiler
