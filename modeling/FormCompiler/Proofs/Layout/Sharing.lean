import FormCompiler.Proofs.Layout.Calls
import FormCompiler.Proofs.Resolution.Sharing

namespace FormCompiler

variable {φ τ : Type}

theorem Form.Field.fresh_of_resolution {f : Field} {r : Resolution} (h : f.resolution = .inl r) :
    (Task.options r).Fresh := by
  unfold resolution at h
  split at h <;> cases h <;> rfl

variable [DecidableEq φ]

theorem TableView.slot_awaiting (V : TableView φ τ) (document : Json) (o : CompilerOptions)
    (c : Cache φ) : V.slot (awaiting document o c).1 = V.slot c := by
  unfold awaiting
  cases Form.config? document with
  | none => exact V.slot_note c _
  | some ms => exact (V.slot_note _ _).trans (V.slot_note c _)

theorem opening_awaiting (V : TableView φ τ) (document : Json) (o : CompilerOptions) {w : Supply φ}
    {c : Cache φ} (hc : c.Sound w) : V.Opening (awaiting document o c) where
  sound := by
    obtain ⟨strategies, floor, hsound⟩ := V.sound w c hc
    rw [V.slot_awaiting]
    exact ⟨strategies, floor, hsound⟩
  fresh := by
    rw [awaiting_entries, List.forall_mem_map]
    intro f _ request hrequest
    obtain ⟨r, hr, hrequest⟩ := Option.bind_eq_some_iff.mp hrequest
    have hfresh := Form.Field.fresh_of_resolution (Sum.getLeft?_eq_some_iff.mp hr)
    exact V.fresh_request r request hfresh hrequest

theorem TableView.isSome_requestOf {V : TableView φ τ} {f : Form.Field}
    (h : f.asks V.table = true) : (V.requestOf f.resolution).isSome = true := by
  have htable := (f.tableOf_resolution V.table).mpr h
  obtain ⟨r, hr, htable⟩ := Option.bind_eq_some_iff.mp htable
  rw [TableView.requestOf, hr, Option.bind_some]
  exact (V.isSome_request? r).mpr htable

/-- A compile, in whichever order it polls its fields, at a cache that may have been used before,
with nobody else at work: every field that asks for a table gets an answer. All that get a table get
the same one. Two fields get the same answer when no load of the table fails between their first
polls. A strategy is started once, and once more at most for every load that a field begins after
another one has failed. So all fields get the same answer, and no strategy is started twice, as long
as no load has failed when a field asks. -/
theorem compile_sharing (document : Json) (o : CompilerOptions) {w : Supply φ} {c : Cache φ}
    {tasks : List Task} (hc : w.Reaches c tasks) :
    (∃ (log : List (PollRecord (Cache φ) Resolution)) (options : List ChoiceList),
      (Resolution.activity w.backend).Runs Eq (awaiting document o c) log
        ((compile document o w.backend c).1, options.map .inr) ∧
      ∃ notices : List Notice, (compile document o w.backend c).1.history =
        c.history ++ (notices.map .noticed ++ log.flatMap (Resolution.events w.backend))) ∧
    ∀ log y, (Resolution.activity w.backend).Runs Eq (awaiting document o c) log y →
      ∀ {τ : Type} (V : TableView φ τ),
        ((∀ e ∈ y.2, e.isRight = true) → ∀ i f, (waitingFields document)[i]? = some f →
          f.asks V.table = true → (V.answerAt log i).isSome = true) ∧
        (∀ i j t t', V.answerAt log i = some (.ok t) → V.answerAt log j = some (.ok t') →
          t = t') ∧
        (∀ before p between q after, log = before ++ p :: (between ++ q :: after) →
          V.asks p = true → V.asks q = true → V.failures q = V.failures p →
          ∀ result result', V.answerAt log p.position = some result →
            V.answerAt log q.position = some result' → result = result') ∧
        (∀ strategy, (log.flatMap (Resolution.events w.backend)).countP
            (Event.isStart V.table strategy) ≤
          log.countP (V.retries (V.slot c).failures) + 1) ∧
        ((∀ p ∈ log, V.asks p = true → V.failures p = (V.slot c).failures) →
          (∀ i j result result', V.answerAt log i = some result →
            V.answerAt log j = some result' → result = result') ∧
          ∀ strategy, (log.flatMap (Resolution.events w.backend)).countP
            (Event.isStart V.table strategy) ≤ 1) := by
  refine ⟨?_, ?_⟩
  · obtain ⟨log, options, hlog, -⟩ := runs_compile document o w.backend c
    obtain ⟨-, notices, hnotices⟩ := awaiting_state document o c
    refine ⟨log, options, hlog, notices, ?_⟩
    rw [Resolution.history_of_runs hlog, hnotices, List.append_assoc]
  intro log y h τ V
  have hx := opening_awaiting V document o hc.sound
  have hslot := V.slot_awaiting document o c
  have hstarts := TableView.Opening.starts_le h hx
  have hagree := @TableView.Opening.results_agree_of_failures _ _ _ V _ _ _ _ h hx
  rw [hslot] at hstarts hagree
  refine ⟨?_, ?_, ?_, hstarts, ?_⟩
  · intro hend i f hf hasks
    have he : (awaiting document o c).2[i]? = some f.resolution := by
      rw [awaiting_entries, List.getElem?_map, hf, Option.map_some]
    exact TableView.Opening.isSome_answerAt h hend he (TableView.isSome_requestOf hasks)
  · intro i j t t' ht ht'
    exact TableView.Opening.tables_agree h hx ht ht'
  · intro before p between q after hlog hp hq hfailures result result' hresult hresult'
    exact TableView.Opening.results_agree h hx hlog hp hq hfailures hresult hresult'
  · intro hgood
    refine ⟨fun i j result result' hresult hresult' => hagree hgood hresult hresult', ?_⟩
    intro strategy
    have hnone : log.countP (V.retries (V.slot c).failures) = 0 := by
      rw [List.countP_eq_zero]
      intro p hp hretries
      obtain ⟨hasks, hlt⟩ := Bool.and_eq_true_iff.mp hretries
      rw [hgood p hp (Bool.and_eq_true_iff.mp hasks).1] at hlt
      exact Nat.lt_irrefl _ (of_decide_eq_true hlt)
    have hle := hstarts strategy
    rwa [hnone] at hle

def twins : Json :=
  .object [("config", .object [("B", .object [("properties", .object [
    ("a", .object [("enumDict", .string "d")]), ("b", .object [("enumDict", .string "d")])])])])]

def Strategy.flaky (polls failing : Nat) : Strategy Json where
  name := "flaky"
  attempt n :=
    { delay := .polls polls
      outcome := if n < failing then .error ⟨["down"]⟩
        else .ok (.object [("d", .array [.object [("code", .string "1")]])]) }

def flakySupply (polls failing : Nat) : Supply Nat where
  dictionaries := [.flaky polls failing]
  lookups := []
  backend _ _ _ := ⟨0, .error ⟨["closed"]⟩⟩

def flakyCache (polls failing : Nat) : Cache Nat :=
  .ofStrategies (flakySupply polls failing).dictionaries (flakySupply polls failing).lookups

theorem compile_sharing_twins :
    let c := flakyCache 1 1
    let backend := (flakySupply 1 1).backend
    let V : TableView Nat Json := .dictionary
    ∃ (log : List (PollRecord (Cache Nat) Resolution))
        (y : Cache Nat × List (Resolution ⊕ ChoiceList)) (result : LoadResult Json),
      (Resolution.activity backend).Runs Eq (awaiting twins {} c) log y ∧
      (∀ p ∈ log, V.asks p = true → V.failures p = (V.slot c).failures) ∧
      V.answerAt log 0 = some result ∧ V.answerAt log 1 = some result ∧
      ∀ strategy, (log.flatMap (Resolution.events backend)).countP
        (Event.isStart .dictionary strategy) ≤ 1 := by
  intro c backend V
  have hc : (flakySupply 1 1).Reaches c [] := .init
  obtain ⟨log, y, hlog, hend, hgood⟩ : ∃ (log : List (PollRecord (Cache Nat) Resolution))
      (y : Cache Nat × List (Resolution ⊕ ChoiceList)),
      (Resolution.activity backend).Runs Eq (awaiting twins {} c) log y ∧
      (∀ e ∈ y.2, e.isRight = true) ∧
      ∀ p ∈ log, V.asks p = true → V.failures p = (V.slot c).failures :=
    ⟨[⟨0, 2, _, _⟩, ⟨1, 2, _, _⟩, ⟨0, 2, _, _⟩], _,
      .poll rfl rfl (.poll rfl rfl (.poll rfl rfl (.refl _))), by decide, by decide⟩
  obtain ⟨hanswers, -, -, -, hshared⟩ := (compile_sharing twins {} hc).2 log y hlog V
  obtain ⟨hagree, hstarts⟩ := hshared hgood
  obtain ⟨result, hresult⟩ := Option.isSome_iff_exists.mp (hanswers hend 0 _ rfl rfl)
  obtain ⟨result', hresult'⟩ := Option.isSome_iff_exists.mp (hanswers hend 1 _ rfl rfl)
  have he := hagree 0 1 result result' hresult hresult'
  subst he
  exact ⟨log, y, result, hlog, hgood, hresult, hresult', hstarts⟩

/-- The load that the first field begins fails at once, and the second field begins another one. -/
theorem compile_sharing_flaky :
    let c := flakyCache 0 1
    let V : TableView Nat Json := .dictionary
    let compiled := compile twins {} (flakySupply 0 1).backend c
    compiled.1.history.countP (Event.isStart .dictionary 0) = 2 ∧
      ∃ (log : List (PollRecord (Cache Nat) Resolution)) (options : List ChoiceList)
          (t : Loaded Json),
        (Resolution.activity (flakySupply 0 1).backend).Runs Eq (awaiting twins {} c) log
          (compiled.1, options.map .inr) ∧
        V.answerAt log 0 = some (.error (.unavailable .dictionary [⟨"flaky", ⟨["down"]⟩⟩])) ∧
        V.answerAt log 1 = some (.ok t) := by
  intro c V compiled
  have hfinish : compiled.1 = ((Resolution.activity (flakySupply 0 1).backend).round 2
      (awaiting twins {} c).1 (awaiting twins {} c).2).1 := by
    simp only [compiled, compile_eq_finish]
    rw [Activity.finish_of_pending _ rfl, Activity.finish_of_results _ rfl]
    rfl
  rw [hfinish]
  exact ⟨rfl, [⟨0, 2, _, _⟩, ⟨1, 2, _, _⟩], [_, _], ⟨1, _⟩,
    .poll rfl rfl (.poll rfl rfl (.refl _)), rfl, rfl⟩

end FormCompiler
