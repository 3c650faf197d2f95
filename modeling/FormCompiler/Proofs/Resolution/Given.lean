import FormCompiler.Proofs.Resolution.Outcomes

namespace FormCompiler

structure Tables (φ : Type) where
  dictionary : Option Json
  functions : Option (LookupTable φ)

def Supply.tables {φ : Type} (w : Supply φ) : Tables φ where
  dictionary := Strategy.table? w.dictionaries
  functions := Strategy.table? w.lookups

variable {φ τ : Type} [DecidableEq φ]

namespace TableView

def given? (V : TableView φ τ) (log : List (PollRecord (Cache φ) Resolution)) : Option τ :=
  (log.findSome? V.answer?).bind fun result => result.toOption.map Loaded.table

theorem table_of_answer (V : TableView φ τ) {strategies : List (Strategy τ)}
    (hconstant : ∀ s ∈ strategies, s.Alike s) {p : PollRecord (Cache φ) Resolution}
    (hslot : (V.slot p.state).Steady strategies)
    (hissued : ∀ request, V.request? p.activity = some request → (V.slot p.state).Issued request)
    {result : LoadResult τ} (hanswer : V.answer? p = some result) :
    result.toOption.map Loaded.table = Strategy.table? strategies := by
  obtain ⟨request, hrequest, hright⟩ := Option.bind_eq_some_iff.mp hanswer
  have hanswers := (hslot.poll hconstant p.live (hissued request hrequest)).2
  rw [Sum.getRight?_eq_some_iff.mp hright] at hanswers
  exact hanswers

end TableView

namespace Tables

def given (log : List (PollRecord (Cache φ) Resolution)) : Tables φ where
  dictionary := TableView.dictionary.given? log
  functions := TableView.lookup.given? log

structure Answers (tables : Tables φ) (p : PollRecord (Cache φ) Resolution) : Prop where
  dictionary : ∀ result, TableView.dictionary.answer? p = some result →
    result.toOption.map Loaded.table = tables.dictionary
  functions : ∀ result, TableView.lookup.answer? p = some result →
    result.toOption.map Loaded.table = tables.functions

end Tables

namespace Resolution

/-- The options that an entry may end with when it is given the tables. -/
def EndsBy (backend : Backend φ) (tables : Tables φ) (options : ChoiceList) :
    Resolution ⊕ ChoiceList → Prop
  | .inr options' => options = options'
  | .inl (.dictionary path _) =>
    options = (tables.dictionary.bind fun table =>
      (dictionaryOptions path (.ok ⟨0, table⟩)).toOption).getD .empty
  | .inl (.lookup path params _) =>
    match tables.functions.bind fun table => (target? path (.ok ⟨0, table⟩)).toOption with
    | some f => ∃ n,
      options = (callOptions path (backend f n params).outcome).toOption.getD .empty
    | none => options = .empty
  | .inl (.call path _ outcome) => options = (callOptions path outcome).toOption.getD .empty

variable {backend : Backend φ} {tables : Tables φ} {options : ChoiceList}
  {log : List (PollRecord (Cache φ) Resolution)} {e : Resolution ⊕ ChoiceList}

theorem EndsWith.endsBy (h : EndsWith backend log options e)
    (hdictionary : ∀ result, log.findSome? (TableView.dictionary (φ := φ)).answer? = some result →
      result.toOption.map Loaded.table = tables.dictionary)
    (hfunctions : ∀ result, log.findSome? (TableView.lookup (φ := φ)).answer? = some result →
      result.toOption.map Loaded.table = tables.functions) :
    EndsBy backend tables options e := by
  rcases e with r | options'
  · cases r with
    | dictionary path request =>
      obtain ⟨result, hfound, rfl⟩ := h
      simp only [EndsBy]
      rw [← hdictionary result hfound, ← toOption_dictionaryOptions]
    | lookup path params request =>
      obtain ⟨result, hfound, hcalled, hrefused⟩ := h
      simp only [EndsBy]
      rw [← hfunctions result hfound, ← toOption_target?]
      cases htarget : target? path result with
      | ok f => exact hcalled f htarget
      | error error => exact hrefused error htarget
    | call path polls outcome => exact h
  · exact h

theorem EndsWith.endsBy_given (h : EndsWith backend log options e) :
    EndsBy backend (.given log) options e := by
  apply h.endsBy
  · intro result hfound
    simp only [Tables.given, TableView.given?, hfound, Option.bind_some]
  · intro result hfound
    simp only [Tables.given, TableView.given?, hfound, Option.bind_some]

theorem EndsWith.endsBy_of_answers (h : EndsWith backend log options e)
    (hlog : ∀ p ∈ log, tables.Answers p) : EndsBy backend tables options e := by
  apply h.endsBy
  · intro result hfound
    obtain ⟨p, hp, hanswer⟩ := List.exists_of_findSome?_eq_some hfound
    exact (hlog p hp).dictionary result hanswer
  · intro result hfound
    obtain ⟨p, hp, hanswer⟩ := List.exists_of_findSome?_eq_some hfound
    exact (hlog p hp).functions result hanswer

structure Given (backend : Backend φ) (tables : Tables φ) (entries : List (Resolution ⊕ ChoiceList))
    (log : List (PollRecord (Cache φ) Resolution)) (entries' : List (Resolution ⊕ ChoiceList)) :
    Prop where
  answers : ∀ p ∈ log, tables.Answers p
  options : ∀ (i : Nat) e options, entries[i]? = some e → entries'[i]? = some (.inr options) →
    EndsBy backend tables options e

end Resolution

namespace Supply.Reaches

variable {w : Supply φ} {c : Cache φ} {tasks : List Task}

theorem given (hw : w.Constant) (hc : w.Reaches c tasks) {between : Cache φ → Cache φ → Prop}
    (hbetween : ∀ c c' tasks, between c c' → w.Reaches c tasks → w.Reaches c' tasks)
    {document : Json} {o : CompilerOptions} {log : List (PollRecord (Cache φ) Resolution)}
    {y : Cache φ × List (Resolution ⊕ ChoiceList)}
    (hruns : (Resolution.activity w.backend).Runs between (FormCompiler.awaiting document o c)
      log y) :
    Resolution.Given w.backend w.tables (FormCompiler.awaiting document o c).2 log y.2 := by
  have hpolls := of_runs hasTasks_resolutions hbetween hruns (hc.awaiting document o)
  have hanswers : ∀ p ∈ log, w.tables.Answers p := by
    intro p hp
    obtain ⟨tasks', hstate, hactivity⟩ := hpolls p hp
    obtain ⟨hsteady, hunderway⟩ := hstate.steady hw
    obtain ⟨options, hexpects⟩ := hunderway _ hactivity
    constructor
    · intro result
      exact TableView.dictionary.table_of_answer hw.dictionaries hsteady.dictionaries
        fun _ => hexpects.issued_dictionary
    · intro result
      exact TableView.lookup.table_of_answer hw.lookups hsteady.lookups
        fun _ => hexpects.issued_lookup
  refine ⟨hanswers, fun i e options he hend => ?_⟩
  have hends := Resolution.endsWith_of_runs hruns he hend
  exact hends.endsBy_of_answers fun p hp => hanswers p (List.mem_of_mem_filter hp)

theorem given_eq (hw : w.Constant) (hc : w.Reaches c tasks) {document : Json} {o : CompilerOptions}
    {log : List (PollRecord (Cache φ) Resolution)} {y : Cache φ × List (Resolution ⊕ ChoiceList)}
    (hruns : (Resolution.activity w.backend).Runs Eq (FormCompiler.awaiting document o c) log y) :
    Resolution.Given w.backend w.tables (FormCompiler.awaiting document o c).2 log y.2 := by
  refine hc.given hw ?_ hruns
  rintro c _ tasks rfl hc
  exact hc

end Supply.Reaches

/-- A document compiles to a result in a run whose fields are given the tables. -/
def CompilesGiven (tables : Tables φ) (document : Json) (o : CompilerOptions) (backend : Backend φ)
    (c c' : Cache φ) (result : Option Schema) : Prop :=
  ∃ log options,
    (Resolution.activity backend).Runs Eq (awaiting document o c) log (c', options.map .inr) ∧
    Resolution.Given backend tables (awaiting document o c).2 log (options.map .inr) ∧
    result = (Form.config? document).map fun ms =>
      (Layout.ofForm (Form.ofMembers ms) o).withOptions options

theorem compilesGiven_compile {w : Supply φ} {c : Cache φ} {tasks : List Task} (hw : w.Constant)
    (hc : w.Reaches c tasks) (document : Json) (o : CompilerOptions) :
    CompilesGiven w.tables document o w.backend c (compile document o w.backend c).1
      (compile document o w.backend c).2 := by
  obtain ⟨log, options, hlog, hresult⟩ := runs_compile document o w.backend c
  exact ⟨log, options, hlog, hc.given_eq hw hlog, hresult⟩

end FormCompiler
