import FormCompiler.Proofs.Form.Reading
import FormCompiler.Proofs.Layout.Calls
import FormCompiler.Proofs.Layout.Companions
import FormCompiler.Proofs.Resolution.Given
import Mathlib.Data.List.Flatten
import Mathlib.Data.Prod.Basic

namespace FormCompiler

theorem Choice.mapM_read? {entries : List Json} (h : ∀ e ∈ entries, Form.isEntry e = true) :
    entries.mapM Choice.read? = some (entries.map Choice.ofJson) := by
  induction entries with
  | nil => rfl
  | cons e entries ih =>
    rw [List.forall_mem_cons, ← Form.choice_read?_isSome, Option.isSome_iff_exists] at h
    obtain ⟨⟨choice, hchoice⟩, hrest⟩ := h
    rw [List.mapM_cons, ih hrest, List.map_cons, Choice.ofJson, hchoice]
    rfl

namespace Form

def optionNames : List String := ["enums", "enumDict", "enumApi", "enumApiParams"]

def withoutOptions (ms : Members Json) : Members Json :=
  ms.filter fun (name, _) => !optionNames.contains name

theorem lookup_withoutOptions (ms : Members Json) (name : String) :
    (withoutOptions ms).lookup name = if name ∈ optionNames then none else ms.lookup name := by
  have hfilter := Members.lookup_filter ms (fun name => !optionNames.contains name) name
  refine hfilter.trans ?_
  by_cases hname : name ∈ optionNames <;> simp [hname]

namespace Field

def bare (f : Field) : Field :=
  { f with enums := none, enumDict := none, enumApi := none, enumApiParams := none }

theorem optionNames_of_role? {name : String} (h : role? name = none) : name ∉ optionNames := by
  intro hmem
  simp only [optionNames, List.mem_cons, List.not_mem_nil, or_false] at hmem
  rcases hmem with rfl | rfl | rfl | rfl <;> cases h

theorem bare_ofMembers (ms : Members Json) :
    (ofMembers ms).bare = ofMembers (withoutOptions ms) := by
  have hkept : ∀ name, name ∉ optionNames → (withoutOptions ms).lookup name = ms.lookup name := by
    intro name h
    rw [lookup_withoutOptions, if_neg h]
  have hgone : ∀ name ∈ optionNames, (withoutOptions ms).lookup name = none := by
    intro name h
    rw [lookup_withoutOptions, if_pos h]
  have hattributes : (withoutOptions ms).filter (fun (name, _) => (role? name).isNone) =
      ms.filter fun (name, _) => (role? name).isNone := by
    rw [withoutOptions, List.filter_filter]
    apply List.filter_congr
    rintro ⟨name, j⟩ -
    simpa using optionNames_of_role?
  simp (disch := decide) only [bare, ofMembers, lenient, flag, Choice.set?, hkept, hgone, hattributes]
  rfl

theorem synthesize_eq {f : Field} (h : f.hasOptionSource = true) (o : CompilerOptions) :
    f.synthesize o = { f.bare with enums := some [] }.synthesize o := by
  have hprompts : f.promptsChoice = true := by rw [promptsChoice, h, Bool.true_or]
  have hprompts' : { f.bare with enums := some [] }.promptsChoice = true := rfl
  have hplain : f.plain o = { f.bare with enums := some [] }.plain o := by
    rw [plain, plain, plainUi, plainUi, hprompts, hprompts']
    rfl
  rw [synthesize, synthesize, hplain]
  rfl

theorem bare_of_read? {written base : Members Json} {f : Field}
    (h : read? (.object written) = some f) (hsame : withoutOptions written = withoutOptions base) :
    f.bare = (ofMembers base).bare := by
  rw [eq_ofMembers h, bare_ofMembers, bare_ofMembers, hsame]

theorem optionSource?_of_inline {written : Members Json} {f : Field} {entries : List Json}
    (h : read? (.object written) = some f) (hwritten : written.lookup "enums" = some (.array entries))
    (hne : entries ≠ []) (hentries : ∀ e ∈ entries, isEntry e = true) :
    f.optionSource? = some (.inline (entries.map Choice.ofJson)) ∧ f.hasOptionSource = true := by
  have henums : f.enums = some (entries.map Choice.ofJson) := by
    simp only [eq_ofMembers h, ofMembers, hwritten, Option.bind_some, choices?, Json.optional?,
      Json.listOf?, Choice.mapM_read? hentries, Option.map_some, Option.join_some]
  constructor
  · cases entries with
    | nil => exact absurd rfl hne
    | cons e entries => simp [optionSource?, henums, Option.filter]
  · simp [hasOptionSource, henums]

theorem no_inline_of_isOpen {f : Field} (h : f.isOpen = true) :
    f.enums.filter (!·.isEmpty) = none := by
  rw [isOpen, Bool.and_eq_true] at h
  cases henums : f.enums with
  | none => rfl
  | some choices => simpa [henums] using h.2

theorem tableSource?_of_dictionary? {f : Field} {path : String} (h : f.dictionary? = some path) :
    f.tableSource? = some (.dictionary path) ∧ f.hasOptionSource = true := by
  rw [dictionary?, Option.ite_none_right_eq_some] at h
  obtain ⟨hopen, hpath⟩ := h
  constructor
  · simp only [tableSource?, optionSource?, no_inline_of_isOpen hopen, hpath]
  · simp [hasOptionSource, hpath]

theorem tableSource?_of_lookup? {f : Field} {path : String} {params : Json}
    (h : f.lookup? = some (path, params)) :
    f.tableSource? = some (.lookup path params) ∧ f.hasOptionSource = true := by
  simp only [lookup?, Option.ite_none_right_eq_some, Bool.and_eq_true, Option.map_eq_some_iff,
    Prod.mk.injEq, Option.isNone_iff_eq_none] at h
  obtain ⟨⟨hopen, hdictionary⟩, _, hpath, rfl, rfl⟩ := h
  constructor
  · simp only [tableSource?, optionSource?, no_inline_of_isOpen hopen, hdictionary, hpath]
  · simp [hasOptionSource, hpath]

end Field

def place (p : PendingChoice) : String × String := (p.block, p.field)

theorem place_pending_sublist (d : String × String × Field) :
    ((if d.2.2.companion?.isSome then [] else Layout.pendingOf d.1 d.2.1 d.2.2).map place).Sublist
      [(d.1, d.2.1)] := by
  unfold Layout.pendingOf
  split
  · exact List.nil_sublist _
  · split
    · exact List.nil_sublist _
    · exact List.nil_sublist _
    · exact List.Sublist.refl _

theorem Distinct.places_nodup {form : Form} (h : form.Distinct) :
    (form.declarations.map fun d => (d.1, d.2.1)).Nodup := by
  rw [declarations, List.map_flatMap, List.nodup_flatMap]
  constructor
  · rintro ⟨block, b⟩ hb
    have hfields := (h.fields block b hb).map (Prod.mk_right_injective block)
    rw [Members.names, List.map_map] at hfields
    rw [List.map_map]
    exact hfields
  · refine (List.pairwise_map.mp h.blocks).imp ?_
    rintro ⟨block, b⟩ ⟨block', b'⟩ hne at_ hmem hmem'
    obtain ⟨d, hd, rfl⟩ := List.mem_map.mp hmem
    obtain ⟨_, -, rfl⟩ := List.mem_map.mp hd
    obtain ⟨d', hd', he⟩ := List.mem_map.mp hmem'
    obtain ⟨_, -, rfl⟩ := List.mem_map.mp hd'
    exact hne (Prod.mk.inj he).1.symm

theorem Distinct.pending_nodup {form : Form} (h : form.Distinct) (o : CompilerOptions) :
    ((Layout.ofForm form o).pending.map place).Nodup := by
  refine h.places_nodup.sublist ?_
  rw [Layout.ofForm, Layout.foldl_place_pending, List.nil_append, List.map_flatMap,
    List.map_eq_flatMap]
  exact List.Sublist.flatMap_right _ fun d _ => place_pending_sublist d

end Form

variable {φ : Type} [DecidableEq φ]

def CompilesBy (between : Cache φ → Cache φ → Prop) (document : Json) (o : CompilerOptions)
    (backend : Backend φ) (c c' : Cache φ) (log : List (PollRecord (Cache φ) Resolution))
    (schema : Schema) : Prop :=
  ∃ ms options, Form.config? document = some ms ∧
    (Resolution.activity backend).Runs between (awaiting document o c) log
      (c', options.map .inr) ∧
    schema = (Layout.ofForm (Form.ofMembers ms) o).withOptions options

/-- What gives a field the entries of a list as its options: they are declared inline, or they stand
in the dictionary that the field is given, or the function that it calls answers with them. -/
inductive Gives (backend : Backend φ) (tables : Tables φ) (written : Members Json) (f : Form.Field)
    (entries : List Json) : Prop where
  | inline : written.lookup "enums" = some (.array entries) →
      Gives backend tables written f entries
  | dictionary {path : String} {table : Json} :
      f.dictionary? = some path → tables.dictionary = some table →
      table.at? path = some (.array entries) →
      Gives backend tables written f entries
  | lookup {path : String} {params : Json} {table : LookupTable φ} {g : φ} :
      f.lookup? = some (path, params) → tables.functions = some table →
      table.at? path = some (.function g) →
      (∀ n, ∃ response code, (backend g n params).outcome = .ok response ∧
        response.get? "code" = some (.number code) ∧ code.isZero = true ∧
        response.get? "data" = some (.array entries)) →
      Gives backend tables written f entries

namespace Form

def tablesGiven (form : Form) (o : CompilerOptions)
    (log : List (PollRecord (Cache φ) Resolution)) (block key : String) : Tables φ :=
  let places := (Layout.ofForm form o).pending.map place
  .given (PollRecord.ofPosition log (places.idxOf (block, key)))

/-- The fields that are written like `base`, their option sources apart, and are given the entries
by their tables have one and the same entry in a schema. -/
def Agrees (form : Form) (base : Members Json) (entries : List Json) (backend : Backend φ)
    (tables : String → String → Tables φ) (s : Schema) (entry : Schema.Field) : Prop :=
  ∀ block key f written, form.field? block key = some f →
    Field.read? (.object written) = some f → withoutOptions written = withoutOptions base →
    Gives backend (tables block key) written f entries → s.field? block key = some entry

def entryOf (base : Members Json) (o : CompilerOptions) (entries : List Json) : Schema.Field :=
  let described : Field := { (Field.ofMembers base).bare with enums := some [] }
  (described.synthesize o).withChoices (.ofEntries entries)

section

variable {form : Form} {o : CompilerOptions} {backend : Backend φ} {options : List ChoiceList}
  {block key : String} {entries : List Json}

omit [DecidableEq φ] in
theorem eq_of_gives {answers : List (PendingChoice × ChoiceList)} {tables : Tables φ}
    (hne : entries ≠ []) (hentries : ∀ e ∈ entries, isEntry e = true) {written : Members Json}
    {f : Field} (hread : Field.read? (.object written) = some f) (hbound : f.companion? = none)
    {entry : Schema.Field} (hstands : f.StandsAs o answers block key entry)
    (hends : ∀ source choices, (⟨block, key, source⟩, choices) ∈ answers →
      Resolution.EndsBy backend tables choices (Resolution.ofSource source))
    (hgives : Gives backend tables written f entries) :
    f.hasOptionSource = true ∧ entry = (f.synthesize o).withChoices (.ofEntries entries) := by
  rw [Field.StandsAs, hbound] at hstands
  cases hgives with
  | inline hwritten =>
    obtain ⟨hsource, hany⟩ := Field.optionSource?_of_inline hread hwritten hne hentries
    have htable : f.tableSource? = none := by rw [Field.tableSource?, hsource]
    rw [htable] at hstands
    refine ⟨hany, ?_⟩
    rw [hstands, Field.withInline, hsource]
    rfl
  | dictionary hpath htable hat =>
    obtain ⟨hsource, hany⟩ := Field.tableSource?_of_dictionary? hpath
    rw [hsource] at hstands
    obtain ⟨choices, hmem, rfl⟩ := hstands
    have hchoices := hends _ _ hmem
    simp only [Resolution.ofSource, Resolution.EndsBy, htable, Option.bind_some] at hchoices
    refine ⟨hany, ?_⟩
    rw [hchoices, Resolution.dictionaryOptions, hat]
    rfl
  | lookup hpath htable hat hreply =>
    obtain ⟨hsource, hany⟩ := Field.tableSource?_of_lookup? hpath
    rw [hsource] at hstands
    obtain ⟨choices, hmem, rfl⟩ := hstands
    have hchoices := hends _ _ hmem
    simp only [Resolution.ofSource, Resolution.EndsBy, htable, Option.bind_some,
      Resolution.target?_of_at? hat, Except.toOption] at hchoices
    -- how often the function has been called before does not matter for its answer
    obtain ⟨n, rfl⟩ := hchoices
    obtain ⟨response, code, houtcome, hcode, hzero, hdata⟩ := hreply n
    refine ⟨hany, ?_⟩
    rw [houtcome, Resolution.callOptions, Resolution.responseOptions_of_zero hcode hzero hdata]
    rfl

omit [DecidableEq φ] in
theorem Distinct.agrees (h : form.Distinct) {base : Members Json}
    (hbase : (Field.ofMembers base).companion? = none) (hne : entries ≠ [])
    (hentries : ∀ e ∈ entries, isEntry e = true)
    (hlength : options.length = (Layout.ofForm form o).pending.length)
    {tables : String → String → Tables φ}
    (hends : ∀ block key source choices,
      (⟨block, key, source⟩, choices) ∈ (Layout.ofForm form o).pending.zip options →
        Resolution.EndsBy backend (tables block key) choices (Resolution.ofSource source)) :
    form.Agrees base entries backend tables ((Layout.ofForm form o).withOptions options)
      (entryOf base o entries) := by
  intro block key f written hf hread hsame hgives
  have hbare := Field.bare_of_read? hread hsame
  have hbound : f.companion? = none := by
    change f.bare.companion? = none
    rw [hbare]
    exact hbase
  obtain ⟨entry, hentry, hstands⟩ := standsAs_of_declared h hlength hf
  obtain ⟨hany, rfl⟩ := eq_of_gives hne hentries hread hbound hstands (hends block key) hgives
  rw [hentry, Field.synthesize_eq hany, hbare, entryOf]

omit [DecidableEq φ] in
theorem Distinct.entries_of_answer {document : Json} {ms : Members Json}
    (hms : config? document = some ms) (h : (ofMembers ms).Distinct) (c : Cache φ)
    {source : OptionSource} {choices : ChoiceList}
    (hanswer : (⟨block, key, source⟩, choices) ∈
      (Layout.ofForm (ofMembers ms) o).pending.zip options) :
    let i := ((Layout.ofForm (ofMembers ms) o).pending.map place).idxOf (block, key)
    (awaiting document o c).2[i]? = some (Resolution.ofSource source) ∧
      (options.map (Sum.inr (α := Resolution)))[i]? = some (.inr choices) := by
  intro i
  obtain ⟨j, hj⟩ := List.mem_iff_getElem?.mp hanswer
  obtain ⟨hpending, hoptions⟩ := List.getElem?_zip_eq_some.mp hj
  have hplace : ((Layout.ofForm (ofMembers ms) o).pending.map place)[j]? = some (block, key) := by
    rw [List.getElem?_map, hpending]
    rfl
  obtain ⟨hlt, hget⟩ := List.getElem?_eq_some_iff.mp hplace
  -- no two waiting fields have one place, so the first of this place is the field itself
  have hij : i = j := by
    have hidx := (h.pending_nodup o).idxOf_getElem j hlt
    rwa [hget] at hidx
  rw [hij]
  constructor
  · simp only [awaiting, hms, List.getElem?_map, hpending, Option.map_some]
  · rw [List.getElem?_map, hoptions, Option.map_some]

end

end Form

/-- A field that is not bound compiles to one and the same entry wherever it gets a list of entries
from: from its own inline options, whatever sources stand beside them, from the dictionary, whatever
function is named beside it, or from the answer of a function. So it does in every document, however
its fields are polled and whatever others do to the cache, and so it does when a document is
compiled, where tables that never change give it the entries. The options stand in the order of the
list. -/
theorem option_sources_agree (o : CompilerOptions) {base : Members Json}
    (hbase : (Form.Field.ofMembers base).companion? = none) {entries : List Json}
    (hne : entries ≠ []) (hentries : ∀ e ∈ entries, Form.isEntry e = true) :
    ∃ entry : Schema.Field,
      entry.codes = some (entries.map fun e => (Choice.ofJson e).code) ∧
      entry.labels = some (entries.map fun e => (Choice.ofJson e).label) ∧
      ∀ {φ : Type} [DecidableEq φ] (w : Supply φ) (c : Cache φ) (document : Json),
        document.Distinct → ∀ ms, Form.config? document = some ms →
        (∀ between c' log schema, CompilesBy between document o w.backend c c' log schema →
          (Form.ofMembers ms).Agrees base entries w.backend
            ((Form.ofMembers ms).tablesGiven o log) schema entry) ∧
        ∃ schema log, (compile document o w.backend c).2 = some schema ∧
          CompilesBy Eq document o w.backend c (compile document o w.backend c).1 log schema ∧
          (Form.ofMembers ms).Agrees base entries w.backend
            ((Form.ofMembers ms).tablesGiven o log) schema entry ∧
          ∀ tasks, w.Constant → w.Reaches c tasks →
            (Form.ofMembers ms).Agrees base entries w.backend (fun _ _ => w.tables) schema
              entry := by
  refine ⟨Form.entryOf base o entries, ?_, ?_, ?_⟩
  · simp [Form.entryOf, Schema.Field.withChoices, ChoiceList.ofEntries, ChoiceList.ofChoices]
  · simp [Form.entryOf, Schema.Field.withChoices, ChoiceList.ofEntries, ChoiceList.ofChoices]
  intro φ _ w c document h ms hms
  have hd := Form.distinct_ofMembers (Form.distinct_config h hms)
  have hgiven : ∀ between c' log schema,
      CompilesBy between document o w.backend c c' log schema →
      (Form.ofMembers ms).Agrees base entries w.backend ((Form.ofMembers ms).tablesGiven o log)
        schema (Form.entryOf base o entries) := by
    rintro between c' log schema ⟨ms', options, hms', hruns, rfl⟩
    rw [hms, Option.some_inj] at hms'
    subst hms'
    apply hd.agrees hbase hne hentries (length_options hms hruns)
    intro block key source choices hanswer
    obtain ⟨hentry, hend⟩ := hd.entries_of_answer hms c hanswer
    exact (Resolution.endsWith_of_runs hruns hentry hend).endsBy_given
  -- a compile is one such run, and in one with a constant supply all fields have the same tables
  obtain ⟨log, options, hruns, hresult⟩ := runs_compile document o w.backend c
  rw [hms, Option.map_some] at hresult
  have hcompiled : CompilesBy Eq document o w.backend c (compile document o w.backend c).1 log _ :=
    ⟨ms, options, hms, hruns, rfl⟩
  refine ⟨hgiven, _, log, hresult, hcompiled, hgiven _ _ _ _ hcompiled, fun tasks hw hc => ?_⟩
  apply hd.agrees hbase hne hentries (length_options hms hruns)
  intro block key source choices hanswer
  obtain ⟨hentry, hend⟩ := hd.entries_of_answer hms c hanswer
  exact (hc.given_eq hw hruns).options _ _ _ hentry hend

def asking (descriptor : Members Json) : Json :=
  .object [("config", .object [("A", .object [("properties", .object [
    ("sex", .object descriptor)])])])]

theorem asking_distinct {descriptor : Members Json} (h : (Json.object descriptor).Distinct) :
    (asking descriptor).Distinct := by
  rw [Json.Distinct] at h
  simp [asking, Json.Distinct, Json.DistinctMembers, h]

theorem option_sources_agree_sexes :
    let entries : List Json := [.object [("code", .string "1"), ("name", .string "male")],
      .array [.null, .string "2", .null, .string "female"]]
    let inline : Members Json := [("enumDict", .string "none"), ("enums", .array entries)]
    let dictionary : Members Json := [("enumDict", .string "sexes"), ("enumApi", .string "none")]
    let lookup : Members Json := [("enumApi", .string "remote.sexes")]
    let w : Supply Nat := {
      dictionaries := [{
        name := "dictionary"
        attempt _ := { delay := .polls 0, outcome := .ok (.object [("sexes", .array entries)]) } }]
      lookups := [{
        name := "functions"
        attempt _ := {
          delay := .polls 0
          outcome := .ok (.group [("remote", .group [("sexes", .function 0)])]) } }]
      backend := fun _ _ _ =>
        ⟨0, .ok (.object [("code", .ofNat 0), ("data", .array entries)])⟩ }
    ∃ entry : Schema.Field, entry.codes = some [.string "1", .string "2"] ∧
      entry.labels = some ["male", "female"] ∧
      ∀ descriptor ∈ [inline, dictionary, lookup], ∃ schema,
        (compile (asking descriptor) {} w.backend (.ofStrategies w.dictionaries w.lookups)).2 =
          some schema ∧
        schema.field? "A" "sex" = some entry := by
  intro entries inline dictionary lookup w
  obtain ⟨entry, hcodes, hlabels, hentry⟩ := @option_sources_agree {} [] rfl entries
    (List.cons_ne_nil _ _) (by decide)
  have hconstant : w.Constant := by
    constructor <;> simp [w, Strategy.Alike]
  have hone : ∀ descriptor f, (Json.object descriptor).Distinct →
      (Form.ofMembers [("A", .object [("properties", .object [("sex", .object descriptor)])])]).field?
        "A" "sex" = some f → Form.Field.read? (.object descriptor) = some f →
      Form.withoutOptions descriptor = [] → Gives w.backend w.tables descriptor f entries →
      ∃ schema, (compile (asking descriptor) {} w.backend
        (.ofStrategies w.dictionaries w.lookups)).2 = some schema ∧
        schema.field? "A" "sex" = some entry := by
    intro descriptor f hdistinct hf hread hsame hgives
    obtain ⟨-, schema, -, hschema, -, -, hagrees⟩ :=
      hentry w _ _ (asking_distinct hdistinct) _ rfl
    exact ⟨schema, hschema, hagrees [] hconstant .init "A" "sex" f _ hf hread hsame hgives⟩
  refine ⟨entry, hcodes, hlabels, ?_⟩
  simp only [List.forall_mem_cons, List.not_mem_nil, IsEmpty.forall_iff, implies_true, and_true]
  refine ⟨?_, ?_, ?_⟩
  · apply hone inline _ _ rfl rfl rfl (.inline rfl)
    simp [inline, entries, Json.Distinct, Json.DistinctMembers, Json.DistinctItems]
  · apply hone dictionary _ _ rfl rfl rfl (.dictionary rfl rfl rfl)
    simp [dictionary, Json.Distinct, Json.DistinctMembers]
  · apply hone lookup _ _ rfl rfl rfl (.lookup rfl rfl rfl fun _ => ⟨_, _, rfl, rfl, rfl, rfl⟩)
    simp [lookup, Json.Distinct, Json.DistinctMembers]

end FormCompiler
