import FormCompiler.Proofs.Layout.Companions
import FormCompiler.Proofs.Layout.Orders

namespace FormCompiler

def ChoiceList.Balanced (l : ChoiceList) : Prop := l.codes.length = l.labels.length

theorem ChoiceList.balanced_ofChoices (choices : List Choice) : (ofChoices choices).Balanced := by
  simp [Balanced, ofChoices]

namespace Resolution

variable {φ : Type}

theorem balanced_dictionaryOptions {path : String} {result : LoadResult Json} {l : ChoiceList}
    (h : dictionaryOptions path result = .ok l) : l.Balanced := by
  unfold dictionaryOptions at h
  split at h
  · cases h
  · split at h
    · cases h
      exact ChoiceList.balanced_ofChoices _
    · cases h

theorem balanced_responseOptions {path : String} {response : Json} {l : ChoiceList}
    (h : responseOptions path response = .ok l) : l.Balanced := by
  unfold responseOptions at h
  split at h
  · split at h
    · cases h
      exact ChoiceList.balanced_ofChoices _
    · cases h
  · cases h

theorem balanced_callOptions {path : String} {outcome : Except Failure Json} {l : ChoiceList}
    (h : callOptions path outcome = .ok l) : l.Balanced := by
  cases outcome with
  | error failure => cases h
  | ok response => exact balanced_responseOptions h

theorem balanced_settle {c : Cache φ} {path : String} {result : Except OptionError ChoiceList}
    (hresult : ∀ l, result = .ok l → l.Balanced) {l : ChoiceList}
    (h : (settle c path result).2 = .inr l) : l.Balanced := by
  cases result with
  | error error =>
    cases h
    rfl
  | ok options =>
    cases h
    exact hresult _ rfl

theorem balanced_poll [DecidableEq φ] {backend : Backend φ} {live : Nat} {c : Cache φ}
    {r : Resolution} {l : ChoiceList} (h : (poll backend live c r).2 = .inr l) : l.Balanced := by
  cases r with
  | dictionary path request =>
    simp only [poll] at h
    split at h
    · cases h
    · exact balanced_settle (fun _ => balanced_dictionaryOptions) h
  | lookup path params request =>
    simp only [poll] at h
    split at h
    · cases h
    · split at h
      · simp only [startCall] at h
        split at h
        · cases h
        · exact balanced_settle (fun _ => balanced_callOptions) h
      · exact balanced_settle (fun _ hl => by cases hl) h
  | call path polls outcome =>
    cases polls with
    | zero => exact balanced_settle (fun _ => balanced_callOptions) h
    | succ n => cases h

end Resolution

namespace Schema.Field

/-- The members of a choice field are all there or none of them is, those of an upload field
likewise, and a pattern comes with its message. -/
structure Coherent (choice upload : Bool) (entry : Field) : Prop where
  codes : entry.codes.isSome = choice
  labels : entry.labels.isSome = choice
  uniqueItems : entry.uniqueItems = some false ↔ choice = true
  clearable : entry.ui.clearable = some true ↔ choice = true
  lengths : entry.codes.map List.length = entry.labels.map List.length
  minItems : entry.minItems.isSome = upload
  maxItems : entry.maxItems.isSome = upload
  itemType : entry.itemType.isSome = upload
  maxCount : entry.ui.maxCount.isSome = upload
  maxSize : entry.ui.maxSize.isSome = upload
  fileTypes : entry.ui.fileTypes.isSome = upload
  limit : entry.maxItems = entry.ui.maxCount
  widget : entry.widget = some uploadWidget ↔ upload = true
  pattern : entry.ui.pattern.isSome = entry.ui.patternMessage.isSome

namespace Coherent

variable {choice upload : Bool} {entry : Field}

theorem withChoices (h : entry.Coherent choice upload) {l : ChoiceList} (hl : l.Balanced) :
    (entry.withChoices l).Coherent true upload where
  codes := rfl
  labels := rfl
  uniqueItems := by simp [Field.withChoices]
  clearable := by simp [Field.withChoices]
  lengths := congrArg some hl
  minItems := h.minItems
  maxItems := h.maxItems
  itemType := h.itemType
  maxCount := h.maxCount
  maxSize := h.maxSize
  fileTypes := h.fileTypes
  limit := h.limit
  widget := h.widget
  pattern := h.pattern

theorem withUpload (h : entry.Coherent choice false) (f : Form.Field) (o : CompilerOptions) :
    (f.withUpload o entry).Coherent choice true where
  codes := h.codes
  labels := h.labels
  uniqueItems := h.uniqueItems
  clearable := h.clearable
  lengths := h.lengths
  minItems := rfl
  maxItems := rfl
  itemType := rfl
  maxCount := rfl
  maxSize := rfl
  fileTypes := rfl
  limit := rfl
  widget := by simp [Form.Field.withUpload]
  pattern := h.pattern

theorem withHidden (h : entry.Coherent choice upload) (hidden : Option Bool) :
    ({ entry with hidden } : Field).Coherent choice upload := by
  cases h
  constructor <;> assumption

end Coherent

end Schema.Field

namespace Form.Field

def showsChoices (f : Form.Field) : Bool :=
  f.enums.any (!·.isEmpty) || f.companion?.isNone && (f.enumDict.isSome || f.enumApi.isSome)

theorem plain_coherent (f : Form.Field) (o : CompilerOptions) :
    (f.plain o).Coherent false false := by
  constructor <;> simp [plain, plainUi, Option.filter_eq_some_iff]

theorem synthesize_coherent (f : Form.Field) (o : CompilerOptions) :
    (f.synthesize o).Coherent false f.isUpload := by
  unfold synthesize
  split
  case isTrue h =>
    rw [h]
    exact (f.plain_coherent o).withUpload f o
  case isFalse h =>
    rw [Bool.eq_false_iff.mpr h]
    exact f.plain_coherent o

theorem withInline_coherent (f : Form.Field) {upload : Bool} {entry : Schema.Field}
    (h : entry.Coherent false upload) :
    (f.withInline entry).Coherent (f.enums.any (!·.isEmpty)) upload := by
  unfold withInline optionSource?
  cases he : f.enums.filter (!·.isEmpty) with
  | none =>
    have hnone : f.enums.any (!·.isEmpty) = false := by
      rw [Option.filter_eq_none_iff] at he
      cases hf : f.enums with
      | none => rfl
      | some choices => simpa using he choices hf
    rw [hnone]
    cases f.enumDict <;> cases f.enumApi <;> exact h
  | some choices =>
    have hsome : f.enums.any (!·.isEmpty) = true := by
      obtain ⟨hf, hp⟩ := Option.filter_eq_some_iff.mp he
      rw [hf, Option.any_some, hp]
    rw [hsome]
    exact h.withChoices (ChoiceList.balanced_ofChoices choices)

theorem showsChoices_of_bound {f : Form.Field} {code : String} (h : f.companion? = some code) :
    f.showsChoices = f.enums.any (!·.isEmpty) := by
  simp [showsChoices, h]

theorem showsChoices_of_plain {f : Form.Field} (h : f.companion? = none) :
    f.showsChoices = (f.enums.any (!·.isEmpty) || f.tableSource?.isSome) := by
  unfold showsChoices tableSource? optionSource?
  rw [h]
  cases he : f.enums.filter (!·.isEmpty) with
  | none => cases f.enumDict <;> cases f.enumApi <;> simp
  | some choices =>
    obtain ⟨hf, hp⟩ := Option.filter_eq_some_iff.mp he
    rw [hf, Option.any_some, hp]
    rfl

theorem StandsAs.coherent {f : Form.Field} {o : CompilerOptions}
    {answers : List (PendingChoice × ChoiceList)} {block key : String} {entry : Schema.Field}
    (h : f.StandsAs o answers block key entry) (hanswers : ∀ a ∈ answers, a.2.Balanced) :
    entry.Coherent f.showsChoices f.isUpload := by
  have hsynthesize := f.synthesize_coherent o
  unfold StandsAs at h
  split at h
  case h_1 code _ hbound =>
    rw [h, showsChoices_of_bound hbound]
    exact f.withInline_coherent (hsynthesize.withHidden _)
  case h_2 hplain hsource =>
    rw [h, showsChoices_of_plain hplain, hsource, Option.isSome_none, Bool.or_false]
    exact f.withInline_coherent hsynthesize
  case h_3 source hplain hsource =>
    obtain ⟨choices, hmem, rfl⟩ := h
    rw [showsChoices_of_plain hplain, hsource, Option.isSome_some, Bool.or_true]
    exact hsynthesize.withChoices (hanswers _ hmem)

end Form.Field

theorem BoundPair.companionOf_coherent (block key : String) (f : Form.Field)
    (o : CompilerOptions) : (companionOf block key f o).Coherent false false := by
  constructor <;> simp [companionOf]

theorem Form.coherent_withOptions {form : Form} (h : form.Distinct) {o : CompilerOptions}
    {options : List ChoiceList}
    (hlength : options.length = (Layout.ofForm form o).pending.length)
    (hbalanced : ∀ l ∈ options, l.Balanced) {block : String} {b : Schema.Block}
    (hb : (block, b) ∈ ((Layout.ofForm form o).withOptions options).blocks) {key : String}
    {entry : Schema.Field} (he : (key, entry) ∈ b.fields) :
    entry.Coherent ((form.field? block key).any Field.showsChoices)
      ((form.field? block key).any Field.isUpload) := by
  rcases entry_cases h hlength hb he with ⟨hf, own, name, f, rfl⟩ | ⟨f, hf, hstands⟩
  · rw [hf]
    exact BoundPair.companionOf_coherent own name f o
  · rw [hf]
    exact hstands.coherent fun a ha => hbalanced _ (List.of_mem_zip ha).2

variable {φ : Type}

theorem balanced_awaiting (document : Json) (o : CompilerOptions) (c : Cache φ) :
    ∀ l, .inr l ∈ (awaiting document o c).2 → l.Balanced := by
  intro l hl
  unfold awaiting at hl
  split at hl
  · cases hl
  · obtain ⟨source, -, hsource⟩ := List.mem_map.mp hl
    cases source with
    | inline choices =>
      cases hsource
      exact ChoiceList.balanced_ofChoices choices
    | dictionary path => cases hsource
    | lookup path params => cases hsource

variable [DecidableEq φ]

/-- Whatever a cache holds and others do to it in the meantime, however its loads and the calls turn
out and in whichever order the fields are polled: every entry of a schema that a document compiles
to is coherent. It shows options exactly if a field is declared in its place that has some or that
is not bound and asks a table, and it takes uploads exactly if that field does. Companions stand
where no field is declared. -/
theorem compile_coherent (document : Json) (h : document.Distinct) (o : CompilerOptions)
    (backend : Backend φ) (c : Cache φ) :
    (∀ schema, (compile document o backend c).2 = some schema →
        CompilesAmid Eq document o backend c (compile document o backend c).1 schema) ∧
      ∀ between c' schema, CompilesAmid between document o backend c c' schema →
        ∃ ms, Form.config? document = some ms ∧
          ∀ block b key entry, (block, b) ∈ schema.blocks → (key, entry) ∈ b.fields →
            entry.Coherent (((Form.ofMembers ms).field? block key).any Form.Field.showsChoices)
              (((Form.ofMembers ms).field? block key).any Form.Field.isUpload) := by
  refine ⟨fun _ => compilesAmid_compile, ?_⟩
  rintro between c' schema ⟨ms, log, options, hc, hlog, rfl⟩
  have hd := Form.distinct_ofMembers (Form.distinct_config h hc)
  have hbalanced : ∀ l ∈ options, l.Balanced := by
    intro l hl
    exact hlog.ends (fun _ _ _ _ => Resolution.balanced_poll) (balanced_awaiting document o c) l
      (List.mem_map_of_mem hl)
  refine ⟨ms, hc, ?_⟩
  intro block b key entry hb hentry
  exact Form.coherent_withOptions hd (length_options hc hlog) hbalanced hb hentry

theorem compile_coherent_choosing : choosing.Distinct ∧ ∃ schema entry,
    (compile choosing {} (fun _ _ _ => ⟨0, .ok .null⟩) (Cache.ofStrategies (φ := Nat) [] [])).2 =
        some schema ∧
      schema.field? "A" "sex" = some entry ∧
      entry.Coherent true false := by
  obtain ⟨hcompile, hcoherent⟩ := compile_coherent choosing choosing_distinct {}
    (fun _ _ _ => ⟨0, .ok .null⟩) (Cache.ofStrategies (φ := Nat) [] [])
  obtain ⟨ms, hms, hentries⟩ := hcoherent _ _ _ (hcompile _ rfl)
  have hd := Form.distinct_ofMembers (Form.distinct_config choosing_distinct hms)
  have hf : (Form.ofMembers ms).field? "A" "sex" =
      some (Form.Field.ofMembers [("enumDict", .string "sexDict")]) := by
    cases hms
    rfl
  obtain ⟨entry, he, -⟩ := Form.field?_compile_of_declared hd {}
    (fun _ _ _ => ⟨0, .ok .null⟩) ((Cache.ofStrategies (φ := Nat) [] []).note (Form.notices ms)) hf
  obtain ⟨b, hb, hentry⟩ := Option.bind_eq_some_iff.mp he
  have hcoherent := hentries "A" b "sex" entry
  rw [hf] at hcoherent
  cases hms
  exact ⟨choosing_distinct, _, entry, rfl, he,
    hcoherent (Members.mem_of_lookup hb) (Members.mem_of_lookup hentry)⟩

end FormCompiler
