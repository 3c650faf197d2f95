import FormCompiler.Proofs.Layout.Entries
import FormCompiler.Proofs.Layout.Outline

namespace FormCompiler

namespace Form

/-- What stands for a declared field: the primary of a bound field, otherwise its synthesis, with the
options that it declares itself or with those that it has got from a table. -/
def Field.StandsAs (f : Field) (o : CompilerOptions) (answers : List (PendingChoice × ChoiceList))
    (block key : String) (entry : Schema.Field) : Prop :=
  match f.companion?, f.tableSource? with
  | some _, _ => entry = BoundPair.primaryOf f o
  | none, none => entry = f.withInline (f.synthesize o)
  | none, some source => ∃ choices, (⟨block, key, source⟩, choices) ∈ answers ∧
      entry = (f.synthesize o).withChoices choices

structure IsCompanion (form : Form) (o : CompilerOptions) (s : Schema) (block key : String)
    (entry : Schema.Field) (own name : String) (f : Field) : Prop where
  first : form.firstOffer? block key = some (own, name, f)
  entry_eq : entry = BoundPair.companionOf own name f o
  hidden : entry.hidden = some true
  noChoice : entry.isChoice = false
  requiredMessage : entry.requiredMessage = some ""
  bindBlock : entry.bindBlock = some own
  bindCode : entry.bindCode = some name
  primary : s.field? own name = some (BoundPair.primaryOf f o)
  primaryCode : (BoundPair.primaryOf f o).bindCode = some key
  primaryBlock : (BoundPair.primaryOf f o).bindBlock = some block ∨
    (∃ target, (BoundPair.primaryOf f o).bindBlock = some target ∧ s.block? target = none) ∧
      own = block

theorem Field.withInline_eq_self {f : Field} {source : OptionSource}
    (h : f.tableSource? = some source) (s : Schema.Field) : f.withInline s = s := by
  unfold Field.tableSource? at h
  unfold Field.withInline
  cases hs : f.optionSource? with
  | none => rfl
  | some source' => cases source' <;> simp_all

theorem Field.synthesize_binding (f : Field) (o : CompilerOptions) :
    (f.synthesize o).bindBlock = f.bindBlock ∧ (f.synthesize o).bindCode = f.bindCode := by
  unfold Field.synthesize
  split <;> exact ⟨rfl, rfl⟩

theorem Field.primary_binding (f : Field) (o : CompilerOptions) :
    (BoundPair.primaryOf f o).bindBlock = f.bindBlock ∧
      (BoundPair.primaryOf f o).bindCode = f.bindCode := by
  unfold BoundPair.primaryOf Field.withInline
  split <;> exact f.synthesize_binding o

theorem Field.synthesize_placeholder (f : Field) (o : CompilerOptions) :
    (f.synthesize o).ui.placeholder.isSome = true := by
  unfold Field.synthesize
  split <;> rfl

theorem Field.withInline_placeholder (f : Field) (s : Schema.Field) :
    (f.withInline s).ui.placeholder = s.ui.placeholder := by
  unfold Field.withInline
  split <;> rfl

theorem Field.StandsAs.ne_companion {f : Field} {o : CompilerOptions}
    {answers : List (PendingChoice × ChoiceList)} {block key : String} {entry : Schema.Field}
    (h : f.StandsAs o answers block key entry) (own name : String) (g : Field) :
    entry ≠ BoundPair.companionOf own name g o := by
  have hsome : entry.ui.placeholder.isSome = true := by
    unfold Field.StandsAs at h
    split at h
    · rw [h, BoundPair.primaryOf, Field.withInline_placeholder]
      exact f.synthesize_placeholder o
    · rw [h, Field.withInline_placeholder]
      exact f.synthesize_placeholder o
    · obtain ⟨choices, -, rfl⟩ := h
      exact f.synthesize_placeholder o
  rintro rfl
  cases hsome

variable {form : Form} {o : CompilerOptions} {options : List ChoiceList}

theorem field?_withOptions (form : Form) (o : CompilerOptions) (options : List ChoiceList)
    (block key : String) :
    ((Layout.ofForm form o).withOptions options).field? block key =
      ((Layout.ofForm form o).schema.field? block key).map
        (·.answered block key ((Layout.ofForm form o).pending.zip options)) :=
  Schema.field?_withAnswers _ _ block key

theorem names_withOptions (h : form.Distinct) (o : CompilerOptions) (options : List ChoiceList) :
    ((Layout.ofForm form o).withOptions options).blocks.names = form.blocks.names := by
  have houtline := congrArg Members.names (Layout.outline_withOptions h o options)
  simpa [Schema.outline, outline, Members.names, Function.comp_def] using houtline

theorem fieldNames_withOptions (h : form.Distinct) {block : String} {b : Schema.Block}
    (hb : (block, b) ∈ ((Layout.ofForm form o).withOptions options).blocks) :
    b.fields.names = form.keysOf block := by
  have hkeys : (block, b.fields.names) ∈ form.outline := by
    rw [← Layout.outline_withOptions h o options]
    exact List.mem_map_of_mem hb
  obtain ⟨_, -, heq⟩ := List.mem_map.mp hkeys
  rw [← (Prod.mk.inj heq).1]
  exact (Prod.mk.inj heq).2.symm

theorem block?_withOptions_of_mem (h : form.Distinct) {block : String} {b : Schema.Block}
    (hb : (block, b) ∈ ((Layout.ofForm form o).withOptions options).blocks) :
    ((Layout.ofForm form o).withOptions options).block? block = some b := by
  have hblocks : ((Layout.ofForm form o).withOptions options).blocks.names.Nodup := by
    rw [names_withOptions h]
    exact h.blocks
  exact Members.lookup_of_mem hblocks hb

theorem field?_withOptions_of_mem (h : form.Distinct) {block : String} {b : Schema.Block}
    (hb : (block, b) ∈ ((Layout.ofForm form o).withOptions options).blocks) {key : String}
    {entry : Schema.Field} (he : (key, entry) ∈ b.fields) :
    ((Layout.ofForm form o).withOptions options).field? block key = some entry := by
  rw [Schema.field?, block?_withOptions_of_mem h hb, Option.bind_some]
  exact Members.lookup_of_mem (fieldNames_withOptions h hb ▸ h.keysOf_nodup block) he

theorem mem_names_of_field? (h : form.Distinct) {block key : String} {entry : Schema.Field}
    (he : ((Layout.ofForm form o).withOptions options).field? block key = some entry) :
    block ∈ form.blocks.names := by
  obtain ⟨b, hb, -⟩ := Option.bind_eq_some_iff.mp he
  rw [← names_withOptions h o options, ← Members.lookup_isSome_iff]
  exact Option.isSome_iff_exists.mpr ⟨b, hb⟩

theorem field?_of_answer (h : form.Distinct) {a : PendingChoice × ChoiceList}
    (ha : a ∈ (Layout.ofForm form o).pending.zip options) :
    ∃ f, form.field? a.1.block a.1.field = some f ∧ f.companion? = none ∧
      f.tableSource? = some a.1.source := by
  obtain ⟨f, hd, hf, hs⟩ := (Layout.mem_pending_iff form o a.1).mp (List.of_mem_zip ha).1
  exact ⟨f, (h.field?_eq_some_iff _ _ f).mpr hd, hf, hs⟩

theorem standsAs_of_declared (h : form.Distinct)
    (hlength : options.length = (Layout.ofForm form o).pending.length) {block key : String}
    {f : Field} (hf : form.field? block key = some f) :
    ∃ entry, ((Layout.ofForm form o).withOptions options).field? block key = some entry ∧
      f.StandsAs o ((Layout.ofForm form o).pending.zip options) block key entry := by
  have hblock : block ∈ form.blocks.names := by
    obtain ⟨b, hb, -⟩ := Option.bind_eq_some_iff.mp hf
    exact (Members.lookup_isSome_iff _ _).mp (Option.isSome_iff_exists.mpr ⟨b, hb⟩)
  rw [field?_withOptions, Layout.field?_ofForm h o hblock, hf, Option.map_some, Option.some_or,
    Option.map_some]
  refine ⟨_, rfl, ?_⟩
  unfold Field.StandsAs
  rcases (f.declaredEntry o).answered_cases block key ((Layout.ofForm form o).pending.zip options)
    with ⟨hnone, he⟩ | ⟨a, ha, ⟨hb, hk⟩, he⟩
  · rw [he, Field.declaredEntry]
    split
    case h_1 hc => simp [hc]
    case h_2 hc _ => simp [hc]
    case h_3 source hc hs =>
      -- a field that waits has an answer
      have hp : (⟨block, key, source⟩ : PendingChoice) ∈ (Layout.ofForm form o).pending :=
        (Layout.mem_pending_iff form o _).mpr ⟨f, (h.field?_eq_some_iff _ _ f).mp hf, hc, hs⟩
      obtain ⟨choices, hanswer⟩ := Layout.exists_answer hlength hp
      exact absurd ⟨rfl, rfl⟩ (hnone _ hanswer)
  · obtain ⟨f', hf', hc, hs⟩ := field?_of_answer h ha
    rw [hb, hk, hf] at hf'
    cases hf'
    rw [he, Field.declaredEntry]
    simp only [hc, hs, Option.isSome_none, Bool.false_eq_true, ↓reduceIte]
    obtain ⟨⟨block', key', source⟩, choices⟩ := a
    cases hb
    cases hk
    exact ⟨choices, ha, by rw [Field.withInline_eq_self hs]⟩

theorem companion_of_undeclared (h : form.Distinct) {block key : String} {entry : Schema.Field}
    (he : ((Layout.ofForm form o).withOptions options).field? block key = some entry)
    (hf : form.field? block key = none) :
    ∃ own name f, form.firstOffer? block key = some (own, name, f) ∧
      entry = BoundPair.companionOf own name f o := by
  have hblock := mem_names_of_field? h he
  rw [field?_withOptions, Layout.field?_ofForm h o hblock, hf, Option.map_none, Option.none_or,
    Option.map_map, Option.map_eq_some_iff] at he
  obtain ⟨⟨own, name, f⟩, hfirst, rfl⟩ := he
  refine ⟨own, name, f, hfirst, ?_⟩
  rcases (BoundPair.companionOf own name f o).answered_cases block key
    ((Layout.ofForm form o).pending.zip options) with ⟨-, he⟩ | ⟨a, ha, ⟨hb, hk⟩, -⟩
  · exact he
  · obtain ⟨f', hf', -, -⟩ := field?_of_answer h ha
    rw [hb, hk, hf] at hf'
    cases hf'

variable {φ : Type} [DecidableEq φ]

theorem entry_cases (h : form.Distinct)
    (hlength : options.length = (Layout.ofForm form o).pending.length) {block : String}
    {b : Schema.Block} (hb : (block, b) ∈ ((Layout.ofForm form o).withOptions options).blocks)
    {key : String} {entry : Schema.Field} (he : (key, entry) ∈ b.fields) :
    (form.field? block key = none ∧ ∃ own name f, entry = BoundPair.companionOf own name f o) ∨
      ∃ f, form.field? block key = some f ∧
        f.StandsAs o ((Layout.ofForm form o).pending.zip options) block key entry := by
  have hfield := field?_withOptions_of_mem h hb he
  cases hf : form.field? block key with
  | none =>
    obtain ⟨own, name, f, -, hentry⟩ := companion_of_undeclared h hfield hf
    exact .inl ⟨rfl, own, name, f, hentry⟩
  | some f =>
    obtain ⟨entry', he', hstands⟩ := standsAs_of_declared h hlength hf
    rw [hfield] at he'
    cases he'
    exact .inr ⟨f, rfl, hstands⟩

theorem field?_compile_of_declared (h : form.Distinct) (o : CompilerOptions) (backend : Backend φ)
    (c : Cache φ) {block key : String} {f : Field} (hf : form.field? block key = some f) :
    ∃ entry, (form.compile o backend c).2.field? block key = some entry ∧
      f.StandsAs o (form.answers o backend c) block key entry :=
  standsAs_of_declared h (form.length_resolved o backend c) hf

theorem isCompanion_of_undeclared (h : form.Distinct) {o : CompilerOptions} {backend : Backend φ}
    {c : Cache φ} {block key : String} {entry : Schema.Field}
    (he : (form.compile o backend c).2.field? block key = some entry)
    (hf : form.field? block key = none) :
    ∃ own name f, form.IsCompanion o (form.compile o backend c).2 block key entry own name f := by
  obtain ⟨own, name, f, hfirst, rfl⟩ := companion_of_undeclared h he hf
  have hat : form.companionAt? block own f = some key := by
    simpa using List.find?_some hfirst
  obtain ⟨hcode, htarget⟩ := (form.companionAt?_eq_some_iff block own key f).mp hat
  obtain ⟨⟨target, hbound⟩, hbindCode⟩ := (f.companion?_eq_some_iff key).mp hcode
  have hdeclared := (h.field?_eq_some_iff own name f).mpr (List.mem_of_find?_eq_some hfirst)
  refine ⟨own, name, f, ?_⟩
  constructor
  case first => exact hfirst
  case primary =>
    obtain ⟨primary, hp, hstands⟩ := field?_compile_of_declared h o backend c hdeclared
    simp only [Field.StandsAs, hcode] at hstands
    rw [hp, hstands]
  case primaryCode => rw [(f.primary_binding o).2, hbindCode]
  case primaryBlock =>
    rw [(f.primary_binding o).1, hbound]
    simp only [companionBlock, hbound] at htarget
    split at htarget
    · exact .inl (by rw [htarget])
    case isFalse hhas =>
      refine .inr ⟨⟨target, rfl, ?_⟩, htarget⟩
      have hnames : (form.compile o backend c).2.blocks.names = form.blocks.names :=
        names_withOptions h o _
      rw [Schema.block?, Members.lookup_eq_none_iff, hnames, ← Members.has_iff]
      exact hhas
  all_goals rfl

end Form

variable {φ : Type} [DecidableEq φ]

/-- An entry of what is compiled is that of the field declared there and then no companion, or else
the companion of the first field that asks for its place, with its primary in the schema. -/
theorem compile_entries (document : Json) (h : document.Distinct) {ms : Members Json}
    (hc : Form.config? document = some ms) (o : CompilerOptions) (backend : Backend φ)
    (c : Cache φ) :
    ∃ schema, (compile document o backend c).2 = some schema ∧
      ∀ block key entry, schema.field? block key = some entry →
        (∀ f, (Form.ofMembers ms).field? block key = some f →
          f.StandsAs o ((Form.ofMembers ms).answers o backend (c.note (Form.notices ms)))
            block key entry ∧
          ∀ own name g, entry ≠ BoundPair.companionOf own name g o) ∧
        ((Form.ofMembers ms).field? block key = none →
          ∃ own name f,
            (Form.ofMembers ms).IsCompanion o schema block key entry own name f) := by
  have hd := Form.distinct_ofMembers (Form.distinct_config h hc)
  refine ⟨((Form.ofMembers ms).compile o backend (c.note (Form.notices ms))).2, ?_, ?_⟩
  · simp only [compile, hc]
  · intro block key entry he
    constructor
    · intro f hf
      obtain ⟨entry', he', hstands⟩ := Form.field?_compile_of_declared hd o backend _ hf
      rw [he] at he'
      cases he'
      exact ⟨hstands, hstands.ne_companion⟩
    · exact Form.isCompanion_of_undeclared hd he

theorem compile_entries_crossing : crossing.Distinct ∧ ∃ schema entry,
    (compile crossing {} (fun _ _ _ => ⟨0, .ok .null⟩) (Cache.ofStrategies (φ := Nat) [] [])).2 =
        some schema ∧
      schema.field? "A" "remarkCode" = some entry ∧
      entry.bindBlock = some "B" ∧ entry.bindCode = some "remark" := by
  obtain ⟨schema, hs, hentries⟩ := compile_entries crossing crossing_distinct rfl {}
    (fun _ _ _ => ⟨0, .ok .null⟩) (Cache.ofStrategies (φ := Nat) [] [])
  have hsome : (schema.field? "A" "remarkCode").isSome = true := by
    cases hs
    rfl
  obtain ⟨entry, he⟩ := Option.isSome_iff_exists.mp hsome
  obtain ⟨own, name, f, hf⟩ := (hentries _ _ _ he).2 rfl
  have hfirst := hf.first
  cases hfirst
  exact ⟨crossing_distinct, schema, entry, hs, he, hf.bindBlock, hf.bindCode⟩

end FormCompiler
