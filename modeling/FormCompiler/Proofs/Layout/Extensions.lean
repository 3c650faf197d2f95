import FormCompiler.Proofs.Form.Pruning
import FormCompiler.Proofs.Layout.Companions
import FormCompiler.Proofs.Layout.Orders

namespace FormCompiler

namespace Form.Field

variable (f : Form.Field) (o : CompilerOptions)

theorem extensions_trimmed (start : String) :
    (f.trimmed start).extensions start = f.extensions start := by
  rw [extensions, trimmed, extensions, Members.startingWith, Members.startingWith,
    List.filter_filter]
  apply List.filter_congr
  rintro ⟨name, j⟩ -
  exact Bool.and_self _

theorem plain_trimmed : (f.trimmed o.extensionPrefix).plain o = f.plain o := by
  rw [plain, extensions_trimmed]
  rfl

theorem synthesize_trimmed :
    (f.trimmed o.extensionPrefix).synthesize o = f.synthesize o := by
  rw [synthesize, plain_trimmed]
  rfl

theorem primaryOf_trimmed :
    BoundPair.primaryOf (f.trimmed o.extensionPrefix) o = BoundPair.primaryOf f o := by
  rw [BoundPair.primaryOf, synthesize_trimmed]
  rfl

theorem attributes_synthesize :
    (f.synthesize o).attributes = f.extensions o.extensionPrefix := by
  unfold synthesize
  split <;> rfl

theorem attributes_withInline (entry : Schema.Field) :
    (f.withInline entry).attributes = entry.attributes := by
  unfold withInline
  split <;> rfl

variable {f o}

theorem StandsAs.attributes_eq {answers : List (PendingChoice × ChoiceList)} {block key : String}
    {entry : Schema.Field} (h : f.StandsAs o answers block key entry) :
    entry.attributes = f.extensions o.extensionPrefix := by
  unfold StandsAs at h
  split at h
  · rw [h, BoundPair.primaryOf, attributes_withInline]
    exact attributes_synthesize f o
  · rw [h, attributes_withInline, attributes_synthesize]
  · obtain ⟨choices, -, rfl⟩ := h
    exact attributes_synthesize f o

end Form.Field

namespace Layout

variable (o : CompilerOptions)

theorem place_trimmed (l : Layout) (block key : String) (f : Form.Field) :
    place o l (block, key, f.trimmed o.extensionPrefix) = place o l (block, key, f) := by
  have hpair : BoundPair.expand? block key (f.trimmed o.extensionPrefix) o =
      BoundPair.expand? block key f o := by
    rw [BoundPair.expand?, BoundPair.expand?, Form.Field.primaryOf_trimmed]
    rfl
  have hplain : l.placePlain o block key (f.trimmed o.extensionPrefix) =
      l.placePlain o block key f := by
    rw [placePlain, Form.Field.synthesize_trimmed]
    rfl
  rw [place, hpair, hplain]
  rfl

theorem declarations_trimmed (start : String) (form : Form) :
    (form.trimmed start).declarations =
      form.declarations.map fun d => (d.1, d.2.1, d.2.2.trimmed start) := by
  rw [Form.declarations, Form.trimmed, List.flatMap_map, Form.declarations, List.map_flatMap]
  congr 1
  funext part
  simp only [Form.Block.trimmed, List.map_map]
  rfl

theorem ofForm_trimmed (form : Form) :
    ofForm (form.trimmed o.extensionPrefix) o = ofForm form o := by
  have hempty : emptySchema (form.trimmed o.extensionPrefix) o = emptySchema form o := by
    rw [emptySchema, Form.trimmed, List.map_map]
    rfl
  rw [ofForm, hempty, declarations_trimmed, List.foldl_map]
  congr 1
  funext l d
  exact place_trimmed o l d.1 d.2.1 d.2.2

end Layout

namespace Form

theorem field?_of_written {ms : Members Json} (h : (Json.object ms).Distinct)
    {block key : String} {own fields : Members Json} {j : Json} {f : Field}
    (hown : (block, .object own) ∈ ms) (hblock : block ≠ titleKey)
    (hp : own.lookup "properties" = some (.object fields)) (hj : (key, j) ∈ fields)
    (hread : Field.read? j = some f) : (ofMembers ms).field? block key = some f := by
  have hlookup := lookup_blocks h hown hblock hp
  have hfields : (Json.object fields).Distinct :=
    (h.of_mem hown).of_mem (Members.mem_of_lookup hp)
  rw [field?, hlookup, Option.bind_some]
  apply Members.lookup_of_mem (hfields.names.sublist (names_readFields_sublist fields))
  exact List.mem_filterMap.mpr ⟨_, hj, by simp [hread]⟩

theorem attributes_of_written {ms : Members Json} (h : (Json.object ms).Distinct)
    {o : CompilerOptions} {options : List ChoiceList}
    (hlength : options.length = (Layout.ofForm (ofMembers ms) o).pending.length)
    {block key : String} {own fields written : Members Json} (hown : (block, .object own) ∈ ms)
    (hblock : block ≠ titleKey) (hp : own.lookup "properties" = some (.object fields))
    (hwritten : (key, .object written) ∈ fields) (hfield : isField (.object written) = true) :
    ∃ entry,
      ((Layout.ofForm (ofMembers ms) o).withOptions options).field? block key = some entry ∧
      entry.attributes = Field.passedOn o.extensionPrefix written ∧
      entry.attributes.names.Nodup := by
  have hdistinct : (Json.object written).Distinct :=
    ((h.of_mem hown).of_mem (Members.mem_of_lookup hp)).of_mem hwritten
  rw [← read?_isSome hdistinct, Option.isSome_iff_exists] at hfield
  obtain ⟨f, hread⟩ := hfield
  have hdeclared := field?_of_written h hown hblock hp hwritten hread
  obtain ⟨entry, hentry, hstands⟩ :=
    standsAs_of_declared (distinct_ofMembers h) hlength hdeclared
  have hattributes : entry.attributes = Field.passedOn o.extensionPrefix written := by
    rw [hstands.attributes_eq, Field.eq_ofMembers hread, Field.extensions_ofMembers]
  refine ⟨entry, hentry, hattributes, ?_⟩
  rw [hattributes]
  exact hdistinct.names.sublist (List.filter_sublist.map _)

theorem ofForm_eq_of_pruned {ms ms' : Members Json} (h : (Json.object ms).Distinct)
    (h' : (Json.object ms').Distinct) {o : CompilerOptions}
    (hpruned : pruned o.extensionPrefix ms' = pruned o.extensionPrefix ms) :
    Layout.ofForm (ofMembers ms') o = Layout.ofForm (ofMembers ms) o ∧
      notices ms' = notices ms := by
  constructor
  · rw [← Layout.ofForm_trimmed o (ofMembers ms'), ← ofMembers_pruned h', hpruned,
      ofMembers_pruned h, Layout.ofForm_trimmed]
  · rw [← notices_pruned h' o.extensionPrefix, hpruned, notices_pruned h]

end Form

variable {φ : Type} [DecidableEq φ]

theorem compilesAmid_of_pruned {document document' : Json} (h : document.Distinct)
    (h' : document'.Distinct) {ms ms' : Members Json} (hc : Form.config? document = some ms)
    (hc' : Form.config? document' = some ms') {o : CompilerOptions}
    (hpruned : Form.pruned o.extensionPrefix ms' = Form.pruned o.extensionPrefix ms)
    {between : Cache φ → Cache φ → Prop} {backend : Backend φ} {c c' : Cache φ} {schema : Schema}
    (hschema : CompilesAmid between document o backend c c' schema) :
    CompilesAmid between document' o backend c c' schema := by
  obtain ⟨hlayout, hnotices⟩ := Form.ofForm_eq_of_pruned (Form.distinct_config h hc)
    (Form.distinct_config h' hc') hpruned
  obtain ⟨ms₀, log, options, hc₀, hlog, rfl⟩ := hschema
  rw [hc] at hc₀
  cases hc₀
  refine ⟨ms', log, options, hc', ?_, by rw [hlayout]⟩
  have hawaiting : awaiting document' o c = awaiting document o c := by
    simp only [awaiting, hc, hc', hlayout, hnotices]
  rw [hawaiting]
  exact hlog

/-- In whichever order its fields are polled, the entry of a field has as attributes the members of
its descriptor whose names start with the prefix, but for the regular ones, in their order and each
once, and a companion has none. Two documents that differ in nothing but the other attributes of
fields compile to the same. -/
theorem field_attributes (document : Json) (h : document.Distinct) {ms : Members Json}
    (hc : Form.config? document = some ms) (o : CompilerOptions) (backend : Backend φ)
    (c : Cache φ) :
    (∃ schema, (compile document o backend c).2 = some schema ∧
      CompilesAmid Eq document o backend c (compile document o backend c).1 schema) ∧
    (∀ between c' schema, CompilesAmid between document o backend c c' schema →
      (∀ block own fields key written, (block, .object own) ∈ ms → block ≠ Form.titleKey →
        own.lookup "properties" = some (.object fields) → (key, .object written) ∈ fields →
        Form.isField (.object written) = true →
        ∃ entry, schema.field? block key = some entry ∧
          entry.attributes = Form.Field.passedOn o.extensionPrefix written ∧
          entry.attributes.names.Nodup) ∧
      ∀ block key entry, schema.field? block key = some entry →
        (Form.ofMembers ms).field? block key = none → entry.attributes = []) ∧
    ∀ document' ms', document'.Distinct → Form.config? document' = some ms' →
      Form.pruned o.extensionPrefix ms' = Form.pruned o.extensionPrefix ms →
      compile document' o backend c = compile document o backend c ∧
      ∀ between c' schema, CompilesAmid between document' o backend c c' schema ↔
        CompilesAmid between document o backend c c' schema := by
  have hms := Form.distinct_config h hc
  refine ⟨?_, ?_, ?_⟩
  · have hsome : (compile document o backend c).2.isSome = true := by
      simp only [compile, hc, Option.isSome_some]
    obtain ⟨schema, hschema⟩ := Option.isSome_iff_exists.mp hsome
    exact ⟨schema, hschema, compilesAmid_compile hschema⟩
  · rintro between c' schema ⟨ms₀, log, options, hc₀, hlog, rfl⟩
    rw [hc] at hc₀
    cases hc₀
    have hlength := length_options hc hlog
    constructor
    · intro block own fields key written hown hblock hp hwritten hfield
      exact Form.attributes_of_written hms hlength hown hblock hp hwritten hfield
    · intro block key entry hentry hundeclared
      obtain ⟨own, name, f, -, rfl⟩ :=
        Form.companion_of_undeclared (Form.distinct_ofMembers hms) hentry hundeclared
      rfl
  · intro document' ms' h' hc' hpruned
    obtain ⟨hlayout, hnotices⟩ :=
      Form.ofForm_eq_of_pruned hms (Form.distinct_config h' hc') hpruned
    refine ⟨?_, fun between c' schema => ⟨?_, ?_⟩⟩
    · simp only [compile, hc, hc', hnotices, Form.compile, hlayout]
    · exact compilesAmid_of_pruned h' h hc' hc hpruned.symm
    · exact compilesAmid_of_pruned h h' hc hc' hpruned

def tagged (rest : Members Json) : Json :=
  .object [("config", .object [("A", .object [("properties", .object [
    ("sex", .object ([("enumDict", .string "sexDict"), ("hrCol", .array [.ofNat 6]),
      ("bindBlock", .string "A"), ("bindCode", .string "sexCode")] ++ rest))])])])]

theorem tagged_distinct : (tagged []).Distinct ∧ (tagged [("note", .null)]).Distinct := by
  simp [tagged, Json.Distinct, Json.DistinctItems, Json.DistinctMembers, Json.ofNat]

theorem field_attributes_tagged :
    let backend : Backend Nat := fun _ _ _ => ⟨0, .ok .null⟩
    let c : Cache Nat := .ofStrategies [] []
    (tagged []).Distinct ∧ ∃ schema entry companion,
      (compile (tagged []) {} backend c).2 = some schema ∧
      schema.field? "A" "sex" = some entry ∧ entry.attributes = [("hrCol", .array [.ofNat 6])] ∧
      schema.field? "A" "sexCode" = some companion ∧ companion.attributes = [] ∧
      compile (tagged [("note", .null)]) {} backend c = compile (tagged []) {} backend c := by
  intro backend c
  obtain ⟨hdistinct, hdistinct'⟩ := tagged_distinct
  obtain ⟨⟨schema, hschema, hamid⟩, hattributes, hpruned⟩ :=
    field_attributes (tagged []) hdistinct rfl {} backend c
  obtain ⟨hwritten, hcompanion⟩ := hattributes Eq _ schema hamid
  obtain ⟨entry, hentry, hpassed, -⟩ := hwritten "A" _ _ "sex" _ List.mem_cons_self
    (by simp [Form.titleKey]) rfl List.mem_cons_self rfl
  have hsome : (schema.field? "A" "sexCode").isSome = true := by
    cases hschema
    rfl
  obtain ⟨companion, hc⟩ := Option.isSome_iff_exists.mp hsome
  refine ⟨hdistinct, schema, entry, companion, hschema, hentry, ?_, hc, ?_, ?_⟩
  · rw [hpassed]
    simp [Form.Field.passedOn, Form.Field.regularNames]
  · exact hcompanion "A" "sexCode" companion hc rfl
  · apply (hpruned _ _ hdistinct' rfl ?_).1
    simp [Form.pruned, Form.Block.pruned, Form.prunedFields, Members.update, Form.Field.pruned,
      Form.Field.kept, Form.Field.regularNames]

end FormCompiler
