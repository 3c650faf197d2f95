import FormCompiler.Proofs.Layout.Attributes
import FormCompiler.Proofs.Layout.Companions
import FormCompiler.Proofs.Layout.Orders
import FormCompiler.Proofs.Schema.ReadBack

namespace FormCompiler

theorem Lenient.count_lt {j : Json} {n : Nat} (h : (Lenient.count j).value = some n) :
    n < Nat.pow 2 64 := by
  unfold Lenient.count at h
  split at h
  case h_1 => cases h
  case h_2 x =>
    have hx := (Option.filter_eq_some_iff.mp h).1
    exact Json.unsigned?_lt (j := .number x) hx
  case h_3 s =>
    split at h
    · cases h
    · split at h
      case h_1 m hm =>
        have hlt := (Option.filter_eq_some_iff.mp hm).2
        simp only [Option.ite_none_right_eq_some, Option.some_inj] at h
        obtain ⟨-, rfl⟩ := h
        exact of_decide_eq_true hlt
      case h_2 => cases h
  case h_4 => cases h

namespace Form

structure Field.Fit (f : Field) : Prop where
  maxLength : ∀ n, f.maxLength = some n → n < Nat.pow 2 64
  maxCount : ∀ n, f.maxCount = some n → n < Nat.pow 2 64
  maxSize : ∀ n, f.maxSize = some n → n < Nat.pow 2 64
  fieldClass : f.fieldClass ≠ some .null
  attributes : f.attributes.names.Nodup

theorem Field.lt_of_lenient {ms : Members Json} {name : String} {n : Nat}
    (h : Field.lenient Lenient.count ms name = some n) : n < Nat.pow 2 64 := by
  obtain ⟨j, -, hj⟩ := Option.bind_eq_some_iff.mp h
  exact Lenient.count_lt hj

theorem Field.fit_of_read? {j : Json} (hj : j.Distinct) {f : Field} (h : Field.read? j = some f) :
    f.Fit := by
  cases j with
  | object ms =>
    simp only [Field.read?, Option.ite_none_right_eq_some, Option.some_inj] at h
    obtain ⟨-, rfl⟩ := h
    refine ⟨fun _ => lt_of_lenient, fun _ => lt_of_lenient, fun _ => lt_of_lenient, ?_, ?_⟩
    · intro hnull
      obtain ⟨v, -, hv⟩ := Option.bind_eq_some_iff.mp hnull
      cases v <;> cases hv
    · exact hj.names.sublist (List.filter_sublist.map _)
  | _ => cases h

theorem fit_ofMembers {ms : Members Json} (h : (Json.object ms).Distinct) {key : String} {b : Block}
    (hb : (key, b) ∈ (ofMembers ms).blocks) :
    b.attributes.names.Nodup ∧ ∀ name f, (name, f) ∈ b.fields → f.Fit := by
  obtain ⟨own, fields, hown, -, hnodup, hp, rfl⟩ := exists_member_of_block h hb
  have hfields : (Json.object fields).Distinct :=
    (h.of_mem hown).of_mem (Members.mem_of_lookup hp)
  constructor
  · have herase : (Members.erase own "properties").names.Nodup :=
      hnodup.sublist (List.filter_sublist.map _)
    have hswap : (Block.ownMembers own).names.Nodup :=
      ((Members.perm_swapErase hnodup "properties").map _).nodup_iff.mpr herase
    exact hswap.sublist (List.filter_sublist.map _)
  · intro name f hf
    obtain ⟨j, hj, hread⟩ := mem_readFields hf
    exact Field.fit_of_read? (hfields.of_mem hj) hread

end Form

structure CompilerOptions.Fit (o : CompilerOptions) : Prop where
  extensionPrefix : ∀ name ∈ Schema.Field.memberNames ++ Schema.Block.memberNames,
    name.startsWith o.extensionPrefix = false
  maxCount : o.upload.maxCount < Nat.pow 2 64
  maxSize : o.upload.maxSize < Nat.pow 2 64

namespace Schema

theorem beside_startingWith {names : List String} {start : String}
    (h : ∀ name ∈ names, name.startsWith start = false) {attributes : Members Json}
    (hnodup : attributes.names.Nodup) : Beside names (attributes.startingWith start) where
  nodup := hnodup.sublist (List.filter_sublist.map _)
  disjoint := by
    intro name hname hmem
    obtain ⟨m, hm, rfl⟩ := List.mem_map.mp hname
    have hstart : m.1.startsWith start = true := (List.mem_filter.mp hm).2
    rw [h m.1 hmem] at hstart
    cases hstart

namespace Field.Readable

variable {entry : Field}

theorem withChoices (h : entry.Readable) (l : ChoiceList) : (entry.withChoices l).Readable where
  minItems := h.minItems
  maxItems := h.maxItems
  ui := ⟨h.ui.maxLength, h.ui.maxCount, h.ui.maxSize, h.ui.fieldClass⟩
  attributes := h.attributes

theorem withHidden (h : entry.Readable) (hidden : Option Bool) :
    ({ entry with hidden } : Field).Readable :=
  ⟨h.minItems, h.maxItems, h.ui, h.attributes⟩

end Field.Readable

end Schema

namespace Form.Field

variable {f : Form.Field} {o : CompilerOptions}

theorem Fit.plain (h : f.Fit) (ho : o.Fit) : (f.plain o).Readable where
  minItems n hn := nomatch hn
  maxItems n hn := nomatch hn
  ui := by
    refine ⟨h.maxLength, ?_, ?_, ?_⟩
    all_goals simp [Form.Field.plain, plainUi]
  attributes := Schema.beside_startingWith
    (fun name hname => ho.extensionPrefix name (List.mem_append_left _ hname)) h.attributes

theorem Fit.withUpload (h : f.Fit) (ho : o.Fit) {entry : Schema.Field} (he : entry.Readable) :
    (f.withUpload o entry).Readable := by
  have hcount : f.maxCount.getD o.upload.maxCount < Nat.pow 2 64 := by
    cases hc : f.maxCount with
    | none => exact ho.maxCount
    | some n => exact h.maxCount n hc
  have hsize : f.maxSize.getD o.upload.maxSize < Nat.pow 2 64 := by
    cases hs : f.maxSize with
    | none => exact ho.maxSize
    | some n => exact h.maxSize n hs
  constructor
  case minItems =>
    intro n hn
    cases hn
    decide
  case maxItems =>
    intro n hn
    cases hn
    exact hcount
  case ui =>
    refine ⟨he.ui.maxLength, ?_, ?_, h.fieldClass⟩
    · intro n hn
      cases hn
      exact hcount
    · intro n hn
      cases hn
      exact hsize
  case attributes => exact he.attributes

theorem Fit.synthesize (h : f.Fit) (ho : o.Fit) : (f.synthesize o).Readable := by
  unfold Field.synthesize
  split
  · exact h.withUpload ho (h.plain ho)
  · exact h.plain ho

theorem withInline_readable (f : Form.Field) {entry : Schema.Field} (h : entry.Readable) :
    (f.withInline entry).Readable := by
  unfold withInline
  split
  · exact h.withChoices _
  · exact h

theorem Fit.standsAs (h : f.Fit) (ho : o.Fit) {answers : List (PendingChoice × ChoiceList)}
    {block key : String} {entry : Schema.Field} (hstands : f.StandsAs o answers block key entry) :
    entry.Readable := by
  have hsynthesize := h.synthesize ho
  unfold StandsAs at hstands
  split at hstands
  · rw [hstands]
    exact f.withInline_readable (hsynthesize.withHidden _)
  · rw [hstands]
    exact f.withInline_readable hsynthesize
  · obtain ⟨choices, -, rfl⟩ := hstands
    exact hsynthesize.withChoices choices

end Form.Field

theorem BoundPair.companionOf_readable (block key : String) (f : Form.Field)
    (o : CompilerOptions) : (companionOf block key f o).Readable where
  minItems n hn := by cases hn
  maxItems n hn := by cases hn
  ui := by constructor <;> simp [companionOf]
  attributes := ⟨List.nodup_nil, by simp [companionOf]⟩

namespace Form

theorem attributes_withOptions (form : Form) (o : CompilerOptions) (options : List ChoiceList)
    {block : String} {b : Schema.Block}
    (hb : (block, b) ∈ ((Layout.ofForm form o).withOptions options).blocks) :
    ∃ own, (block, own) ∈ form.blocks ∧ b.attributes = own.extensions o.extensionPrefix := by
  obtain ⟨own, hown, rfl⟩ := Layout.exists_received form o options hb
  exact ⟨own, hown, Layout.attributes_foldl_receive form o block form.declarations _⟩

theorem readable_withOptions {ms : Members Json} (h : (Json.object ms).Distinct)
    {o : CompilerOptions} (ho : o.Fit) {options : List ChoiceList}
    (hlength : options.length = (Layout.ofForm (ofMembers ms) o).pending.length) :
    ((Layout.ofForm (ofMembers ms) o).withOptions options).Readable := by
  have hd := distinct_ofMembers h
  refine ⟨names_withOptions hd o options ▸ hd.blocks, ?_⟩
  intro block b hb
  constructor
  case names =>
    rw [fieldNames_withOptions hd hb]
    exact hd.keysOf_nodup block
  case fields =>
    intro key entry he
    rcases entry_cases hd hlength hb he with ⟨-, own, name, f, rfl⟩ | ⟨f, hf, hstands⟩
    · exact BoundPair.companionOf_readable own name f o
    · obtain ⟨own, hown, hmem⟩ := Option.bind_eq_some_iff.mp hf
      have hfit := (fit_ofMembers h (Members.mem_of_lookup hown)).2 key f (Members.mem_of_lookup hmem)
      exact hfit.standsAs ho hstands
  case attributes =>
    obtain ⟨own, hown, he⟩ := attributes_withOptions (ofMembers ms) o options hb
    rw [he]
    apply Schema.beside_startingWith ?_ (fit_ofMembers h hown).1
    exact fun name hname => ho.extensionPrefix name (List.mem_append_right _ hname)

end Form

variable {φ : Type} [DecidableEq φ]

/-- Reading a schema back undoes writing it. This holds of every schema that has been read from some
value, and of every schema that a document compiles to in whichever order the fields are polled and
whatever others do to the cache in the meantime, when no regular member of a field or a block has a
name that starts with the prefix of the attributes. -/
theorem schema_read_back :
    (∀ j schema, j.Distinct → Schema.read? j = some schema →
      schema.WrittenOnce ∧ Schema.read? schema.toJson = some schema) ∧
    ∀ (document : Json) (o : CompilerOptions) (backend : Backend φ) (c : Cache φ),
      document.Distinct → o.Fit →
        (∀ schema, (compile document o backend c).2 = some schema →
          CompilesAmid Eq document o backend c (compile document o backend c).1 schema) ∧
        ∀ between c' schema, CompilesAmid between document o backend c c' schema →
          schema.WrittenOnce ∧ Schema.read? schema.toJson = some schema := by
  constructor
  · intro j schema hj hread
    have hreadable := Schema.readable_of_read? hj hread
    exact ⟨hreadable.writtenOnce, Schema.read?_toJson hreadable⟩
  · intro document o backend c h ho
    refine ⟨fun _ => compilesAmid_compile, ?_⟩
    rintro between c' schema ⟨ms, log, options, hc, hlog, rfl⟩
    have hreadable := Form.readable_withOptions (Form.distinct_config h hc) ho
      (length_options hc hlog)
    exact ⟨hreadable.writtenOnce, Schema.read?_toJson hreadable⟩

theorem CompilerOptions.fit_default : ({} : CompilerOptions).Fit where
  extensionPrefix := by simp [Schema.Field.memberNames, Schema.Block.memberNames]
  maxCount := by decide
  maxSize := by decide

theorem schema_read_back_crossing : crossing.Distinct ∧ ({} : CompilerOptions).Fit ∧
    ∃ schema,
      (compile crossing {} (fun _ _ _ => ⟨0, .ok .null⟩) (Cache.ofStrategies (φ := Nat) [] [])).2 =
          some schema ∧
        schema.outline.names = ["A", "B"] ∧
        Schema.read? schema.toJson = some schema := by
  obtain ⟨hcompile, hback⟩ := schema_read_back.2 crossing {} (fun _ _ _ => ⟨0, .ok .null⟩)
    (Cache.ofStrategies (φ := Nat) [] []) crossing_distinct CompilerOptions.fit_default
  exact ⟨crossing_distinct, CompilerOptions.fit_default, _, rfl, rfl, (hback _ _ _ (hcompile _ rfl)).2⟩

end FormCompiler
