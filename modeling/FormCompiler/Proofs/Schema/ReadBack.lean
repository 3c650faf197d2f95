import FormCompiler.Proofs.Json.Record
import FormCompiler.Schema.Json

namespace FormCompiler

theorem FieldType.ofText?_text (t : FieldType) : ofText? t.text = some t := by
  have hlower : t.text.map Char.toLower = t.text := by
    rw [← String.toList_inj, String.toList_map]
    cases t <;> rfl
  unfold ofText?
  rw [hlower]
  cases t <;> rfl

namespace Schema

theorem member?_eq {α : Type} (name : String) (write : α → Json) (value : Option α) :
    member? name write value = ((value.map write).map (name, ·)).toList := by
  cases value <;> rfl

structure Beside (names : List String) (attributes : Members Json) : Prop where
  nodup : attributes.names.Nodup
  disjoint : ∀ name ∈ attributes.names, name ∉ names

theorem beside_filter {ms : Members Json} (h : ms.names.Nodup) (names : List String) :
    Beside names (ms.filter fun (name, _) => !names.contains name) where
  nodup := h.sublist (List.filter_sublist.map _)
  disjoint := by
    intro name hname
    obtain ⟨m, hm, rfl⟩ := List.mem_map.mp hname
    simpa using (List.mem_filter.mp hm).2

theorem Beside.read_written {regular : Members (Option Json)} {attributes ms : Members Json}
    (h : Beside regular.names attributes) (hregular : regular.names.Nodup)
    (hms : ms = Members.written regular ++ attributes) :
    ms.filter (fun (name, _) => !regular.names.contains name) = attributes ∧
      ∀ name ∈ regular.names, ms.lookup name = (regular.lookup name).join := by
  subst hms
  refine ⟨Members.filter_written_append h.disjoint, ?_⟩
  intro name hname
  exact Members.lookup_written_append hregular h.disjoint hname

namespace UiOptions

def regular (u : UiOptions) : Members (Option Json) :=
  [("disabled", some (.bool u.disabled)), ("placeholder", u.placeholder.map .string),
    ("clearable", u.clearable.map .bool), ("pattern", u.pattern.map .string),
    ("err:pattern", u.patternMessage.map .string), ("maxLength", u.maxLength.map .ofNat),
    ("fieldClass", u.fieldClass.map id), ("maxCount", u.maxCount.map .ofNat),
    ("maxSize", u.maxSize.map .ofNat), ("fileTypes", u.fileTypes.map .string)]

structure Readable (u : UiOptions) : Prop where
  maxLength : ∀ n, u.maxLength = some n → n < Nat.pow 2 64
  maxCount : ∀ n, u.maxCount = some n → n < Nat.pow 2 64
  maxSize : ∀ n, u.maxSize = some n → n < Nat.pow 2 64
  fieldClass : u.fieldClass ≠ some .null

theorem toJson_eq (u : UiOptions) : u.toJson = .object (Members.written u.regular) := by
  simp only [toJson, regular, member?_eq, Members.written_cons, Members.written_nil,
    Option.map_some, Option.toList_some, List.append_assoc, List.append_nil]

theorem names_regular (u : UiOptions) : u.regular.names = memberNames := rfl

theorem read?_toJson {u : UiOptions} (h : u.Readable) : read? u.toJson = some u := by
  have hnodup : u.regular.names.Nodup := by
    rw [names_regular]
    decide
  rw [toJson_eq]
  generalize hms : Members.written u.regular = ms
  have hlookup : ∀ name, ms.lookup name = (u.regular.lookup name).join := by
    rw [← hms]
    exact Members.lookup_written hnodup
  have hclass : ∀ j, u.fieldClass = some j → id j ≠ .null ∧ some (id j) = some j := by
    intro j hj
    refine ⟨?_, rfl⟩
    rintro rfl
    exact h.fieldClass hj
  refine Option.bind_eq_some_iff.mpr
    ⟨u.disabled, Json.required?_of_lookup (hlookup "disabled") rfl, ?_⟩
  refine Option.bind_eq_some_iff.mpr
    ⟨u.placeholder, Json.unset?_string (hlookup "placeholder"), ?_⟩
  refine Option.bind_eq_some_iff.mpr ⟨u.clearable, Json.unset?_bool (hlookup "clearable"), ?_⟩
  refine Option.bind_eq_some_iff.mpr ⟨u.pattern, Json.unset?_string (hlookup "pattern"), ?_⟩
  refine Option.bind_eq_some_iff.mpr
    ⟨u.patternMessage, Json.unset?_string (hlookup "err:pattern"), ?_⟩
  refine Option.bind_eq_some_iff.mpr
    ⟨u.maxLength, Json.unset?_unsigned (hlookup "maxLength") h.maxLength, ?_⟩
  refine Option.bind_eq_some_iff.mpr
    ⟨u.fieldClass, Json.unset?_of_lookup (hlookup "fieldClass") hclass, ?_⟩
  refine Option.bind_eq_some_iff.mpr
    ⟨u.maxCount, Json.unset?_unsigned (hlookup "maxCount") h.maxCount, ?_⟩
  refine Option.bind_eq_some_iff.mpr
    ⟨u.maxSize, Json.unset?_unsigned (hlookup "maxSize") h.maxSize, ?_⟩
  exact Option.bind_eq_some_iff.mpr ⟨u.fileTypes, Json.unset?_string (hlookup "fileTypes"), rfl⟩

theorem readable_of_read? {j : Json} {u : UiOptions} (h : read? j = some u) : u.Readable := by
  obtain ⟨ms, -, h⟩ := Option.bind_eq_some_iff.mp h
  iterate 5 obtain ⟨_, -, h⟩ := Option.bind_eq_some_iff.mp h
  obtain ⟨length, hlength, h⟩ := Option.bind_eq_some_iff.mp h
  obtain ⟨fieldClass, hclass, h⟩ := Option.bind_eq_some_iff.mp h
  obtain ⟨count, hcount, h⟩ := Option.bind_eq_some_iff.mp h
  obtain ⟨size, hsize, h⟩ := Option.bind_eq_some_iff.mp h
  obtain ⟨_, -, h⟩ := Option.bind_eq_some_iff.mp h
  cases h
  refine ⟨Json.lt_of_unset? hlength, Json.lt_of_unset? hcount, Json.lt_of_unset? hsize, ?_⟩
  rintro rfl
  obtain ⟨j, -, hnull, he⟩ := Json.lookup_of_unset? hclass rfl
  cases he
  exact hnull rfl

end UiOptions

namespace Field

def regular (f : Field) : Members (Option Json) :=
  [("type", some (.string f.type.text)), ("title", some (.string f.title)),
    ("ui:emptyValue", some f.emptyValue), ("ui:hidden", f.hidden.map .bool),
    ("uniqueItems", f.uniqueItems.map .bool), ("enum", f.codes.map .array),
    ("enumNames", f.labels.map writeTexts), ("minItems", f.minItems.map .ofNat),
    ("maxItems", f.maxItems.map .ofNat), ("items", f.itemType.map writeItems),
    ("ui:options", some f.ui.toJson), ("ui:widget", f.widget.map .string),
    ("bindBlock", f.bindBlock.map .string), ("bindCode", f.bindCode.map .string),
    ("extProperties", some (.object f.extProperties)),
    ("err:required", f.requiredMessage.map .string)]

structure Readable (f : Field) : Prop where
  minItems : ∀ n, f.minItems = some n → n < Nat.pow 2 64
  maxItems : ∀ n, f.maxItems = some n → n < Nat.pow 2 64
  ui : f.ui.Readable
  attributes : Beside memberNames f.attributes

theorem members_eq (f : Field) : f.members = Members.written f.regular ++ f.attributes := by
  simp only [members, regular, member?_eq, Members.written_cons, Members.written_nil,
    Option.map_some, Option.toList_some, List.append_assoc, List.append_nil, List.cons_append,
    List.nil_append]

theorem names_regular (f : Field) : f.regular.names = memberNames := rfl

theorem nodup_regular (f : Field) : f.regular.names.Nodup := by
  rw [names_regular]
  decide

theorem nodup_members {f : Field} (h : f.Readable) : f.members.names.Nodup := by
  rw [members_eq]
  exact Members.nodup_written_append f.nodup_regular h.attributes.nodup h.attributes.disjoint

theorem read?_toJson {f : Field} (h : f.Readable) : read? f.toJson = some f := by
  have hbeside : Beside f.regular.names f.attributes := h.attributes
  obtain ⟨hattributes, hlookup⟩ := hbeside.read_written f.nodup_regular f.members_eq
  rw [names_regular] at hattributes hlookup
  rw [toJson]
  generalize f.members = ms at hattributes hlookup
  have hcodes : ∀ codes, f.codes = some codes →
      Json.array codes ≠ .null ∧ (Json.array codes).items? = some codes :=
    fun _ _ => ⟨by simp, rfl⟩
  have hlabels : ∀ labels, f.labels = some labels →
      writeTexts labels ≠ .null ∧ Json.listOf? Json.string? (writeTexts labels) = some labels :=
    fun _ _ => ⟨by simp [writeTexts], Json.listOf?_map fun _ _ => rfl⟩
  have hitems : ∀ type, f.itemType = some type →
      writeItems type ≠ .null ∧ readItems (writeItems type) = some type :=
    fun _ _ => ⟨by simp [writeItems], rfl⟩
  refine Option.bind_eq_some_iff.mpr ⟨f.type,
    Json.required?_of_lookup (hlookup "type" (by decide)) (FieldType.ofText?_text f.type), ?_⟩
  refine Option.bind_eq_some_iff.mpr
    ⟨f.title, Json.required?_of_lookup (hlookup "title" (by decide)) rfl, ?_⟩
  refine Option.bind_eq_some_iff.mpr
    ⟨f.emptyValue, Json.required?_of_lookup (hlookup "ui:emptyValue" (by decide)) rfl, ?_⟩
  refine Option.bind_eq_some_iff.mpr
    ⟨f.hidden, Json.unset?_bool (hlookup "ui:hidden" (by decide)), ?_⟩
  refine Option.bind_eq_some_iff.mpr
    ⟨f.uniqueItems, Json.unset?_bool (hlookup "uniqueItems" (by decide)), ?_⟩
  refine Option.bind_eq_some_iff.mpr
    ⟨f.codes, Json.unset?_of_lookup (hlookup "enum" (by decide)) hcodes, ?_⟩
  refine Option.bind_eq_some_iff.mpr
    ⟨f.labels, Json.unset?_of_lookup (hlookup "enumNames" (by decide)) hlabels, ?_⟩
  refine Option.bind_eq_some_iff.mpr
    ⟨f.minItems, Json.unset?_unsigned (hlookup "minItems" (by decide)) h.minItems, ?_⟩
  refine Option.bind_eq_some_iff.mpr
    ⟨f.maxItems, Json.unset?_unsigned (hlookup "maxItems" (by decide)) h.maxItems, ?_⟩
  refine Option.bind_eq_some_iff.mpr
    ⟨f.itemType, Json.unset?_of_lookup (hlookup "items" (by decide)) hitems, ?_⟩
  refine Option.bind_eq_some_iff.mpr ⟨f.ui,
    Json.required?_of_lookup (hlookup "ui:options" (by decide)) (UiOptions.read?_toJson h.ui), ?_⟩
  refine Option.bind_eq_some_iff.mpr
    ⟨f.widget, Json.unset?_string (hlookup "ui:widget" (by decide)), ?_⟩
  refine Option.bind_eq_some_iff.mpr
    ⟨f.bindBlock, Json.unset?_string (hlookup "bindBlock" (by decide)), ?_⟩
  refine Option.bind_eq_some_iff.mpr
    ⟨f.bindCode, Json.unset?_string (hlookup "bindCode" (by decide)), ?_⟩
  refine Option.bind_eq_some_iff.mpr
    ⟨f.extProperties, Json.defaulted?_of_lookup (hlookup "extProperties" (by decide)) rfl, ?_⟩
  refine Option.bind_eq_some_iff.mpr
    ⟨f.requiredMessage, Json.unset?_string (hlookup "err:required" (by decide)), ?_⟩
  rw [hattributes]

theorem readable_of_read? {j : Json} (hj : j.Distinct) {f : Field} (h : read? j = some f) :
    f.Readable := by
  obtain ⟨ms, hms, h⟩ := Option.bind_eq_some_iff.mp h
  iterate 7 obtain ⟨_, -, h⟩ := Option.bind_eq_some_iff.mp h
  obtain ⟨min, hmin, h⟩ := Option.bind_eq_some_iff.mp h
  obtain ⟨max, hmax, h⟩ := Option.bind_eq_some_iff.mp h
  obtain ⟨_, -, h⟩ := Option.bind_eq_some_iff.mp h
  obtain ⟨ui, hui, h⟩ := Option.bind_eq_some_iff.mp h
  iterate 5 obtain ⟨_, -, h⟩ := Option.bind_eq_some_iff.mp h
  cases h
  obtain ⟨uij, -, hui⟩ := Json.lookup_of_required? hui
  cases j with
  | object members =>
    cases hms
    exact ⟨Json.lt_of_unset? hmin, Json.lt_of_unset? hmax, UiOptions.readable_of_read? hui,
      beside_filter hj.names memberNames⟩
  | _ => cases hms

end Field

namespace Block

def regular (b : Block) : Members (Option Json) :=
  [("title", some (.string b.title)), ("required", some (writeTexts b.required)),
    ("properties", some (.object (b.fields.map fun (key, f) => (key, f.toJson)))),
    ("ui:options", b.uiOptions.map .object)]

structure Readable (b : Block) : Prop where
  names : b.fields.names.Nodup
  fields : ∀ key f, (key, f) ∈ b.fields → f.Readable
  attributes : Beside memberNames b.attributes

theorem members_eq (b : Block) : b.members = Members.written b.regular ++ b.attributes := by
  simp only [members, regular, member?_eq, Members.written_cons, Members.written_nil,
    Option.map_some, Option.toList_some, List.append_nil, List.cons_append, List.nil_append]

theorem names_regular (b : Block) : b.regular.names = memberNames := rfl

theorem nodup_regular (b : Block) : b.regular.names.Nodup := by
  rw [names_regular]
  decide

theorem nodup_members {b : Block} (h : b.Readable) : b.members.names.Nodup := by
  rw [members_eq]
  exact Members.nodup_written_append b.nodup_regular h.attributes.nodup h.attributes.disjoint

theorem read?_toJson {b : Block} (h : b.Readable) : read? b.toJson = some b := by
  have hbeside : Beside b.regular.names b.attributes := h.attributes
  obtain ⟨hattributes, hlookup⟩ := hbeside.read_written b.nodup_regular b.members_eq
  rw [names_regular] at hattributes hlookup
  rw [toJson]
  generalize b.members = ms at hattributes hlookup
  have hfields : Json.membersOf? Field.read?
      (.object (b.fields.map fun (key, f) => (key, f.toJson))) = some b.fields :=
    Json.membersOf?_map fun key f hf => Field.read?_toJson (h.fields key f hf)
  have hui : ∀ ui, b.uiOptions = some ui →
      Json.object ui ≠ .null ∧ (Json.object ui).members? = some ui :=
    fun _ _ => ⟨by simp, rfl⟩
  refine Option.bind_eq_some_iff.mpr
    ⟨b.title, Json.required?_of_lookup (hlookup "title" (by decide)) rfl, ?_⟩
  refine Option.bind_eq_some_iff.mpr ⟨b.required,
    Json.required?_of_lookup (hlookup "required" (by decide)) (Json.listOf?_map fun _ _ => rfl), ?_⟩
  refine Option.bind_eq_some_iff.mpr
    ⟨b.fields, Json.required?_of_lookup (hlookup "properties" (by decide)) hfields, ?_⟩
  refine Option.bind_eq_some_iff.mpr
    ⟨b.uiOptions, Json.unset?_of_lookup (hlookup "ui:options" (by decide)) hui, ?_⟩
  rw [hattributes]

theorem readable_of_read? {j : Json} (hj : j.Distinct) {b : Block} (h : read? j = some b) :
    b.Readable := by
  obtain ⟨ms, hms, h⟩ := Option.bind_eq_some_iff.mp h
  iterate 2 obtain ⟨_, -, h⟩ := Option.bind_eq_some_iff.mp h
  obtain ⟨fields, hfields, h⟩ := Option.bind_eq_some_iff.mp h
  obtain ⟨_, -, h⟩ := Option.bind_eq_some_iff.mp h
  cases h
  obtain ⟨properties, hproperties, hfields⟩ := Json.lookup_of_required? hfields
  obtain ⟨written, rfl, hnames, hread⟩ := Json.of_membersOf? hfields
  cases j with
  | object members =>
    cases hms
    have hd : (Json.object written).Distinct := hj.of_mem (Members.mem_of_lookup hproperties)
    refine ⟨hnames ▸ hd.names, ?_, beside_filter hj.names memberNames⟩
    intro key f hf
    obtain ⟨v, hv, hf⟩ := hread key f hf
    exact Field.readable_of_read? (hd.of_mem hv) hf
  | _ => cases hms

end Block

structure Readable (s : Schema) : Prop where
  names : s.blocks.names.Nodup
  blocks : ∀ key b, (key, b) ∈ s.blocks → b.Readable

theorem read?_toJson {s : Schema} (h : s.Readable) : read? s.toJson = some s := by
  have hblocks : ∀ key b, (key, b) ∈ s.blocks → Block.read? b.toJson = some b :=
    fun key b hb => Block.read?_toJson (h.blocks key b hb)
  -- the other members are never unset, so that reading them is a matter of evaluation
  refine Option.bind_eq_some_iff.mpr ⟨s.required, Json.listOf?_map fun _ _ => rfl, ?_⟩
  exact Option.bind_eq_some_iff.mpr ⟨s.blocks, Json.membersOf?_map hblocks, rfl⟩

theorem readable_of_read? {j : Json} (hj : j.Distinct) {s : Schema} (h : read? j = some s) :
    s.Readable := by
  obtain ⟨ms, hms, h⟩ := Option.bind_eq_some_iff.mp h
  iterate 3 obtain ⟨_, -, h⟩ := Option.bind_eq_some_iff.mp h
  obtain ⟨blocks, hblocks, h⟩ := Option.bind_eq_some_iff.mp h
  obtain ⟨_, -, h⟩ := Option.bind_eq_some_iff.mp h
  cases h
  obtain ⟨properties, hproperties, hblocks⟩ := Json.lookup_of_required? hblocks
  obtain ⟨written, rfl, hnames, hread⟩ := Json.of_membersOf? hblocks
  have hd := Json.distinct_of_record? hj hms hproperties
  refine ⟨hnames ▸ hd.names, ?_⟩
  intro key b hb
  obtain ⟨v, hv, hb⟩ := hread key b hb
  exact Block.readable_of_read? (hd.of_mem hv) hb

/-- No name stands twice among the members that are written for the schema, for a block or for a
field, nor among the keys of blocks or of fields. -/
structure WrittenOnce (s : Schema) : Prop where
  root : ∃ ms, s.toJson = .object ms ∧ (Members.names ms).Nodup
  blocks : s.blocks.names.Nodup
  block : ∀ key b, (key, b) ∈ s.blocks → b.members.names.Nodup ∧ b.fields.names.Nodup
  field : ∀ key b, (key, b) ∈ s.blocks → ∀ name f, (name, f) ∈ b.fields → f.members.names.Nodup

theorem Readable.writtenOnce {s : Schema} (h : s.Readable) : s.WrittenOnce where
  root := by
    refine ⟨_, rfl, ?_⟩
    change memberNames.Nodup
    decide
  blocks := h.names
  block key b hb := ⟨Block.nodup_members (h.blocks key b hb), (h.blocks key b hb).names⟩
  field key b hb name f hf := Field.nodup_members ((h.blocks key b hb).fields name f hf)

end Schema

end FormCompiler
