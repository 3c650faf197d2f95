import FormCompiler.Proofs.Form.Reading
import FormCompiler.Proofs.Layout.Companions

namespace FormCompiler

namespace Form

def isRequired (j : Json) : Bool := ((j.get? "required").map Json.truthy).getD false

def Field.requiredKey? (key : String) (f : Field) : Option String :=
  if f.required then some key else none

def requiredKeys (form : Form) (block : String) : List String :=
  form.declarations.filterMap fun (own, key, f) =>
    if own = block then f.requiredKey? key else none

theorem required_of_read? {j : Json} {f : Field} (h : Field.read? j = some f) :
    f.required = isRequired j := by
  cases j with
  | object ms =>
    simp only [Field.read?, Option.ite_none_right_eq_some, Option.some_inj] at h
    obtain ⟨-, rfl⟩ := h
    rfl
  | _ => cases h

theorem Distinct.requiredKeys_eq {form : Form} (h : form.Distinct) (block : String) :
    form.requiredKeys block = ((form.blocks.lookup block).map fun b =>
      b.fields.filterMap fun (key, f) => f.requiredKey? key).getD [] :=
  filterMap_declarations (fun key f => f.requiredKey? key) form.blocks h.blocks block

theorem requiredKeys_sublist (form : Form) (block : String) :
    (form.requiredKeys block).Sublist (form.declaredKeys block) := by
  rw [requiredKeys, declaredKeys]
  induction form.declarations with
  | nil => exact .slnil
  | cons d ds ih =>
    obtain ⟨own, key, f⟩ := d
    rw [List.filterMap_cons, List.filterMap_cons]
    by_cases hb : own = block
    · cases hr : f.required with
      | true => simpa [hb, Field.requiredKey?, hr] using ih
      | false => simpa [hb, Field.requiredKey?, hr] using ih.cons key
    · simpa [hb] using ih

theorem Distinct.mem_requiredKeys_iff {form : Form} (h : form.Distinct) (block key : String) :
    key ∈ form.requiredKeys block ↔ ∃ f, form.field? block key = some f ∧ f.required = true := by
  rw [requiredKeys, List.mem_filterMap]
  constructor
  · rintro ⟨⟨own, key', f⟩, hd, hkey⟩
    simp only [Field.requiredKey?, Option.ite_none_right_eq_some, Option.some_inj] at hkey
    obtain ⟨rfl, hr, rfl⟩ := hkey
    exact ⟨f, (h.field?_eq_some_iff own key' f).mpr hd, hr⟩
  · rintro ⟨f, hf, hr⟩
    refine ⟨(block, key, f), (h.field?_eq_some_iff block key f).mp hf, ?_⟩
    simp [Field.requiredKey?, hr]

theorem filterMap_readFields {fields : Members Json} (h : (Json.object fields).Distinct) :
    ((Block.readFields fields).filterMap fun (key, f) => f.requiredKey? key) =
      Members.names (fields.filter fun (_, j) => isField j && isRequired j) := by
  have hnames : Members.names (fields.filter fun (_, j) => isField j && isRequired j) =
      fields.filterMap fun (key, j) => if isField j && isRequired j then some key else none := by
    rw [Members.names, ← List.filterMap_eq_map, List.filterMap_filter]
    rfl
  rw [hnames, Block.readFields, List.filterMap_filterMap]
  apply List.filterMap_congr
  rintro ⟨key, j⟩ hj
  have hread := read?_isSome (h.of_mem hj)
  cases hf : Field.read? j with
  | none =>
    rw [hf] at hread
    simp [hf, ← hread]
  | some f =>
    rw [hf] at hread
    simp [hf, ← hread, Field.requiredKey?, required_of_read? hf]

end Form

namespace Layout

theorem required_foldl_receive (form : Form) (o : CompilerOptions) (block : String)
    (ds : List (String × String × Form.Field)) (b : Schema.Block) :
    (ds.foldl (receive form o block) b).required = b.required ++ ds.filterMap fun (own, key, f) =>
      if own = block then f.requiredKey? key else none := by
  induction ds generalizing b with
  | nil => simp
  | cons d ds ih =>
    obtain ⟨own, key, f⟩ := d
    rw [List.foldl_cons, ih, receive, List.append_assoc, List.filterMap_cons]
    by_cases hb : own = block <;> cases hr : f.required <;> simp [hb, hr, Form.Field.requiredKey?]

theorem required_withOptions (form : Form) (o : CompilerOptions) (options : List ChoiceList)
    {block : String} {b : Schema.Block}
    (hb : (block, b) ∈ ((ofForm form o).withOptions options).blocks) :
    b.required = form.requiredKeys block := by
  obtain ⟨own, -, rfl⟩ := exists_received form o options hb
  exact required_foldl_receive form o block form.declarations _

theorem place_required (o : CompilerOptions) (l : Layout) (d : String × String × Form.Field) :
    (place o l d).schema.required = l.schema.required := by
  obtain ⟨own, key, f⟩ := d
  cases hf : f.companion? <;> simp [place, BoundPair.expand?, hf, placeBound, placePlain, declare,
    offer, updateBlock]

theorem schema_required (form : Form) (o : CompilerOptions) (options : List ChoiceList) :
    ((ofForm form o).withOptions options).required = [] := by
  -- only blocks hold fields, so that placing them leaves the list of the schema alone
  have hplaced : ∀ (ds : List (String × String × Form.Field)) (l : Layout),
      (ds.foldl (place o) l).schema.required = l.schema.required := by
    intro ds
    induction ds with
    | nil => exact fun _ => rfl
    | cons d ds ih =>
      intro l
      rw [List.foldl_cons, ih, place_required]
  have heq : (ofForm form o).withOptions options =
      (ofForm form o).schema.withAnswers ((ofForm form o).pending.zip options) := rfl
  rw [heq, Schema.withAnswers_eq, ofForm, hplaced]
  rfl

end Layout

variable {φ : Type} [DecidableEq φ]

/-- The required keys of a compiled block are those of the fields that are written as required and
can be read, in declaration order and none of them twice, and there is no other list of them. Under
each stands the entry of the field that is declared so and no companion. -/
theorem compile_required (document : Json) (h : document.Distinct) {ms : Members Json}
    (hc : Form.config? document = some ms) (o : CompilerOptions) (backend : Backend φ)
    (c : Cache φ) :
    ∃ schema, (compile document o backend c).2 = some schema ∧ schema.required = [] ∧
      ∀ block b, (block, b) ∈ schema.blocks →
        (∃ own fields, (block, .object own) ∈ ms ∧
          own.lookup "properties" = some (.object fields) ∧
          b.required =
            Members.names (fields.filter fun (_, j) => Form.isField j && Form.isRequired j)) ∧
        b.required.Nodup ∧
        (∀ key, key ∈ b.required ↔
          ∃ f, (Form.ofMembers ms).field? block key = some f ∧ f.required = true) ∧
        ∀ key ∈ b.required, ∃ f entry, (Form.ofMembers ms).field? block key = some f ∧
          b.fields.lookup key = some entry ∧
          f.StandsAs o ((Form.ofMembers ms).answers o backend (c.note (Form.notices ms)))
            block key entry ∧
          ∀ own name g, entry ≠ BoundPair.companionOf own name g o := by
  have hms := Form.distinct_config h hc
  have hd := Form.distinct_ofMembers hms
  refine ⟨((Form.ofMembers ms).compile o backend (c.note (Form.notices ms))).2, ?_, ?_, ?_⟩
  · simp only [compile, hc]
  · exact Layout.schema_required _ o _
  intro block b hb
  have hrequired := Layout.required_withOptions _ o _ hb
  obtain ⟨own, hown, -⟩ := Layout.exists_received _ o _ hb
  have hlookup := Members.lookup_of_mem hd.blocks hown
  refine ⟨?_, ?_, ?_, ?_⟩
  · obtain ⟨members, fields, hmem, -, -, hp, rfl⟩ := Form.exists_member_of_block hms hown
    refine ⟨members, fields, hmem, hp, ?_⟩
    rw [hrequired, hd.requiredKeys_eq, hlookup, Option.map_some, Option.getD_some]
    exact Form.filterMap_readFields ((hms.of_mem hmem).of_mem (Members.mem_of_lookup hp))
  · rw [hrequired]
    exact (hd.declaredKeys_nodup block).sublist (Form.requiredKeys_sublist _ block)
  · intro key
    rw [hrequired, hd.mem_requiredKeys_iff]
  · intro key hkey
    rw [hrequired, hd.mem_requiredKeys_iff] at hkey
    obtain ⟨f, hf, -⟩ := hkey
    obtain ⟨entry, he, hstands⟩ := Form.field?_compile_of_declared hd o backend
      (c.note (Form.notices ms)) hf
    have hblock :
        ((Form.ofMembers ms).compile o backend (c.note (Form.notices ms))).2.block? block = some b :=
      Form.block?_withOptions_of_mem hd hb
    rw [Schema.field?, hblock, Option.bind_some] at he
    exact ⟨f, entry, hf, he, hstands, hstands.ne_companion⟩

def demandingConfig : Members Json :=
  [("A", .object [("properties", .object [
      ("area", .object [("required", .bool true), ("bindBlock", .string "B"),
        ("bindCode", .string "areaCode")]),
      ("town", .object [("required", .string "yes"), ("bindBlock", .string "C"),
        ("bindCode", .string "townCode")])])]),
    ("B", .object [("properties", .object [
      ("note", .object [("required", .array [])]),
      ("areaCode", .object [("required", .string "")]),
      ("code", .object [("required", .bool true), ("enums", .string "1,2")])])])]

def demanding : Json := .object [("config", .object demandingConfig)]

theorem demanding_distinct : demanding.Distinct := by
  simp [demanding, demandingConfig, Json.Distinct, Json.DistinctItems, Json.DistinctMembers]

theorem compile_required_demanding : demanding.Distinct ∧
    Form.config? demanding = some demandingConfig ∧ ∃ schema a b,
      (compile demanding {} (fun _ _ _ => ⟨0, .ok .null⟩)
        (Cache.ofStrategies (φ := Nat) [] [])).2 = some schema ∧
      schema.block? "A" = some a ∧ schema.block? "B" = some b ∧
      "area" ∈ a.required ∧ "townCode" ∉ a.required ∧ b.required = ["note"] := by
  obtain ⟨schema, hs, -, hblocks⟩ := compile_required demanding demanding_distinct rfl {}
    (fun _ _ _ => ⟨0, .ok .null⟩) (Cache.ofStrategies (φ := Nat) [] [])
  have hblock : ∀ block ∈ ["A", "B"], (schema.block? block).isSome = true := by
    cases hs
    decide
  obtain ⟨a, ha⟩ := Option.isSome_iff_exists.mp (hblock "A" (by decide))
  obtain ⟨b, hb⟩ := Option.isSome_iff_exists.mp (hblock "B" (by decide))
  obtain ⟨-, -, hmem, -⟩ := hblocks "A" a (Members.mem_of_lookup ha)
  obtain ⟨⟨own, fields, hown, hp, hrequired⟩, -⟩ := hblocks "B" b (Members.mem_of_lookup hb)
  have hlookup := Members.lookup_of_mem
    (Form.distinct_config demanding_distinct rfl).names hown
  cases hlookup
  cases hp
  refine ⟨demanding_distinct, rfl, schema, a, b, hs, ha, hb, ?_, ?_, hrequired⟩
  · exact (hmem "area").mpr ⟨_, rfl, rfl⟩
  · intro htown
    obtain ⟨f, hf, -⟩ := (hmem "townCode").mp htown
    cases hf

end FormCompiler
