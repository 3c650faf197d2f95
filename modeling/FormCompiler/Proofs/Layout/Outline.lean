import FormCompiler.Proofs.Layout.Answers

namespace FormCompiler

namespace Form

/-- The keys that declarations give a block, in order: a field's own key in its own block, and then
the key of its companion in the block of the companion, unless that key is closed. A companion
closes its key to those that follow. -/
def emittedKeys (form : Form) (block : String) :
    List String → List (String × String × Field) → List String
  | _, [] => []
  | closed, (own, key, f) :: ds =>
    (if own = block then [key] else []) ++
      match form.companionAt? block own f with
      | some code =>
        if code ∈ closed then emittedKeys form block closed ds
        else code :: emittedKeys form block (code :: closed) ds
      | none => emittedKeys form block closed ds

def keysOf (form : Form) (block : String) : List String :=
  form.emittedKeys block (form.declaredKeys block) form.declarations

def outline (form : Form) : Members (List String) :=
  form.blocks.map fun (block, _) => (block, form.keysOf block)

end Form

namespace Schema

def outline (s : Schema) : Members (List String) :=
  s.blocks.map fun (block, b) => (block, b.fields.names)

theorem outline_updateField (s : Schema) (block field : String) (f : Field → Field) :
    (s.updateField block field f).outline = s.outline := by
  simp only [outline, updateField, Members.update, List.map_map]
  apply List.map_congr_left
  rintro ⟨key, b⟩ -
  simp only [Function.comp_apply]
  split
  · exact congrArg (key, ·) (Members.names_update b.fields field f)
  · rfl

theorem outline_withAnswers (answers : List (PendingChoice × ChoiceList)) (s : Schema) :
    (s.withAnswers answers).outline = s.outline := by
  induction answers generalizing s with
  | nil => rfl
  | cons a answers ih =>
    have hstep := ih (s.updateField a.1.block a.1.field (·.withChoices a.2))
    rw [outline_updateField] at hstep
    exact hstep

end Schema

namespace Layout

theorem names_settled (form : Form) (o : CompilerOptions) (block : String) (closed : List String)
    (ds : List (String × String × Form.Field)) :
    (Placement.settled closed (ds.flatMap (placements form o block))).names =
      form.emittedKeys block closed ds := by
  induction ds generalizing closed with
  | nil => rfl
  | cons d ds ih =>
    obtain ⟨own, key, f⟩ := d
    rw [List.flatMap_cons, placements, Form.emittedKeys]
    cases hc : form.companionAt? block own f with
    | none => by_cases hb : own = block <;> simp [hb, Placement.settled, ih]
    | some code =>
      by_cases hb : own = block <;> by_cases hcode : code ∈ closed <;>
        simp [hb, hcode, Placement.settled, ih]

theorem outline_ofForm {form : Form} (h : form.Distinct) (o : CompilerOptions) :
    (ofForm form o).schema.outline = form.outline := by
  rw [Schema.outline, Form.outline, ofForm_blocks, List.map_map]
  apply List.map_congr_left
  rintro ⟨block, b⟩ -
  simp only [Function.comp_apply, fields_foldl_receive h]
  exact congrArg (block, ·) (names_settled form o block _ form.declarations)

theorem outline_withOptions {form : Form} (h : form.Distinct) (o : CompilerOptions)
    (options : List ChoiceList) : ((ofForm form o).withOptions options).outline = form.outline := by
  rw [← outline_ofForm h o]
  exact Schema.outline_withAnswers _ _

end Layout

namespace Form

theorem mem_keysOf (form : Form) (block key : String) :
    key ∈ form.keysOf block ↔ key ∈ form.declaredKeys block ∨
      ∃ own name f, (own, name, f) ∈ form.declarations ∧
        form.companionAt? block own f = some key := by
  have hoffers : key ∈ (Placement.offers (Layout.placed form {} block)).names ↔
      ∃ own name f, (own, name, f) ∈ form.declarations ∧
        form.companionAt? block own f = some key := by
    rw [Layout.placed, Layout.names_offers_flatMap, List.mem_filterMap]
    simp only [Prod.exists]
  rw [keysOf, ← Layout.names_settled form {} block, Placement.mem_names_settled,
    ← Layout.placed, Layout.names_declarations_placed, hoffers]
  tauto

theorem Distinct.keysOf_nodup {form : Form} (h : form.Distinct) (block : String) :
    (form.keysOf block).Nodup := by
  have hnames := Layout.names_declarations_placed form {} block
  rw [keysOf, ← Layout.names_settled form {} block]
  apply Placement.nodup_names_settled
  · rw [← Layout.placed, hnames]
    exact h.declaredKeys_nodup block
  · rw [← Layout.placed, hnames]
    exact List.Subset.refl _

end Form

variable {φ : Type} [DecidableEq φ]

theorem Form.outline_compile {form : Form} (h : form.Distinct) (o : CompilerOptions)
    (backend : Backend φ) (c : Cache φ) : (form.compile o backend c).2.outline = form.outline :=
  Layout.outline_withOptions h o _

/-- What is compiled has the blocks of the form in their order, each with the keys that a walk over
the declarations gives it, whatever the tables hold and however they fail. The walk gives no key
twice, and it gives all that are declared in the block or that bound fields ask for in it. -/
theorem compile_outline (document : Json) (h : document.Distinct) (o : CompilerOptions)
    (backend : Backend φ) (c : Cache φ) :
    (compile document o backend c).2.map Schema.outline =
        (Form.config? document).map (fun ms => (Form.ofMembers ms).outline) ∧
      ∀ ms block keys, Form.config? document = some ms →
        (block, keys) ∈ (Form.ofMembers ms).outline →
          keys.Nodup ∧ ∀ key, key ∈ keys ↔ key ∈ (Form.ofMembers ms).declaredKeys block ∨
            ∃ own name f, (own, name, f) ∈ (Form.ofMembers ms).declarations ∧
              (Form.ofMembers ms).companionAt? block own f = some key := by
  constructor
  · unfold compile
    cases hc : Form.config? document with
    | none => rfl
    | some ms =>
      have hd := Form.distinct_ofMembers (Form.distinct_config h hc)
      exact congrArg some (Form.outline_compile hd o backend _)
  · intro ms block keys hc hkeys
    obtain ⟨⟨block', b⟩, -, he⟩ := List.mem_map.mp hkeys
    cases he
    have hd := Form.distinct_ofMembers (Form.distinct_config h hc)
    exact ⟨hd.keysOf_nodup block, Form.mem_keysOf _ block⟩

def boundTo (block key : String) : Json :=
  .object [("bindBlock", .string block), ("bindCode", .string key)]

def crossing : Json :=
  .object [("config", .object [
    ("A", .object [("properties", .object [
      ("area", boundTo "B" "areaCode"),
      ("town", boundTo "B" "areaCode"),
      ("street", boundTo "C" "streetCode")])]),
    ("B", .object [("properties", .object [
      ("remark", boundTo "A" "remarkCode"),
      ("note", boundTo "A" "remarkCode"),
      ("areaCode", .object [])])])])]

theorem crossing_distinct : crossing.Distinct := by
  simp [crossing, boundTo, Json.Distinct, Json.DistinctMembers]

theorem compile_outline_crossing : crossing.Distinct ∧
    (compile crossing {} (fun _ _ _ => ⟨0, .ok .null⟩) (Cache.ofStrategies (φ := Nat) [] [])).2.map
      Schema.outline = some
        [("A", ["area", "town", "street", "streetCode", "remarkCode"]),
         ("B", ["remark", "note", "areaCode"])] :=
  ⟨crossing_distinct, (compile_outline crossing crossing_distinct {} _ _).1.trans rfl⟩

end FormCompiler
