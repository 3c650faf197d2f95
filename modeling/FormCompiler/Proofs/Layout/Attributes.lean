import FormCompiler.Proofs.Form.Reading
import FormCompiler.Proofs.Layout.Answers

namespace FormCompiler

def Form.Block.passedOn (start : String) (ms : Members Json) : Members Json :=
  ms.filter fun (name, _) => name.startsWith start && !regularNames.contains name

namespace Layout

theorem attributes_foldl_receive (form : Form) (o : CompilerOptions) (block : String)
    (ds : List (String × String × Form.Field)) (b : Schema.Block) :
    (ds.foldl (receive form o block) b).attributes = b.attributes := by
  induction ds generalizing b with
  | nil => rfl
  | cons d ds ih => rw [List.foldl_cons, ih, receive]

theorem block?_ofForm (form : Form) (o : CompilerOptions) (block : String) :
    (ofForm form o).schema.block? block = (form.blocks.lookup block).map fun b =>
      form.declarations.foldl (receive form o block) (emptyBlock b o) := by
  rw [Schema.block?, ofForm_blocks]
  exact Members.lookup_mapValues form.blocks (fun block b =>
    form.declarations.foldl (receive form o block) (emptyBlock b o)) block

end Layout

namespace Form

variable {φ : Type} [DecidableEq φ]

theorem attributes_compile (form : Form) (o : CompilerOptions) (backend : Backend φ) (c : Cache φ)
    (block : String) :
    ((form.compile o backend c).2.block? block).map Schema.Block.attributes =
      (form.blocks.lookup block).map (·.extensions o.extensionPrefix) := by
  rw [form.compile_eq, Schema.block?_withAnswers, Layout.block?_ofForm, Option.map_map,
    Option.map_map]
  congr 1
  funext b
  exact Layout.attributes_foldl_receive form o block form.declarations (Layout.emptyBlock b o)

theorem extensions_ofOwn (own : Members Json) (start : String) :
    (Block.ofOwn own).extensions start = Block.passedOn start own := by
  rw [Block.extensions, Block.ofOwn, Members.startingWith, List.filter_filter, Block.passedOn]

theorem passedOn_erase (start : String) (own : Members Json) :
    Block.passedOn start (Members.erase own "properties") = Block.passedOn start own := by
  rw [Block.passedOn, Members.erase, List.filter_filter, Block.passedOn]
  apply List.filter_congr
  rintro ⟨name, j⟩ -
  by_cases hname : name = "properties" <;> simp [hname, Block.regularNames]

theorem passedOn_append_cons (start : String) (before after : Members Json) (p : Json) :
    Block.passedOn start (before ++ ("properties", p) :: after) =
      Block.passedOn start (before ++ after) := by
  simp [Block.passedOn, Block.regularNames]

end Form

variable {φ : Type} [DecidableEq φ]

/-- The attributes of a compiled block are the members whose names start with the prefix, but for
the regular ones, with their values. The last member takes the place of the `properties`, so that
the order is the declared one when at most one member stands after them. -/
theorem compile_attributes (document : Json) (h : document.Distinct) {ms : Members Json}
    (hc : Form.config? document = some ms) (o : CompilerOptions) (backend : Backend φ)
    (c : Cache φ) :
    ∃ schema, (compile document o backend c).2 = some schema ∧
      ∀ block own fields, (block, .object own) ∈ ms → block ≠ Form.titleKey →
        own.lookup "properties" = some (.object fields) →
        ∃ b before after, schema.block? block = some b ∧
          own = before ++ ("properties", .object fields) :: after ∧
          b.attributes = Form.Block.passedOn o.extensionPrefix
            (before ++ after.getLast?.toList ++ after.dropLast) ∧
          b.attributes.Perm (Form.Block.passedOn o.extensionPrefix own) ∧
          (after.length ≤ 1 → b.attributes = Form.Block.passedOn o.extensionPrefix own) := by
  have hms := Form.distinct_config h hc
  refine ⟨((Form.ofMembers ms).compile o backend (c.note (Form.notices ms))).2, ?_, ?_⟩
  · simp only [compile, hc]
  · intro block own fields hown hblock hp
    have hnodup := (hms.of_mem hown).names
    have hlookup := Form.lookup_blocks hms hown hblock hp
    have hattributes := Form.attributes_compile (Form.ofMembers ms) o backend
      (c.note (Form.notices ms)) block
    rw [hlookup, Option.map_some, Option.map_eq_some_iff] at hattributes
    obtain ⟨b, hb, hb'⟩ := hattributes
    have hpassed : b.attributes =
        Form.Block.passedOn o.extensionPrefix (Form.Block.ownMembers own) :=
      hb'.trans (Form.extensions_ofOwn _ _)
    obtain ⟨before, after, rfl, hbefore⟩ := Members.exists_append_of_lookup hp
    have hswap := Members.swapErase_append_cons before after "properties" (.object fields) hbefore
    refine ⟨b, before, after, hb, rfl, ?_, ?_, ?_⟩
    · rw [hpassed, Form.Block.ownMembers, hswap]
    · rw [hpassed, ← Form.passedOn_erase o.extensionPrefix (before ++ _)]
      exact (Members.perm_swapErase hnodup "properties").filter _
    · intro hafter
      rw [hpassed, Form.Block.ownMembers, hswap, Form.passedOn_append_cons]
      match after, hafter with
      | [], _ => simp
      | [last], _ => simp

def trailingBlock : Members Json :=
  [("properties", .object []), ("hrA", .ofNat 1), ("hrB", .ofNat 2)]

def trailing : Json := .object [("config", .object [("B", .object trailingBlock)])]

theorem trailing_distinct : trailing.Distinct := by
  simp [trailing, trailingBlock, Json.Distinct, Json.DistinctMembers, Json.ofNat]

theorem compile_attributes_trailing : trailing.Distinct ∧ ∃ schema b,
    (compile trailing {} (fun _ _ _ => ⟨0, .ok .null⟩) (Cache.ofStrategies (φ := Nat) [] [])).2 =
        some schema ∧
      schema.block? "B" = some b ∧
      b.attributes.Perm [("hrA", .ofNat 1), ("hrB", .ofNat 2)] := by
  obtain ⟨schema, hs, hattributes⟩ := compile_attributes trailing trailing_distinct rfl {}
    (fun _ _ _ => ⟨0, .ok .null⟩) (Cache.ofStrategies (φ := Nat) [] [])
  obtain ⟨b, before, after, hb, -, -, hperm, -⟩ :=
    hattributes "B" _ [] List.mem_cons_self (by simp [Form.titleKey]) rfl
  refine ⟨trailing_distinct, schema, b, hs, hb, ?_⟩
  simpa [trailingBlock, Form.Block.passedOn, Form.Block.regularNames] using hperm

/-- The attributes of a block need not stand in the order in which the block declares them. -/
theorem attributes_reordered : ∃ schema b,
    (compile trailing {} (fun _ _ _ => ⟨0, .ok .null⟩) (Cache.ofStrategies (φ := Nat) [] [])).2 =
        some schema ∧
      schema.block? "B" = some b ∧
      Form.Block.passedOn "hr" trailingBlock = [("hrA", .ofNat 1), ("hrB", .ofNat 2)] ∧
      b.attributes = [("hrB", .ofNat 2), ("hrA", .ofNat 1)] := by
  refine ⟨_, _, rfl, rfl, ?_, ?_⟩
  · simp [trailingBlock, Form.Block.passedOn, Form.Block.regularNames]
  · change Members.startingWith [("hrB", Json.ofNat 2), ("hrA", Json.ofNat 1)] "hr" = _
    simp [Members.startingWith]

end FormCompiler
