import FormCompiler.Schema.Layout
import FormCompiler.Proofs.Form.Distinct
import FormCompiler.Proofs.Layout.Placement

namespace FormCompiler

namespace Form

def companionBlock (form : Form) (own : String) (f : Field) : String :=
  match f.bindBlock with
  | some target => if form.blocks.has target then target else own
  | none => own

def companionAt? (form : Form) (block own : String) (f : Field) : Option String :=
  match f.bindBlock, f.bindCode with
  | some _, some code => if form.companionBlock own f = block then some code else none
  | _, _ => none

def Field.declaredEntry (f : Field) (o : CompilerOptions) : Schema.Field :=
  if f.companion?.isSome then BoundPair.primaryOf f o else f.withInline (f.synthesize o)

theorem Field.companion?_eq_some_iff (f : Field) (code : String) :
    f.companion? = some code ↔ (∃ target, f.bindBlock = some target) ∧ f.bindCode = some code := by
  unfold companion?
  cases f.bindBlock <;> simp

theorem companionAt?_eq (form : Form) (block own : String) (f : Field) :
    form.companionAt? block own f =
      f.companion?.bind fun code => if form.companionBlock own f = block then some code else none := by
  unfold companionAt? Field.companion?
  cases f.bindBlock with
  | none => rfl
  | some target => cases f.bindCode <;> rfl

theorem companionAt?_eq_some_iff (form : Form) (block own code : String) (f : Field) :
    form.companionAt? block own f = some code ↔
      f.companion? = some code ∧ form.companionBlock own f = block := by
  rw [companionAt?_eq, Option.bind_eq_some_iff]
  constructor
  · rintro ⟨code', hcode, h⟩
    split at h
    case isTrue hblock =>
      cases h
      exact ⟨hcode, hblock⟩
    case isFalse => cases h
  · rintro ⟨hcode, hblock⟩
    exact ⟨code, hcode, if_pos hblock⟩

end Form

namespace Layout

def placements (form : Form) (o : CompilerOptions) (block : String)
    (d : String × String × Form.Field) : List (Placement Schema.Field) :=
  (if d.1 = block then [.declared d.2.1 (d.2.2.declaredEntry o)] else []) ++
    match form.companionAt? block d.1 d.2.2 with
    | some code => [.offered code (BoundPair.companionOf d.1 d.2.1 d.2.2 o)]
    | none => []

def receive (form : Form) (o : CompilerOptions) (block : String) (b : Schema.Block)
    (d : String × String × Form.Field) : Schema.Block :=
  { b with
    required := b.required ++ if d.1 = block ∧ d.2.2.required then [d.2.1] else []
    fields := (placements form o block d).foldl Placement.apply b.fields }

theorem targetOf_eq (form : Form) (s : Schema) (own : String) (f : Form.Field)
    (hs : s.blocks.names = form.blocks.names) (hf : f.bindBlock.isSome = true) :
    targetOf s own (f.bindBlock.getD "") = form.companionBlock own f := by
  obtain ⟨target, ht⟩ := Option.isSome_iff_exists.mp hf
  simp only [targetOf, Form.companionBlock, ht, Option.getD_some, Members.has_congr hs]

theorem place_blocks (form : Form) (o : CompilerOptions) (l : Layout)
    (d : String × String × Form.Field) (hl : l.schema.blocks.names = form.blocks.names) :
    (place o l d).schema.blocks =
      l.schema.blocks.map fun (block, b) => (block, receive form o block b d) := by
  obtain ⟨own, key, f⟩ := d
  cases hf : f.companion? with
  | none =>
    have hat : ∀ block, form.companionAt? block own f = none := by
      intro block
      rw [form.companionAt?_eq, hf, Option.bind_none]
    simp only [place, BoundPair.expand?, hf, Option.map_none, placePlain, declare, updateBlock,
      Members.update]
    apply List.map_congr_left
    rintro ⟨block, b⟩ -
    simp only [receive, placements, hat, Form.Field.declaredEntry, hf, List.append_nil]
    by_cases hb : own = block
    · subst hb
      cases hr : f.required <;> simp [Placement.apply]
    · simp [hb, Ne.symm hb]
  | some code =>
    have hbound := ((f.companion?_eq_some_iff code).mp hf).1
    have hto := targetOf_eq form l.schema own f hl (Option.isSome_iff_exists.mpr hbound)
    simp only [place, BoundPair.expand?, hf, Option.map_some, placeBound, declare, offer,
      updateBlock, Members.update, List.map_map, hto]
    apply List.map_congr_left
    rintro ⟨block, b⟩ -
    have hat := form.companionAt?_eq block own f
    rw [hf, Option.bind_some] at hat
    simp only [receive, placements, hat, Form.Field.declaredEntry, hf, Function.comp_apply,
      Option.isSome_some, ↓reduceIte]
    -- the field and its companion may go to one block or to two, or the block is neither of them
    by_cases hb : own = block
    · subst hb
      by_cases hc : form.companionBlock own f = own
      · cases hr : f.required <;> simp [hc, Placement.apply]
      · cases hr : f.required <;> simp [hc, Ne.symm hc, Placement.apply]
    · by_cases hc : form.companionBlock own f = block
      · simp [hb, Ne.symm hb, hc, Placement.apply]
      · simp [hb, Ne.symm hb, hc, Ne.symm hc]

theorem foldl_place_blocks (form : Form) (o : CompilerOptions)
    (ds : List (String × String × Form.Field)) (l : Layout)
    (hl : l.schema.blocks.names = form.blocks.names) :
    (ds.foldl (place o) l).schema.blocks =
      l.schema.blocks.map fun (block, b) => (block, ds.foldl (receive form o block) b) := by
  induction ds generalizing l with
  | nil => simp
  | cons d ds ih =>
    have hstep := place_blocks form o l d hl
    have hnames : (place o l d).schema.blocks.names = form.blocks.names := by
      rw [hstep, ← hl]
      simp [Members.names, Function.comp_def]
    rw [List.foldl_cons, ih _ hnames, hstep, List.map_map]
    rfl

theorem foldl_receive_fields (form : Form) (o : CompilerOptions) (block : String)
    (ds : List (String × String × Form.Field)) (b : Schema.Block) :
    (ds.foldl (receive form o block) b).fields =
      (ds.flatMap (placements form o block)).foldl Placement.apply b.fields := by
  induction ds generalizing b with
  | nil => rfl
  | cons d ds ih =>
    rw [List.foldl_cons, ih, List.flatMap_cons, List.foldl_append]
    rfl

theorem ofForm_blocks (form : Form) (o : CompilerOptions) :
    (ofForm form o).schema.blocks = form.blocks.map fun (block, b) =>
      (block, form.declarations.foldl (receive form o block) (emptyBlock b o)) := by
  have hnames : (emptySchema form o).blocks.names = form.blocks.names := by
    simp [emptySchema, Members.names, Function.comp_def]
  rw [ofForm, foldl_place_blocks form o _ _ hnames]
  simp [emptySchema, Function.comp_def]

theorem names_declarations_flatMap (form : Form) (o : CompilerOptions) (block : String)
    (ds : List (String × String × Form.Field)) :
    (Placement.declarations (ds.flatMap (placements form o block))).names =
      ds.filterMap fun (own, key, _) => if own = block then some key else none := by
  induction ds with
  | nil => rfl
  | cons d ds ih =>
    obtain ⟨own, key, f⟩ := d
    rw [List.flatMap_cons, placements, Placement.declarations_append, Members.names_append, ih]
    by_cases hb : own = block <;> cases form.companionAt? block own f <;>
      simp [hb, Placement.declarations]

theorem offers_placements (form : Form) (o : CompilerOptions) (block own key : String)
    (f : Form.Field) :
    Placement.offers (placements form o block (own, key, f)) =
      match form.companionAt? block own f with
      | some code => [(code, BoundPair.companionOf own key f o)]
      | none => [] := by
  rw [placements, Placement.offers_append]
  by_cases hb : own = block <;> cases form.companionAt? block own f <;>
    simp [hb, Placement.offers]

theorem names_offers_flatMap (form : Form) (o : CompilerOptions) (block : String)
    (ds : List (String × String × Form.Field)) :
    (Placement.offers (ds.flatMap (placements form o block))).names =
      ds.filterMap fun (own, _, f) => form.companionAt? block own f := by
  induction ds with
  | nil => rfl
  | cons d ds ih =>
    obtain ⟨own, key, f⟩ := d
    rw [List.flatMap_cons, Placement.offers_append, offers_placements, Members.names_append, ih,
      List.filterMap_cons]
    cases hc : form.companionAt? block own f <;> simp [hc]

def placed (form : Form) (o : CompilerOptions) (block : String) : List (Placement Schema.Field) :=
  form.declarations.flatMap (placements form o block)

theorem names_declarations_placed (form : Form) (o : CompilerOptions) (block : String) :
    (Placement.declarations (placed form o block)).names = form.declaredKeys block :=
  names_declarations_flatMap form o block form.declarations

theorem fields_foldl_receive {form : Form} (h : form.Distinct) (o : CompilerOptions)
    (block : String) (b : Form.Block) :
    (form.declarations.foldl (receive form o block) (emptyBlock b o)).fields =
      Placement.settled (form.declaredKeys block) (placed form o block) := by
  have hnodup : (Placement.declarations (placed form o block)).names.Nodup := by
    rw [names_declarations_placed]
    exact h.declaredKeys_nodup block
  rw [foldl_receive_fields, ← names_declarations_placed form o]
  exact Placement.foldl_apply_nil _ hnodup

end Layout

end FormCompiler
