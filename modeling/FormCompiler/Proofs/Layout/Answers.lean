import FormCompiler.Compile
import FormCompiler.Proofs.Cache.Join
import FormCompiler.Proofs.Layout.Blocks

namespace FormCompiler

namespace Form

def Field.tableSource? (f : Field) : Option OptionSource :=
  match f.optionSource? with
  | some (.inline _) => none
  | source => source

variable {φ : Type} [DecidableEq φ]

def answers (form : Form) (o : CompilerOptions) (backend : Backend φ) (c : Cache φ) :
    List (PendingChoice × ChoiceList) :=
  let layout := Layout.ofForm form o
  layout.pending.zip (Resolution.resolveAll backend (c.note layout.notices)
    (layout.pending.map (·.source))).2

theorem length_resolved (form : Form) (o : CompilerOptions) (backend : Backend φ) (c : Cache φ) :
    (Resolution.resolveAll backend (c.note (Layout.ofForm form o).notices)
      ((Layout.ofForm form o).pending.map (·.source))).2.length =
        (Layout.ofForm form o).pending.length := by
  simp [Resolution.resolveAll, Activity.length_finish]

end Form

namespace Schema

def Field.answered (block key : String) (answers : List (PendingChoice × ChoiceList))
    (entry : Field) : Field :=
  answers.foldl (fun entry (p, choices) =>
    if p.block = block ∧ p.field = key then entry.withChoices choices else entry) entry

theorem Field.answered_cases (block key : String) (answers : List (PendingChoice × ChoiceList))
    (entry : Field) :
    ((∀ a ∈ answers, ¬ (a.1.block = block ∧ a.1.field = key)) ∧
        entry.answered block key answers = entry) ∨
      ∃ a ∈ answers, (a.1.block = block ∧ a.1.field = key) ∧
        entry.answered block key answers = entry.withChoices a.2 := by
  induction answers generalizing entry with
  | nil => exact .inl ⟨by simp, rfl⟩
  | cons a answers ih =>
    by_cases ha : a.1.block = block ∧ a.1.field = key
    · have hstep : entry.answered block key (a :: answers) =
          (entry.withChoices a.2).answered block key answers := by
        simp [answered, ha]
      rw [hstep]
      right
      rcases ih (entry.withChoices a.2) with ⟨-, he⟩ | ⟨a', hmem, hplace, he⟩
      · exact ⟨a, List.mem_cons_self, ha, he⟩
      · exact ⟨a', List.mem_cons_of_mem _ hmem, hplace, he⟩
    · have hstep : entry.answered block key (a :: answers) =
          entry.answered block key answers := by
        simp [answered, ha]
      rw [hstep]
      rcases ih entry with ⟨hnone, he⟩ | ⟨a', hmem, hplace, he⟩
      · left
        exact ⟨List.forall_mem_cons.mpr ⟨ha, hnone⟩, he⟩
      · exact .inr ⟨a', List.mem_cons_of_mem _ hmem, hplace, he⟩

theorem field?_updateField (s : Schema) (block field block' field' : String) (f : Field → Field) :
    (s.updateField block field f).field? block' field' =
      (s.field? block' field').map fun entry =>
        if block = block' ∧ field = field' then f entry else entry := by
  simp only [field?, block?, updateField, Members.lookup_update]
  cases s.blocks.lookup block' with
  | none => rfl
  | some b =>
    by_cases hb : block' = block
    · subst hb
      simp [Members.lookup_update, eq_comm]
    · simp [hb, Ne.symm hb]

def withAnswers (s : Schema) (answers : List (PendingChoice × ChoiceList)) : Schema :=
  answers.foldl (fun s (p, choices) => s.updateField p.block p.field (·.withChoices choices)) s

theorem field?_withAnswers (answers : List (PendingChoice × ChoiceList)) (s : Schema)
    (block key : String) :
    (s.withAnswers answers).field? block key =
      (s.field? block key).map (·.answered block key answers) := by
  induction answers generalizing s with
  | nil => simp [withAnswers, Field.answered]
  | cons a answers ih =>
    have hstep := ih (s.updateField a.1.block a.1.field (·.withChoices a.2))
    rw [field?_updateField, Option.map_map] at hstep
    exact hstep

def Block.answered (block : String) (answers : List (PendingChoice × ChoiceList)) (b : Block) :
    Block :=
  { b with fields := b.fields.map fun (key, entry) => (key, entry.answered block key answers) }

theorem withAnswers_eq (answers : List (PendingChoice × ChoiceList)) (s : Schema) :
    s.withAnswers answers =
      { s with blocks := s.blocks.map fun (block, b) => (block, b.answered block answers) } := by
  induction answers generalizing s with
  | nil => simp [withAnswers, Block.answered, Field.answered]
  | cons a answers ih =>
    have hstep := ih (s.updateField a.1.block a.1.field (·.withChoices a.2))
    refine hstep.trans ?_
    simp only [updateField, Members.update, List.map_map]
    congr 1
    apply List.map_congr_left
    rintro ⟨block, b⟩ -
    by_cases hb : block = a.1.block
    · subst hb
      simp only [Function.comp_apply, ↓reduceIte, Block.answered, List.map_map]
      congr 2
      apply List.map_congr_left
      rintro ⟨key, entry⟩ -
      by_cases hk : key = a.1.field <;> simp [Field.answered, hk, eq_comm]
    · simp [hb, Ne.symm hb, Block.answered, Field.answered]

theorem block?_withAnswers (answers : List (PendingChoice × ChoiceList)) (s : Schema)
    (block : String) :
    (s.withAnswers answers).block? block = (s.block? block).map (·.answered block answers) := by
  rw [withAnswers_eq]
  exact Members.lookup_mapValues s.blocks (fun block b => b.answered block answers) block

end Schema

namespace Layout

theorem exists_answer {l : Layout} {options : List ChoiceList}
    (h : options.length = l.pending.length) {p : PendingChoice} (hp : p ∈ l.pending) :
    ∃ choices, (p, choices) ∈ l.pending.zip options := by
  obtain ⟨i, hi, rfl⟩ := List.mem_iff_getElem.mp hp
  refine ⟨_, List.mem_iff_getElem.mpr ⟨i, ?_, List.getElem_zip⟩⟩
  rw [List.length_zip, h]
  omega

theorem place_pending (o : CompilerOptions) (l : Layout) (d : String × String × Form.Field) :
    (place o l d).pending = l.pending ++
      if d.2.2.companion?.isSome then [] else pendingOf d.1 d.2.1 d.2.2 := by
  obtain ⟨own, key, f⟩ := d
  cases hf : f.companion? <;> simp [place, BoundPair.expand?, hf, placeBound, placePlain]

theorem foldl_place_pending (o : CompilerOptions) (ds : List (String × String × Form.Field))
    (l : Layout) :
    (ds.foldl (place o) l).pending = l.pending ++ ds.flatMap fun d =>
      if d.2.2.companion?.isSome then [] else pendingOf d.1 d.2.1 d.2.2 := by
  induction ds generalizing l with
  | nil => simp
  | cons d ds ih => rw [List.foldl_cons, ih, place_pending, List.flatMap_cons, List.append_assoc]

theorem mem_pendingOf (block key : String) (f : Form.Field) (p : PendingChoice) :
    p ∈ pendingOf block key f ↔
      p.block = block ∧ p.field = key ∧ f.tableSource? = some p.source := by
  obtain ⟨block', key', source⟩ := p
  unfold pendingOf Form.Field.tableSource?
  cases f.optionSource? with
  | none => simp
  | some source' => cases source' <;> simp [eq_comm]

theorem mem_pending_iff (form : Form) (o : CompilerOptions) (p : PendingChoice) :
    p ∈ (ofForm form o).pending ↔ ∃ f, (p.block, p.field, f) ∈ form.declarations ∧
      f.companion? = none ∧ f.tableSource? = some p.source := by
  rw [ofForm, foldl_place_pending, List.nil_append, List.mem_flatMap]
  constructor
  · rintro ⟨⟨own, key, f⟩, hd, hp⟩
    split at hp
    · cases hp
    case isFalse hf =>
      obtain ⟨rfl, rfl, hs⟩ := (mem_pendingOf own key f p).mp hp
      exact ⟨f, hd, by simpa using hf, hs⟩
  · rintro ⟨f, hd, hf, hs⟩
    refine ⟨_, hd, ?_⟩
    simpa [hf] using (mem_pendingOf p.block p.field f p).mpr ⟨rfl, rfl, hs⟩

theorem exists_received (form : Form) (o : CompilerOptions) (options : List ChoiceList)
    {block : String} {b : Schema.Block}
    (hb : (block, b) ∈ ((ofForm form o).withOptions options).blocks) :
    ∃ own, (block, own) ∈ form.blocks ∧
      b = (form.declarations.foldl (receive form o block) (emptyBlock own o)).answered block
        ((ofForm form o).pending.zip options) := by
  have heq : (ofForm form o).withOptions options =
      (ofForm form o).schema.withAnswers ((ofForm form o).pending.zip options) := rfl
  rw [heq, Schema.withAnswers_eq, ofForm_blocks, List.map_map] at hb
  obtain ⟨⟨block', own⟩, hown, he⟩ := List.mem_map.mp hb
  cases he
  exact ⟨own, hown, rfl⟩

end Layout

theorem Form.compile_eq {φ : Type} [DecidableEq φ] (form : Form) (o : CompilerOptions)
    (backend : Backend φ) (c : Cache φ) :
    (form.compile o backend c).2 =
      (Layout.ofForm form o).schema.withAnswers (form.answers o backend c) := rfl

end FormCompiler
