import FormCompiler.Proofs.Layout.Answers
import FormCompiler.Proofs.Layout.Orders

namespace FormCompiler

namespace Schema

def Field.blank (f : Field) : Field :=
  { f with codes := f.codes.map fun _ => [], labels := f.labels.map fun _ => [] }

def blankAt (places : String → String → Bool) (s : Schema) : Schema :=
  { s with
    blocks := s.blocks.map fun (block, b) =>
      (block, { b with
        fields := b.fields.map fun (key, f) => (key, if places block key then f.blank else f) }) }

theorem Field.blank_withChoices (f : Field) (l : ChoiceList) :
    (f.withChoices l).blank = f.withChoices .empty := rfl

end Schema

namespace Form

def waits (form : Form) (block key : String) : Bool :=
  match form.field? block key with
  | some f => f.companion?.isNone && f.tableSource?.isSome
  | none => false

theorem Distinct.waits_iff {form : Form} (h : form.Distinct) (o : CompilerOptions)
    (block key : String) :
    form.waits block key = true ↔
      ∃ p ∈ (Layout.ofForm form o).pending, p.block = block ∧ p.field = key := by
  unfold waits
  constructor
  · intro hw
    split at hw
    case h_1 f hf =>
      obtain ⟨hc, hs⟩ := (Bool.and_eq_true _ _).mp hw
      obtain ⟨source, hs⟩ := Option.isSome_iff_exists.mp hs
      refine ⟨⟨block, key, source⟩, ?_, rfl, rfl⟩
      rw [Layout.mem_pending_iff]
      exact ⟨f, (h.field?_eq_some_iff block key f).mp hf, Option.isNone_iff_eq_none.mp hc, hs⟩
    case h_2 => cases hw
  · rintro ⟨p, hp, rfl, rfl⟩
    obtain ⟨f, hd, hc, hs⟩ := (Layout.mem_pending_iff form o p).mp hp
    rw [(h.field?_eq_some_iff p.block p.field f).mpr hd]
    simp [hc, hs]

theorem Distinct.blank_answered {form : Form} (h : form.Distinct) {o : CompilerOptions}
    {options : List ChoiceList} (hlength : options.length = (Layout.ofForm form o).pending.length)
    (block key : String) (entry : Schema.Field) :
    (if form.waits block key then
        (entry.answered block key ((Layout.ofForm form o).pending.zip options)).blank
      else entry.answered block key ((Layout.ofForm form o).pending.zip options)) =
      if form.waits block key then entry.withChoices .empty else entry := by
  rcases entry.answered_cases block key ((Layout.ofForm form o).pending.zip options) with
    ⟨hnone, he⟩ | ⟨a, ha, hplace, he⟩
  · -- every waiting field has an answer, since there are as many answers as waiting fields
    have hwaits : form.waits block key = false := by
      rw [Bool.eq_false_iff, Ne, h.waits_iff o]
      rintro ⟨p, hp, hplace⟩
      obtain ⟨choices, hanswer⟩ := Layout.exists_answer hlength hp
      exact hnone _ hanswer hplace
    rw [he, hwaits]
    rfl
  · have hwaits : form.waits block key = true :=
      (h.waits_iff o block key).mpr ⟨a.1, (List.of_mem_zip ha).1, hplace⟩
    rw [he, hwaits, if_pos rfl, if_pos rfl, Schema.Field.blank_withChoices]

theorem Distinct.blankAt_withOptions {form : Form} (h : form.Distinct) {o : CompilerOptions}
    {options : List ChoiceList}
    (hlength : options.length = (Layout.ofForm form o).pending.length) :
    ((Layout.ofForm form o).withOptions options).blankAt form.waits =
      { (Layout.ofForm form o).schema with
        blocks := (Layout.ofForm form o).schema.blocks.map fun (block, b) =>
          (block, { b with
            fields := b.fields.map fun (key, entry) =>
              (key, if form.waits block key then entry.withChoices .empty else entry) }) } := by
  have hanswers : (Layout.ofForm form o).withOptions options =
      (Layout.ofForm form o).schema.withAnswers ((Layout.ofForm form o).pending.zip options) := rfl
  rw [hanswers, Schema.withAnswers_eq, Schema.blankAt]
  simp only [List.map_map]
  congr 1
  apply List.map_congr_left
  rintro ⟨block, b⟩ -
  simp only [Function.comp_apply, Schema.Block.answered, List.map_map]
  congr 2
  apply List.map_congr_left
  rintro ⟨key, entry⟩ -
  exact congrArg (key, ·) (h.blank_answered hlength block key entry)

end Form

def waitsIn (document : Json) (block key : String) : Bool :=
  match Form.config? document with
  | some ms => (Form.ofMembers ms).waits block key
  | none => false

variable {φ ψ : Type} [DecidableEq φ] [DecidableEq ψ]

/-- Whatever two caches hold, how their loads and calls turn out, how long they take and in which
order the fields are polled: two compiles of a document have both no schema, or schemas that differ
only in the contents of the option lists of fields that are not bound and ask a table for options.
The compile that polls in rounds is one of those. -/
theorem compile_independent (document : Json) (h : document.Distinct) (o : CompilerOptions)
    (backend : Backend φ) (backend' : Backend ψ) (c : Cache φ) (c' : Cache ψ) :
    (CompilesTo document o backend c (compile document o backend c).1
        (compile document o backend c).2) ∧
      ∀ d d' result result', CompilesTo document o backend c d result →
        CompilesTo document o backend' c' d' result' →
        result.map (Schema.blankAt (waitsIn document)) =
          result'.map (Schema.blankAt (waitsIn document)) := by
  refine ⟨compilesTo_compile document o backend c, ?_⟩
  intro d d' result result' hr hr'
  cases hc : Form.config? document with
  | none =>
    simp only [CompilesTo, hc] at hr hr'
    rw [hr.2, hr'.2]
  | some ms =>
    simp only [CompilesTo, hc] at hr hr'
    obtain ⟨_, rfl, options, hoptions, rfl⟩ := hr
    obtain ⟨_, rfl, options', hoptions', rfl⟩ := hr'
    have hd := Form.distinct_ofMembers (Form.distinct_config h hc)
    have hwaits : waitsIn document = (Form.ofMembers ms).waits := by
      funext block key
      simp only [waitsIn, hc]
    rw [Option.map_some, Option.map_some, hwaits, hd.blankAt_withOptions hoptions.length,
      hd.blankAt_withOptions hoptions'.length]

theorem compile_independent_choosing :
    let silent : Backend Nat := fun _ _ _ => ⟨0, .error ⟨["refused"]⟩⟩
    let bare : Cache Nat := .ofStrategies [] []
    let filled : Cache Nat := .ofStrategies [{
      name := "dictionary"
      attempt _ := {
        delay := .polls 3
        outcome := .ok (.object [("sexDict", .array [.object [("code", .string "1")]])]) } }] []
    choosing.Distinct ∧ waitsIn choosing "A" "sex" = true ∧ waitsIn choosing "A" "note" = false ∧
      (compile choosing {} silent bare).2.map (Schema.blankAt (waitsIn choosing)) =
        (compile choosing {} silent filled).2.map (Schema.blankAt (waitsIn choosing)) := by
  intro silent bare filled
  obtain ⟨hbare, hsame⟩ := compile_independent choosing choosing_distinct {} silent silent bare
    filled
  exact ⟨choosing_distinct, rfl, rfl,
    hsame _ _ _ _ hbare (compilesTo_compile choosing {} silent filled)⟩

end FormCompiler
