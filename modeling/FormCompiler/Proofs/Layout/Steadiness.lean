import FormCompiler.Proofs.Layout.Companions
import FormCompiler.Proofs.Resolution.History

namespace FormCompiler

variable {φ : Type}

def Supply.schema (w : Supply φ) (o : CompilerOptions) (form : Form) : Schema :=
  (Layout.ofForm form o).withOptions
    (((Layout.ofForm form o).pending.map (·.source)).map w.choices)

theorem Supply.Alike.schema_eq {w w' : Supply φ} (h : w.Alike w') (o : CompilerOptions)
    (form : Form) : w.schema o form = w'.schema o form := by
  rw [schema, schema, h.choices_eq]

namespace Form

variable {form : Form} {o : CompilerOptions} {w : Supply φ} {c c' : Cache φ}

theorem Field.optionSource?_of_tableSource? {f : Field} {source : OptionSource}
    (h : f.tableSource? = some source) : f.optionSource? = some source := by
  unfold Field.tableSource? at h
  split at h
  · cases h
  · exact h

theorem Field.withInline_eq {f : Field} (h : f.tableSource? = none) (w : Supply φ)
    (entry : Schema.Field) :
    f.withInline entry = (f.optionSource?.map w.choices).elim entry entry.withChoices := by
  unfold Field.tableSource? at h
  unfold Field.withInline
  split at h
  case h_1 choices hs =>
    rw [hs]
    rfl
  case h_2 =>
    rw [h]
    rfl

variable [DecidableEq φ]

theorem CompilesTo.eq_of_steady {schema : Schema} (h : form.CompilesTo o w.backend c c' schema)
    (hw : w.Alike w) (hc : c.Steady w) :
    schema = w.schema o form := by
  obtain ⟨options, hoptions, rfl⟩ := h
  rw [Resolution.options_of_turns hw (hc.note _) hoptions, Supply.schema]

theorem answers_of_steady (form : Form) (o : CompilerOptions) (hw : w.Alike w) (hc : c.Steady w) :
    form.answers o w.backend c =
      (Layout.ofForm form o).pending.map fun p => (p, w.choices p.source) := by
  rw [answers, Resolution.resolveAll_eq hw (hc.note _), List.map_map]
  exact List.map_prod_left_eq_zip.symm

theorem field?_compile_of_steady (h : form.Distinct) (o : CompilerOptions) (hw : w.Alike w)
    (hc : c.Steady w) {block key : String} {f : Field} (hf : form.field? block key = some f)
    (hbound : f.companion? = none) :
    (form.compile o w.backend c).2.field? block key =
      some ((f.optionSource?.map w.choices).elim (f.synthesize o)
        (f.synthesize o).withChoices) := by
  obtain ⟨entry, he, hstands⟩ := field?_compile_of_declared h o w.backend c hf
  rw [he]
  congr 1
  unfold Field.StandsAs at hstands
  split at hstands
  case h_1 hcode =>
    rw [hbound] at hcode
    cases hcode
  case h_2 hs => rw [hstands, Field.withInline_eq hs w]
  case h_3 source _ hs =>
    obtain ⟨choices, hanswer, rfl⟩ := hstands
    rw [answers_of_steady form o hw hc] at hanswer
    obtain ⟨p, -, hp⟩ := List.mem_map.mp hanswer
    cases hp
    rw [Field.optionSource?_of_tableSource? hs]
    rfl

end Form

variable [DecidableEq φ]

theorem CompilesTo.eq_of_steady {document : Json} {o : CompilerOptions} {w : Supply φ}
    {c c' : Cache φ} {result : Option Schema} (h : CompilesTo document o w.backend c c' result)
    (hw : w.Alike w) (hc : c.Steady w) :
    result = (Form.config? document).map fun ms => w.schema o (Form.ofMembers ms) := by
  unfold CompilesTo at h
  split at h
  case h_1 hnone =>
    rw [h.2, hnone]
    rfl
  case h_2 ms hms =>
    obtain ⟨schema, rfl, hschema⟩ := h
    rw [hms, hschema.eq_of_steady hw (hc.note _)]
    rfl

/-- When every strategy has one outcome and every function one reply to the same parameters, a
compile gives the same schema however long loads and calls take, in whatever order the fields are
polled and whatever the cache has been through; so does the next compile. The entry of a field that
is not bound is its synthesis with the options that the field resolves to on its own. -/
theorem compile_steady (document : Json) (h : document.Distinct) (o : CompilerOptions)
    {w w' : Supply φ} (hw : w.Alike w') {c c' : Cache φ} {tasks tasks' : List Task}
    (hc : w.Reaches c tasks) (hc' : w'.Reaches c' tasks') :
    let compiled := compile document o w.backend c
    CompilesTo document o w.backend c compiled.1 compiled.2 ∧ w.Reaches compiled.1 tasks ∧
      (∀ d result, CompilesTo document o w'.backend c' d result →
        result = compiled.2 ∧ w'.Reaches d tasks') ∧
      (compile document o w.backend compiled.1).2 = compiled.2 ∧
      ∀ ms, Form.config? document = some ms → ∃ schema, compiled.2 = some schema ∧
        ∀ block key f, (Form.ofMembers ms).field? block key = some f → f.companion? = none →
          schema.field? block key = some ((Resolution.resolveField w'.backend c' f).2.elim
            (f.synthesize o) (f.synthesize o).withChoices) := by
  intro compiled
  -- both results are the schema of the supply, and alike supplies have the same
  have hcompiled : CompilesTo document o w.backend c compiled.1 compiled.2 :=
    compilesTo_compile document o w.backend c
  have hreached := hc.compiled hcompiled
  have hsteady := (hc.steady hw.constant).1
  have hsteady' := (hc'.steady hw.symm.constant).1
  have hresult := hcompiled.eq_of_steady hw.left hsteady
  refine ⟨hcompiled, hreached, ?_, ?_, ?_⟩
  · intro d result hd
    refine ⟨?_, hc'.compiled hd⟩
    rw [hd.eq_of_steady hw.symm.left hsteady', hresult, funext (hw.schema_eq o)]
  · have hagain := compilesTo_compile document o w.backend compiled.1
    rw [hagain.eq_of_steady hw.left (hreached.steady hw.constant).1, hresult]
  · intro ms hms
    have hd := Form.distinct_ofMembers (Form.distinct_config h hms)
    refine ⟨((Form.ofMembers ms).compile o w.backend (c.note (Form.notices ms))).2, ?_, ?_⟩
    · simp only [compiled, compile, hms]
    · intro block key f hf hbound
      rw [Resolution.resolveField_eq hw.symm.left hsteady', ← hw.choices_eq]
      exact Form.field?_compile_of_steady hd o hw.left (hsteady.note _) hf hbound

def regionSupply (delay : Nat) : Supply Nat where
  dictionaries := [
    { name := "dictionary"
      attempt n := {
        delay := .polls (delay + n)
        outcome := .ok (.object [("sexDict", .array [.object [("code", .string "1")]])]) } }]
  lookups := [
    { name := "remote", attempt _ := { delay := .background, outcome := .error ⟨["refused"]⟩ } },
    { name := "local"
      attempt n := {
        delay := .polls (delay + n)
        outcome := .ok (.group [("regions", .function 0)]) } }]
  backend _ n _ := ⟨delay + n, .ok (.object [("code", .ofNat 0), ("data", .array [])])⟩

theorem regionSupply_alike (delay delay' : Nat) :
    (regionSupply delay).Alike (regionSupply delay') where
  dictionaries := .cons (fun _ _ => rfl) .nil
  lookups := .cons (fun _ _ => rfl) (.cons (fun _ _ => rfl) .nil)
  replies _ _ _ _ := rfl

theorem compile_steady_loading :
    let w := regionSupply 0
    let w' := regionSupply 2
    let start := Cache.ofStrategies w.dictionaries w.lookups
    let start' := Cache.ofStrategies w'.dictionaries w'.lookups
    let c' := ((Task.dictionary .fresh).poll w'.backend 1 start').1
    choosing.Distinct ∧ w.Alike w' ∧ w.Reaches start [] ∧ w'.Reaches c' [] ∧
      c'.dictionaries.state = .loading 0 ∧
      ∃ schema, (compile choosing {} w.backend start).2 = some schema ∧
        (compile choosing {} w'.backend c').2 = some schema ∧
        (schema.field? "A" "sex").bind (·.codes) = some [.string "1"] := by
  intro w w' start start' c'
  have halike := regionSupply_alike 0 2
  have hstart : w.Reaches start [] := .init
  have hbegun : w'.Reaches start' [.dictionary .fresh] :=
    .begin [.dictionary .fresh] (by simp [Task.Fresh]) .init
  have hloading : w'.Reaches c' [] := (hbegun.poll [] [] _ 1).drop [] [] _
  refine ⟨choosing_distinct, halike, hstart, hloading, rfl, ?_⟩
  obtain ⟨-, -, hsame, -, hentries⟩ :=
    compile_steady choosing choosing_distinct {} halike hstart hloading
  obtain ⟨schema, hschema, hentry⟩ := hentries _ rfl
  have hsex := hentry "A" "sex" _ rfl rfl
  have hsteady := (hloading.steady halike.symm.constant).1
  rw [Resolution.resolveField_eq halike.symm.left hsteady] at hsex
  refine ⟨schema, hschema, ?_, ?_⟩
  · rw [← hschema]
    exact (hsame _ _ (compilesTo_compile choosing {} w'.backend c')).1
  · rw [hsex]
    rfl

end FormCompiler
