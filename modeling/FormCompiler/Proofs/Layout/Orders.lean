import FormCompiler.Compile
import FormCompiler.Proofs.Cache.Trace
import FormCompiler.Proofs.Json.Distinct

namespace FormCompiler

variable {φ : Type}

def awaiting (document : Json) (o : CompilerOptions) (c : Cache φ) :
    Cache φ × List (Resolution ⊕ ChoiceList) :=
  match Form.config? document with
  | none => (c.note [.noConfig], [])
  | some ms =>
    let layout := Layout.ofForm (Form.ofMembers ms) o
    ((c.note (Form.notices ms)).note layout.notices,
      (layout.pending.map (·.source)).map Resolution.ofSource)

variable [DecidableEq φ]

namespace Form

def Compiling (form : Form) (o : CompilerOptions) (backend : Backend φ) (c c' : Cache φ)
    (entries : List (Resolution ⊕ ChoiceList)) : Prop :=
  let layout := Layout.ofForm form o
  (Resolution.activity backend).Turns
    (c.note layout.notices, (layout.pending.map (·.source)).map Resolution.ofSource) (c', entries)

def CompilesTo (form : Form) (o : CompilerOptions) (backend : Backend φ) (c c' : Cache φ)
    (schema : Schema) : Prop :=
  ∃ options, form.Compiling o backend c c' (options.map .inr) ∧
    schema = (Layout.ofForm form o).withOptions options

theorem compilesTo_compile (form : Form) (o : CompilerOptions) (backend : Backend φ)
    (c : Cache φ) :
    form.CompilesTo o backend c (form.compile o backend c).1 (form.compile o backend c).2 :=
  ⟨_, Activity.turns_finish _ _ _, rfl⟩

theorem Compiling.length {form : Form} {o : CompilerOptions} {backend : Backend φ}
    {c c' : Cache φ} {options : List ChoiceList}
    (h : form.Compiling o backend c c' (options.map .inr)) :
    options.length = (Layout.ofForm form o).pending.length := by
  simpa using Activity.Turns.length h

end Form

def CompilesTo (document : Json) (o : CompilerOptions) (backend : Backend φ) (c c' : Cache φ)
    (result : Option Schema) : Prop :=
  match Form.config? document with
  | none => c' = c.note [.noConfig] ∧ result = none
  | some ms => ∃ schema, result = some schema ∧
      (Form.ofMembers ms).CompilesTo o backend (c.note (Form.notices ms)) c' schema

theorem compilesTo_compile (document : Json) (o : CompilerOptions) (backend : Backend φ)
    (c : Cache φ) :
    CompilesTo document o backend c (compile document o backend c).1
      (compile document o backend c).2 := by
  unfold CompilesTo compile
  cases Form.config? document with
  | none => exact ⟨rfl, rfl⟩
  | some ms => exact ⟨_, rfl, (Form.ofMembers ms).compilesTo_compile o backend _⟩

/-- A document may compile to a schema when the fields are polled in some order and others change
the cache between two polls. -/
def CompilesAmid (between : Cache φ → Cache φ → Prop) (document : Json) (o : CompilerOptions)
    (backend : Backend φ) (c c' : Cache φ) (schema : Schema) : Prop :=
  ∃ ms log options, Form.config? document = some ms ∧
    (Resolution.activity backend).Runs between (awaiting document o c) log
      (c', options.map .inr) ∧
    schema = (Layout.ofForm (Form.ofMembers ms) o).withOptions options

theorem length_options {document : Json} {ms : Members Json}
    (h : Form.config? document = some ms) {o : CompilerOptions} {backend : Backend φ}
    {between : Cache φ → Cache φ → Prop} {c c' : Cache φ}
    {log : List (PollRecord (Cache φ) Resolution)} {options : List ChoiceList}
    (hlog : (Resolution.activity backend).Runs between (awaiting document o c) log
      (c', options.map .inr)) :
    options.length = (Layout.ofForm (Form.ofMembers ms) o).pending.length := by
  have hlength := hlog.length
  rw [awaiting, h] at hlength
  simpa using hlength

theorem compile_eq_finish (document : Json) (o : CompilerOptions) (backend : Backend φ)
    (c : Cache φ) :
    let finished := (Resolution.activity backend).finish (awaiting document o c).1
      (awaiting document o c).2
    compile document o backend c = (finished.1, (Form.config? document).map fun ms =>
      (Layout.ofForm (Form.ofMembers ms) o).withOptions finished.2) := by
  unfold compile awaiting
  cases Form.config? document with
  | none => rw [Activity.finish_of_results _ rfl]; rfl
  | some ms => rfl

theorem runs_compile (document : Json) (o : CompilerOptions) (backend : Backend φ) (c : Cache φ) :
    ∃ log options, (Resolution.activity backend).Runs Eq (awaiting document o c) log
        ((compile document o backend c).1, options.map .inr) ∧
      (compile document o backend c).2 = (Form.config? document).map fun ms =>
        (Layout.ofForm (Form.ofMembers ms) o).withOptions options := by
  obtain ⟨log, hlog⟩ := (Resolution.activity backend).runs_finish (awaiting document o c).1
    (awaiting document o c).2
  rw [compile_eq_finish]
  exact ⟨log, _, hlog, rfl⟩

theorem compilesAmid_compile {document : Json} {o : CompilerOptions} {backend : Backend φ}
    {c : Cache φ} {schema : Schema} (h : (compile document o backend c).2 = some schema) :
    CompilesAmid Eq document o backend c (compile document o backend c).1 schema := by
  obtain ⟨log, options, hlog, hresult⟩ := runs_compile document o backend c
  rw [hresult] at h
  obtain ⟨ms, hms, rfl⟩ := Option.map_eq_some_iff.mp h
  exact ⟨ms, log, options, hms, hlog, rfl⟩

def choosing : Json :=
  .object [("config", .object [("A", .object [("properties", .object [
    ("sex", .object [("enumDict", .string "sexDict")]),
    ("region", .object [("enumApi", .string "regions")])])])])]

theorem choosing_distinct : choosing.Distinct := by
  simp [choosing, Json.Distinct, Json.DistinctMembers]

end FormCompiler
