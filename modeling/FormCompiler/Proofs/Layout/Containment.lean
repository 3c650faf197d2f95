import FormCompiler.Proofs.Form.Omissions
import FormCompiler.Proofs.Layout.Orders
import FormCompiler.Proofs.Resolution.Agreement
import FormCompiler.Proofs.Resolution.Calls

namespace FormCompiler

namespace Form

/-- A form has the blocks of a configuration in their order, none of which has failed to be read,
each with those of its fields that can be read. -/
structure ReadsAs (ms : Members Json) (form : Form) : Prop where
  blocks : form.blocks.names = Members.names (ms.filter fun (key, j) => isBlock key j)
  fields : ∀ key b, (key, b) ∈ form.blocks → ∃ own fields read,
    (key, .object own) ∈ ms ∧ own.lookup "properties" = some (.object fields) ∧
      Block.readOwn? own = some read ∧ b = { read with fields := b.fields } ∧
      b.fields.names = Members.names (fields.filter fun (_, j) => isField j) ∧
      ∀ name f, (name, f) ∈ b.fields → ∃ j, (name, j) ∈ fields ∧ Field.read? j = some f

theorem readsAs_ofMembers {ms : Members Json} (h : (Json.object ms).Distinct) :
    ReadsAs ms (ofMembers ms) where
  blocks := names_blocks ms
  fields := by
    intro key b hb
    obtain ⟨own, fields, hown, -, hnodup, hp, rfl⟩ := exists_member_of_block h hb
    have hfields : (Json.object fields).Distinct :=
      (h.of_mem hown).of_mem (Members.mem_of_lookup hp)
    exact ⟨own, fields, _, hown, hp, readOwn?_eq hnodup, rfl, names_readFields hfields,
      fun name f => mem_readFields⟩

end Form

variable {φ : Type} [DecidableEq φ]

theorem compile_eq_none_iff (document : Json) (o : CompilerOptions) (backend : Backend φ)
    (c : Cache φ) : (compile document o backend c).2 = none ↔ Form.config? document = none := by
  unfold compile
  cases Form.config? document <;> simp

theorem Form.compile_congr (form : Form) (o : CompilerOptions) (backend : Backend φ)
    {c c' : Cache φ} (h : Cache.Agree c c') :
    (form.compile o backend c).2 = (form.compile o backend c').2 := by
  have hlayout : Cache.Agree (c.note (Layout.ofForm form o).notices)
      (c'.note (Layout.ofForm form o).notices) := h.record _
  simp only [Form.compile, Resolution.resolveAll_congr hlayout]

theorem compile_congr {document document' : Json} {ms ms' : Members Json}
    (hc : Form.config? document = some ms) (hc' : Form.config? document' = some ms')
    (hform : Form.ofMembers ms' = Form.ofMembers ms) (o : CompilerOptions) (backend : Backend φ)
    (c : Cache φ) :
    (compile document' o backend c).2 = (compile document o backend c).2 := by
  simp only [compile, hc, hc', hform]
  congr 1
  exact (Form.ofMembers ms).compile_congr o backend (.note c _ _)

theorem history_compile {document : Json} {ms : Members Json}
    (h : Form.config? document = some ms) (o : CompilerOptions) (backend : Backend φ)
    (c : Cache φ) :
    ∃ later, (compile document o backend c).1.history =
      c.history ++ ((Form.notices ms).map .noticed ++ later) := by
  obtain ⟨log, options, hlog, -⟩ := runs_compile document o backend c
  have hhistory := Resolution.history_of_runs hlog
  simp only [awaiting, h, Cache.note, Cache.record, List.append_assoc] at hhistory
  exact ⟨_, hhistory⟩

/-- There is a schema exactly if there is a configuration object. Its members that are blocks and
their fields that can be read make the form. Every other field of a block has one notice, which a
compile gives, and what is left out could be deleted without a trace in the form or in the
schema. -/
theorem compile_containment (document : Json) (h : document.Distinct) (o : CompilerOptions)
    (backend : Backend φ) (c : Cache φ) :
    ((compile document o backend c).2 = none ↔
        ∀ ms, document.get? "config" ≠ some (.object ms)) ∧
      ∀ ms, document.get? "config" = some (.object ms) →
        (Form.ofMembers ms).ReadsAs ms ∧
        ((Form.notices ms).filterMap Notice.malformed? =
            (Form.unreadable ms).map fun (key, name) => (key, some name)) ∧
        (Form.unreadable ms).Nodup ∧
        (∃ later, (compile document o backend c).1.history =
          c.history ++ ((Form.notices ms).map .noticed ++ later)) ∧
        ∀ path, Form.LeftOut ms path →
          (Form.config? (document.without ("config" :: path))).map Form.ofMembers =
              some (Form.ofMembers ms) ∧
            (compile (document.without ("config" :: path)) o backend c).2 =
              (compile document o backend c).2 := by
  constructor
  · rw [compile_eq_none_iff, Option.eq_none_iff_forall_ne_some]
    exact forall_congr' fun ms => not_congr (Form.config?_eq_some_iff document ms)
  · intro ms hms
    have hc := (Form.config?_eq_some_iff document ms).mpr hms
    have hd := Form.distinct_config h hc
    refine ⟨Form.readsAs_ofMembers hd, Form.malformed?_notices hd, Form.nodup_unreadable hd,
      history_compile hc o backend c, ?_⟩
    intro path hpath
    obtain ⟨ms', hc', hform⟩ := hpath.config?_without h hc
    refine ⟨?_, compile_congr hc hc' hform o backend c⟩
    rw [hc', Option.map_some, hform]

def damagedConfig : Members Json :=
  [("A", .object [("title", .ofNat 1), ("properties", .object [
      ("name", .object [("required", .bool true)]),
      ("code", .object [("enums", .string "1,2")]),
      ("age", .object [("enums", .array [.array []])]),
      ("note", .null)])]),
    ("B", .object [("properties", .array [])])]

def damaged : Json := .object [("config", .object damagedConfig)]

theorem damaged_distinct : damaged.Distinct := by
  simp [damaged, damagedConfig, Json.Distinct, Json.DistinctItems, Json.DistinctMembers, Json.ofNat]

theorem compile_containment_damaged :
    let backend : Backend Nat := fun _ _ _ => ⟨0, .ok .null⟩
    let c : Cache Nat := .ofStrategies [] []
    damaged.Distinct ∧
      (Form.notices damagedConfig).filterMap Notice.malformed? =
        [("A", some "code"), ("A", some "note")] ∧
      (∃ later, (compile damaged {} backend c).1.history =
        (Form.notices damagedConfig).map .noticed ++ later) ∧
      (compile (damaged.without ["config", "A", "properties", "code"]) {} backend c).2 =
        (compile damaged {} backend c).2 ∧
      (compile (damaged.without ["config", "B"]) {} backend c).2 =
        (compile damaged {} backend c).2 := by
  intro backend c
  have hconfig : damaged.get? "config" = some (.object damagedConfig) := rfl
  obtain ⟨-, hnotices, -, hhistory, hpaths⟩ :=
    (compile_containment damaged damaged_distinct {} backend c).2 damagedConfig hconfig
  have hcode : Form.LeftOut damagedConfig ["A", "properties", "code"] :=
    .field "A" "code" List.mem_cons_self
  have hblock : Form.LeftOut damagedConfig ["B"] :=
    .block "B" _ (List.mem_cons_of_mem _ List.mem_cons_self) (by decide) rfl
  exact ⟨damaged_distinct, hnotices, hhistory, (hpaths _ hcode).2, (hpaths _ hblock).2⟩

end FormCompiler
