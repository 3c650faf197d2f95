import FormCompiler.Schema.Layout
import FormCompiler.Schema.Resolution

namespace FormCompiler

variable {φ : Type} [DecidableEq φ]

namespace Layout

def withOptions (l : Layout) (options : List ChoiceList) : Schema :=
  (l.pending.zip options).foldl
    (fun schema (p, choices) => schema.updateField p.block p.field (·.withChoices choices)) l.schema

end Layout

def Form.compile (form : Form) (o : CompilerOptions) (backend : Backend φ) (c : Cache φ) :
    Cache φ × Schema :=
  let layout := Layout.ofForm form o
  let resolved :=
    Resolution.resolveAll backend (c.note layout.notices) (layout.pending.map (·.source))
  (resolved.1, layout.withOptions resolved.2)

/-- Compile a document; without a configuration object there is no schema, only a notice. -/
def compile (document : Json) (o : CompilerOptions) (backend : Backend φ) (c : Cache φ) :
    Cache φ × Option Schema :=
  match Form.config? document with
  | none => (c.note [.noConfig], none)
  | some ms =>
    let compiled := (Form.ofMembers ms).compile o backend (c.note (Form.notices ms))
    (compiled.1, some compiled.2)

end FormCompiler
