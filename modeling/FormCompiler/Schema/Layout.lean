import FormCompiler.Form.Basic
import FormCompiler.Schema.Synthesis

/-!
The structural part of a schema, which no table has a say in: every declared field stands in its
block in declaration order, and every companion where its field puts it.
-/
namespace FormCompiler

structure PendingChoice where
  block : String
  field : String
  source : Form.OptionSource
  deriving Repr

structure Layout where
  schema : Schema
  pending : List PendingChoice := []
  notices : List Notice := []

namespace Layout

def emptyBlock (b : Form.Block) (o : CompilerOptions) : Schema.Block where
  title := b.title.getD ""
  uiOptions := b.canBeFolded.map fun fold => [("canBeFolded", .bool fold)]
  attributes := b.extensions o.extensionPrefix

def emptySchema (form : Form) (o : CompilerOptions) : Schema where
  title := form.title.getD o.defaultTitle
  blocks := form.blocks.map fun (key, b) => (key, emptyBlock b o)
  uiOptions := o.uiOptions

def updateBlock (s : Schema) (block : String) (f : Schema.Block → Schema.Block) : Schema :=
  { s with blocks := s.blocks.update block f }

def declare (s : Schema) (block key : String) (required : Bool) (field : Schema.Field) : Schema :=
  updateBlock s block fun b =>
    { b with
      required := if required then b.required ++ [key] else b.required
      -- a companion that holds the key gives way
      fields := Members.moveToEnd b.fields key field }

def offer (s : Schema) (block key : String) (field : Schema.Field) : Schema :=
  updateBlock s block fun b => { b with fields := Members.offer b.fields key field }

/-- The block that a companion goes to: the one its field names, or the field's own block when there
is none of that name. -/
def targetOf (s : Schema) (block target : String) : String :=
  if Members.has s.blocks target then target else block

def placeBound (l : Layout) (block key : String) (required : Bool) (pair : BoundPair) : Layout :=
  let target := targetOf l.schema block pair.target
  { l with
    schema := offer (declare l.schema block key required pair.primary) target pair.companionKey
      pair.companion
    notices := l.notices ++
      if Members.has l.schema.blocks pair.target then []
      else [.unknownTarget block key pair.target pair.companionKey] }

def pendingOf (block key : String) (f : Form.Field) : List PendingChoice :=
  match f.optionSource? with
  | none => []
  | some (.inline _) => []
  | some source => [⟨block, key, source⟩]

def placePlain (l : Layout) (o : CompilerOptions) (block key : String) (f : Form.Field) : Layout :=
  { l with
    schema := declare l.schema block key f.required (f.withInline (f.synthesize o))
    pending := l.pending ++ pendingOf block key f }

def place (o : CompilerOptions) (l : Layout) (declaration : String × String × Form.Field) :
    Layout :=
  let (block, key, f) := declaration
  match BoundPair.expand? block key f o with
  | some pair => l.placeBound block key f.required pair
  | none => l.placePlain o block key f

def ofForm (form : Form) (o : CompilerOptions) : Layout :=
  form.declarations.foldl (place o) { schema := emptySchema form o }

end Layout

end FormCompiler
