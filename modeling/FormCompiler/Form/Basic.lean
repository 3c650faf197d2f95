import FormCompiler.Form.Field

namespace FormCompiler

namespace Form

structure Block where
  title : Option String := none
  canBeFolded : Option Bool := none
  fields : Members Field := []
  attributes : Members Json := []
  deriving Repr

namespace Block

def extensions (b : Block) (start : String) : Members Json := b.attributes.startingWith start

/-- The members of a block besides its `properties`, whose place the last member takes. -/
def ownMembers (ms : Members Json) : Members Json := ms.swapErase "properties"

def foldable? (ms : Members Json) : Option Bool := (Choice.set? ms "canBeFolded").map Json.truthy

def regularNames : List String := ["title", "canBeFolded", "properties"]

def readable (name : String) (j : Json) : Bool :=
  name != "properties" || (Json.membersOf? Field.read? j).isSome

def ofOwn (ms : Members Json) : Block where
  title := Field.lenient Lenient.text ms "title"
  canBeFolded := foldable? ms
  fields := ((ms.lookup "properties").bind (Json.membersOf? Field.read?)).getD []
  attributes := ms.filter fun (name, _) => !regularNames.contains name

def read? : Json → Option Block
  | .object ms => if ms.all (fun (name, j) => readable name j) then some (ofOwn ms) else none
  | _ => none

def readFields (fields : Members Json) : Members Field :=
  fields.filterMap fun (name, j) => (Field.read? j).map (name, ·)

def readOwn? (ms : Members Json) : Option Block := read? (.object (ownMembers ms))

def ofMembers (ms fields : Members Json) : Block :=
  { (readOwn? ms).getD { } with fields := readFields fields }

def fieldNotices (block name : String) (j : Json) : List Notice :=
  Field.notices j ++ if (Field.read? j).isSome then [] else [.malformedField block name]

def titleNotices (ms : Members Json) : List Notice :=
  (((ownMembers ms).lookup "title").bind fun j => (Lenient.text j).notice).toList

def notices (key : String) (ms fields : Members Json) : List Notice :=
  titleNotices ms ++ (if (readOwn? ms).isSome then [] else [.malformedBlock key]) ++
    fields.flatMap fun (name, j) => fieldNotices key name j

def parts? (j : Json) : Option (Members Json × Members Json) := do
  let ms ← j.members?
  let fields ← (← ms.lookup "properties").members?
  some (ms, fields)

end Block

end Form

structure Form where
  title : Option String := none
  blocks : Members Form.Block := []
  deriving Repr

namespace Form

def titleKey : String := "title"

def readTitle (ms : Members Json) : Option String :=
  ((ms.lookup titleKey).bind Json.string?).filter (· != "")

def blockParts (ms : Members Json) : Members (Members Json × Members Json) :=
  ms.filterMap fun (key, j) => if key = titleKey then none else (Block.parts? j).map (key, ·)

def ofMembers (ms : Members Json) : Form :=
  { title := readTitle ms
    blocks := (blockParts ms).map fun (key, own, fields) => (key, Block.ofMembers own fields) }

def notices (ms : Members Json) : List Notice :=
  (blockParts ms).flatMap fun (key, own, fields) => Block.notices key own fields

def config? (document : Json) : Option (Members Json) := (document.get? "config").bind Json.members?

def declarations (form : Form) : List (String × String × Field) :=
  form.blocks.flatMap fun (block, b) => b.fields.map fun (key, f) => (block, key, f)

end Form

end FormCompiler
