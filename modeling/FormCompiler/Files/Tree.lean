import FormCompiler.Files.Path

namespace FormCompiler

inductive FileError where
  | notFound
  | isDirectory
  | notDirectory
  | exists
  | notText
  | nameTooLong
  | nulByte
  deriving DecidableEq, Repr

def FileError.text : FileError → String
  | .notFound => "No such file or directory (os error 2)"
  | .isDirectory => "Is a directory (os error 21)"
  | .notDirectory => "Not a directory (os error 20)"
  | .exists => "File exists (os error 17)"
  | .notText => "stream did not contain valid UTF-8"
  | .nameTooLong => "File name too long (os error 36)"
  | .nulByte => "file name contained an unexpected NUL byte"

/-- Files by the names that lead to them from the top. Every name before the last is a directory's.
Relative paths start at the home of the tree. -/
structure FileTree where
  home : List String := []
  files : List (List String × ByteArray) := []
  directories : List (List String) := []

inductive FileTree.Entry where
  | directory (names : List String)
  | file (names : List String) (content : ByteArray)

namespace FileTree

def file? (t : FileTree) (names : List String) : Option ByteArray := t.files.lookup names

def isDirectory (t : FileTree) (names : List String) : Bool :=
  names.isEmpty || names.isPrefixOf t.home || t.directories.any (names.isPrefixOf ·) ||
    t.files.any fun (file, _) => names.length < file.length && names.isPrefixOf file

def follow (t : FileTree) : Entry → List String → Except FileError Entry
  | entry, [] => .ok entry
  | .file _ _, _ :: _ => .error .notDirectory
  | .directory names, part :: rest =>
    if part = "" ∨ part = "." then follow t (.directory names) rest
    -- the top is its own parent
    else if part = ".." then follow t (.directory names.dropLast) rest
    else if 255 < part.utf8ByteSize then .error .nameTooLong
    else
      let below := names ++ [part]
      match t.file? below with
      | some content => follow t (.file below content) rest
      | none => if t.isDirectory below then follow t (.directory below) rest else .error .notFound

def start (t : FileTree) (path : String) : Entry :=
  .directory (if Path.isAbsolute path then [] else t.home)

def checkPath (path : String) : Except FileError Unit :=
  if path = "" then .error .notFound
  else if path.contains '\x00' then .error .nulByte
  else if 4095 < path.utf8ByteSize then .error .nameTooLong
  else .ok ()

def find (t : FileTree) (path : String) : Except FileError Entry := do
  checkPath path
  t.follow (t.start path) (Path.parts path)

def exists? (t : FileTree) (path : String) : Bool := (t.find path).isOk

def read (t : FileTree) (path : String) : Except FileError String :=
  match t.find path with
  | .error e => .error e
  | .ok (.directory _) => .error .isDirectory
  | .ok (.file _ content) =>
    match String.fromUTF8? content with
    | some text => .ok text
    | none => .error .notText

def passed : List String → List String → List (List String)
  | names, [] => [names]
  | names, part :: rest =>
    if part = "" ∨ part = "." then passed names rest
    else if part = ".." then names :: passed names.dropLast rest
    else names :: passed (names ++ [part]) rest

def addDirectory (t : FileTree) (path : String) : FileTree :=
  let top := if Path.isAbsolute path then [] else t.home
  { t with directories := t.directories ++ passed top (Path.parts path) }

def addFile (t : FileTree) (path : String) (content : ByteArray) : FileTree :=
  let top := if Path.isAbsolute path then [] else t.home
  let trail := passed top (Path.parts path)
  { t with
    directories := t.directories ++ trail.dropLast
    files := (trail.getLastD [], content) :: t.files }

def parent (t : FileTree) (path : String) : Except FileError (List String × String) := do
  checkPath path
  match Path.splitLast? path with
  | none => .ok ([], ".")
  | some (above, name) =>
    match ← t.follow (t.start path) above with
    | .directory names => .ok (names, name)
    | .file _ _ => .error .notDirectory

def makeDirectory (t : FileTree) (path : String) : Except FileError FileTree := do
  let (names, name) ← t.parent path
  if name = "." ∨ name = ".." then .error .exists
  else match t.follow (.directory names) [name] with
    | .ok _ => .error .exists
    | .error .notFound => .ok { t with directories := t.directories ++ [names ++ [name]] }
    | .error e => .error e

def leadsToDirectory (t : FileTree) (path : String) : Bool :=
  match t.find path with
  | .ok (.directory _) => true
  | _ => false

def ensureDirectory (t : FileTree) (path : String) : Except FileError FileTree :=
  match t.makeDirectory path with
  | .ok t => .ok t
  | .error e => if t.leadsToDirectory path then .ok t else .error e

def makeDirectories (t : FileTree) : List String → Except FileError FileTree
  | [] => .ok t
  | path :: above =>
    match t.ensureDirectory path with
    | .error .notFound => do (← makeDirectories t above).ensureDirectory path
    | result => result

def replace (t : FileTree) (path content : String) : Except FileError FileTree := do
  let (names, name) ← t.parent path
  if path.endsWith "/" ∨ name = "." ∨ name = ".." then .error .isDirectory
  else match t.follow (.directory names) [name] with
    | .ok (.directory _) => .error .isDirectory
    | .ok (.file _ _) | .error .notFound =>
      let file := names ++ [name]
      .ok { t with files := (file, content.toUTF8) :: t.files.filter (·.1 != file) }
    | .error e => .error e

def write (t : FileTree) (path content : String) : Except FileError FileTree := do
  let t ← t.makeDirectories (Path.ancestors path).tail
  t.replace path content

end FileTree

end FormCompiler
