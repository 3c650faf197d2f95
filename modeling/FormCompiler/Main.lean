import FormCompiler.CommandLine.Run

namespace FormCompiler

namespace CommandLine

def fetchFile (files : FileTree) (path : String) : IO FileTree := do
  try
    return files.addFile path (← IO.FS.readBinFile path)
  catch
    | .inappropriateType .. => return files.addDirectory path
    | _ => return files

def fetchVariable (env : Environment) (name : String) : IO Environment := do
  match ← IO.getEnv name with
  | some value => return env.set name value
  | none => return env

def fetchInputs (files : FileTree) (current : String) (args : List String) :
    IO (FileTree × Environment) := do
  match Invocation.ofArguments args with
  | .ok ⟨workdir, .compile form tables _ settings⟩ =>
    let directory := workdir.getD current
    let files ← fetchFile files
      (Path.resolve directory (settings.getD Workspace.settingsFile))
    match Workspace.load files directory settings with
    | .ok w =>
      let files ← (w.inputs form tables).foldlM fetchFile files
      return (files, ← (w.references files tables).foldlM fetchVariable [])
    | .error _ => return (files, [])
  | _ => return (files, [])

def storeOutput (outcome : Outcome) : IO Unit := do
  match outcome.written with
  | none => return
  | some path =>
    let directory := String.intercalate "/" (Path.parts path).dropLast
    if directory != "" then IO.FS.createDirAll directory
    match outcome.files.read path with
    | .ok text => IO.FS.writeFile path text
    | .error _ => return

end CommandLine

end FormCompiler

open FormCompiler in
def main (args : List String) : IO UInt32 := do
  let current := toString (← IO.currentDir)
  let home : FileTree := { home := Path.names current }
  let (files, env) ← CommandLine.fetchInputs home current args
  let outcome := CommandLine.run env files current args
  outcome.notices.forM fun notice => IO.eprintln notice.line
  try
    CommandLine.storeOutput outcome
  catch e =>
    IO.eprintln ("Error: " ++ toString e)
    return 1
  IO.print outcome.stdout
  IO.eprint outcome.stderr
  return outcome.code.toUInt32
