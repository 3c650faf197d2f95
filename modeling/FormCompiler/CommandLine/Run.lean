import FormCompiler.CommandLine.Help
import FormCompiler.Settings.Schema

namespace FormCompiler

/-- Calls without a network: every call fails at once. Compiling takes any calls, and only the
command line decides on these. -/
def Remote.offline : Backend Remote := fun remote _ _ =>
  ⟨0, .error ⟨["POST " ++ remote.url ++ " failed"]⟩⟩

def Workspace.compileFile (w : Workspace) (files : FileTree) (form : String) (c : Cache Remote) :
    Cache Remote × Except RunError Schema :=
  w.compileForm files form Remote.offline c

namespace CommandLine

structure Outcome where
  code : Nat
  stdout : String := ""
  stderr : String := ""
  files : FileTree
  written : Option String := none
  notices : List Notice := []

namespace Outcome

def ofError (files : FileTree) (notices : List Notice) (e : RunError) : Outcome :=
  let label := match e with
    | .document _ | .noForm _ => "error: "
    | .settingsUnreadable _ _ | .settingsInvalid _ _ | .notWritten _ => "Error: "
  { code := 1, stderr := label ++ e.failure.text ++ "\n", files, notices }

def ofHalt (files : FileTree) : Halt → Outcome
  | .help topic => { code := 0, stdout := topic.helpText, files }
  | .version => { code := 0, stdout := versionText, files }
  | .misuse => { code := 2, stderr := Topic.program.helpText, files }

end Outcome

def deliver (w : Workspace) (files : FileTree) (notices : List Notice) (schema : Schema) :
    Option String → Outcome
  | none => { code := 0, stdout := Workspace.schemaText schema ++ "\n", files, notices }
  | some out =>
    match w.write files out schema with
    | .error e => .ofError files notices e
    | .ok files =>
      let path := w.resolve out
      { code := 0, stderr := "Schema written to " ++ path ++ "\n", files, written := path, notices }

def Command.run (env : Environment) (files : FileTree) (directory : String) : Command → Outcome
  | .settingsSchema => { code := 0, stdout := Settings.schema.pretty ++ "\n", files }
  | .compile form tables out settings =>
    match Workspace.load files directory settings with
    | .error e => .ofError files [] e
    | .ok w =>
      let compiled := w.compileFile files form (w.cache env files tables)
      let notices := compiled.1.history.filterMap Event.notice?
      match compiled.2 with
      | .error e => .ofError files notices e
      | .ok schema => deliver w files notices schema out

def run (env : Environment) (files : FileTree) (current : String) (args : List String) : Outcome :=
  match Invocation.ofArguments args with
  | .error halt => .ofHalt files halt
  | .ok invocation => invocation.command.run env files (invocation.workdir.getD current)

end CommandLine

end FormCompiler
