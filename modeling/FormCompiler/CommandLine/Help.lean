import FormCompiler.CommandLine.Arguments

namespace FormCompiler

namespace CommandLine

def programName : String := "formc"

def versionText : String := programName ++ " 0.1.0\n"

namespace Parameter

def valueName : Parameter → String
  | .workdir => "WORKDIR"
  | _ => "FILE"

def description : Parameter → String
  | .workdir => "Working directory, defaults to the current directory"
  | .dictionary => "Dictionary file, may be given several times; tried in order"
  | .lookups => "Lookup endpoint file"
  | .out => "Output file, stdout when absent"
  | .settings => "Settings file, defaults to .formc.toml in the working directory"

def heading (p : Parameter) : String :=
  (match p.short? with
    | some c => String.ofList ['-', c, ',', ' ']
    | none => "    ") ++ "--" ++ p.long ++ " <" ++ p.valueName ++ ">"

end Parameter

namespace Topic

def description : Topic → String
  | .program => "Compile form configurations into rendering schemas"
  | .compile => "Compile a form document"
  | .settingsSchema => "Print the JSON Schema of the settings file"
  | .help => "Print this message or the help of the given subcommand(s)"

def usage : Topic → String
  | .program => programName ++ " [OPTIONS] <COMMAND>"
  | .compile => programName ++ " compile [OPTIONS] <FORM>"
  | .settingsSchema => programName ++ " settings-schema [OPTIONS]"
  | .help => programName ++ " help [COMMAND]..."

def wordRows : Topic → Members String
  | .compile => [("<FORM>", "Form document (.json or .toml)")]
  | .help => [("[COMMAND]...", "Print help for the subcommand(s)")]
  | .program | .settingsSchema => []

def commandRows : Topic → Members String
  | .program => commands.map fun (name, topic) => (name, topic.description)
  | _ => []

def optionRows (topic : Topic) : Members String :=
  topic.parameters.map (fun p => (p.heading, p.description)) ++
    match topic with
    | .help => []
    | .program => [("-h, --help", "Print help"), ("-V, --version", "Print version")]
    | .compile | .settingsSchema => [("-h, --help", "Print help")]

def columns (title : String) (rows : Members String) : String :=
  if rows.isEmpty then ""
  else
    let width := (rows.map (·.1.length)).foldl max 0
    let gap (word : String) := String.ofList (List.replicate (width - word.length + 2) ' ')
    let line := fun (word, text) => "  " ++ word ++ gap word ++ text ++ "\n"
    "\n" ++ title ++ ":\n" ++ String.join (rows.map line)

def helpText (topic : Topic) : String :=
  topic.description ++ "\n\nUsage: " ++ topic.usage ++ "\n" ++
    columns "Commands" topic.commandRows ++ columns "Arguments" topic.wordRows ++
    columns "Options" topic.optionRows

end Topic

end CommandLine

end FormCompiler
