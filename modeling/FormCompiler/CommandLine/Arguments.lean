import FormCompiler.Workspace

/-!
The arguments of the command line. Options stand before or after the words of a command, with their
value behind them, behind an equals sign, or, after a short name, right behind the name.
-/
namespace FormCompiler

namespace CommandLine

inductive Parameter where
  | workdir
  | dictionary
  | lookups
  | out
  | settings
  deriving DecidableEq, Repr

namespace Parameter

def long : Parameter → String
  | .workdir => "workdir"
  | .dictionary => "dict"
  | .lookups => "lookups"
  | .out => "out"
  | .settings => "settings"

def short? : Parameter → Option Char
  | .workdir => some 'C'
  | .out => some 'o'
  | .settings => some 's'
  | .dictionary | .lookups => none

def repeatable : Parameter → Bool
  | .dictionary => true
  | _ => false

end Parameter

inductive Topic where
  | program
  | compile
  | settingsSchema
  | help
  deriving DecidableEq, Repr

namespace Topic

def commands : Members Topic :=
  [("compile", .compile), ("settings-schema", .settingsSchema), ("help", .help)]

def parameters : Topic → List Parameter
  | .program | .settingsSchema => [.workdir]
  | .compile => [.workdir, .dictionary, .lookups, .out, .settings]
  | .help => []

def words : Topic → Nat
  | .compile => 1
  | _ => 0

end Topic

inductive Halt where
  | help (topic : Topic)
  | version
  | misuse
  deriving DecidableEq, Repr

inductive Argument where
  | word (text : String)
  | given (p : Parameter) (value : String)
  | awaiting (p : Parameter)
  | help
  | version
  | separator
  | unknown
  deriving DecidableEq, Repr

namespace Argument

def ofLong (topic : Topic) (name : List Char) (value : Option (List Char)) : Argument :=
  match topic.parameters.find? (·.long == String.ofList name), value with
  | some p, some value => .given p (String.ofList value)
  | some p, none => .awaiting p
  | none, some _ => .unknown
  | none, none =>
    if name = "help".toList then .help
    else if name = "version".toList ∧ topic = .program then .version
    else .unknown

def ofShort (topic : Topic) (name : Char) (value : List Char) : Argument :=
  match topic.parameters.find? (·.short? == some name), value with
  | some p, [] => .awaiting p
  | some p, '=' :: value => .given p (String.ofList value)
  | some p, value => .given p (String.ofList value)
  | none, _ =>
    if name = 'h' then .help
    else if name = 'V' ∧ topic = .program then .version
    else .unknown

def ofText (topic : Topic) (text : String) : Argument :=
  match text.toList with
  | ['-', '-'] => .separator
  | '-' :: '-' :: cs =>
    match cs.dropWhile (· != '=') with
    | _ :: value => ofLong topic (cs.takeWhile (· != '=')) (some value)
    | [] => ofLong topic cs none
  | '-' :: c :: cs => ofShort topic c cs
  | _ => .word text

def isValue (text : String) : Bool := text == "-" || !text.startsWith "-"

end Argument

structure Given where
  values : List (Parameter × String) := []
  words : List String := []
  held : Option (Parameter × String) := none
  deriving DecidableEq, Repr

namespace Given

def value? (g : Given) (p : Parameter) : Option String := g.values.lookup p

def all (g : Given) (p : Parameter) : List String :=
  g.values.filterMap fun (q, value) => if q = p then some value else none

def give (g : Given) (p : Parameter) (value : String) : Except Halt Given :=
  if value = "" ∨ (g.value? p).isSome ∧ !p.repeatable then .error .misuse
  else .ok { g with values := g.values ++ [(p, value)] }

def settle (g : Given) : Except Halt Given :=
  match g.held with
  | none => .ok g
  | some (p, value) => give { g with held := none } p value

def addWord (topic : Topic) (g : Given) (word : String) : Except Halt Given :=
  if word = "" ∨ topic.words ≤ g.words.length then .error .misuse
  else .ok { g with words := g.words ++ [word] }

def read (topic : Topic) (g : Given) : List String → Except Halt (Given × List String)
  | [] => do return (← g.settle, [])
  | arg :: rest =>
    match Argument.ofText topic arg with
    | .word word =>
      if topic = .program then .ok (g, arg :: rest)
      else do read topic (← (← g.settle).addWord topic word) rest
    | .given p value => do read topic (← (← g.settle).give p value) rest
    | .awaiting p =>
      match rest with
      | [] => .error .misuse
      | value :: rest =>
        if Argument.isValue value then do
          -- the value is only taken when the next argument comes
          read topic { (← g.settle) with held := some (p, value) } rest
        else .error .misuse
    | .help => do let _ ← g.settle; .error (.help topic)
    | .version => do let _ ← g.settle; .error .version
    | .separator => do return (← rest.foldlM (addWord topic) (← g.settle), [])
    | .unknown => .error .misuse

end Given

inductive Command where
  | compile (form : String) (tables : TableFiles) (out settings : Option String)
  | settingsSchema
  deriving DecidableEq, Repr

structure Invocation where
  workdir : Option String
  command : Command
  deriving DecidableEq, Repr

namespace Invocation

def command? (topic : Topic) (g : Given) : Option Command :=
  match topic, g.words with
  | .compile, [form] =>
    some (.compile form ⟨g.all .dictionary, g.value? .lookups⟩ (g.value? .out) (g.value? .settings))
  | .settingsSchema, [] => some .settingsSchema
  | _, _ => none

def helpOn : List String → Halt
  | [] => .help .program
  | [name] => ((Topic.commands.lookup name).map Halt.help).getD .misuse
  | _ => .misuse

/-- Read the arguments; a directory named after the command wins over one before it. What is held
before the command is taken after all that follows it. -/
def ofArguments (args : List String) : Except Halt Invocation := do
  let (before, rest) ← Given.read .program { } args
  match rest with
  | [] => .error .misuse
  | name :: rest =>
    match Topic.commands.lookup name with
    | none => .error .misuse
    | some .help => .error (helpOn rest)
    | some topic =>
      let (after, _) ← Given.read topic { } rest
      let before ← before.settle
      match command? topic after with
      | none => .error .misuse
      | some command => .ok ⟨(after.value? .workdir).or (before.value? .workdir), command⟩

end Invocation

end CommandLine

end FormCompiler
