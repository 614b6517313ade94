/-
Running a command line: the settings are loaded, the built-in commands registered, and the task is
done, unless the words ask for no task. What goes wrong is said on the error output, and the exit
status tells its kind.
-/
import ChatOps.Builtin
import ChatOps.Chat.Session
import ChatOps.CommandLine.Invocation
import ChatOps.Config.Load

namespace ChatOps.CommandLine

open Text

/-- Why a task was not done. -/
inductive Failure where
  /-- The words of the command line do not fit. -/
  | usage
  | parse (e : ParseError)
  | registry (e : RegistryError)
  | config (e : ConfigError)
  | noSetting (key : String)
  | unreadable (fault : Utf8Fault)
  | unwritable
deriving DecidableEq, Repr

namespace Failure

/-- What is said of a failure. A cause stands on a line of its own. -/
def message : Failure → String
  | .usage => helpText
  | .parse e => e.message
  | .registry e => s!"Failed to load built-in commands\nCause: {e.message}"
  | .config e => e.message
  | .noSetting key => s!"No setting named '{key}'"
  | .unreadable fault => s!"Failed to read message\nCause: {fault.message}"
  | .unwritable => "Failed to send reply\nCause: write zero"

/-- What a failure writes on the error output. Words that do not fit are answered with the summary
alone. -/
def errorText : Failure → String
  | .usage => message .usage
  | failure => "Error: " ++ failure.message ++ "\n"

def exitCode : Failure → Nat
  | .usage => 2
  | .parse e => e.exitCode
  | .registry e => e.exitCode
  | .config e => e.exitCode
  | .noSetting _ => 1
  | .unreadable _ => 1
  | .unwritable => 1

end Failure

/-- What a run wrote, and why it failed if it did. -/
structure Outcome where
  output : List UInt8
  failure : Option Failure := none
deriving DecidableEq, Repr

namespace Outcome

/-- A run that wrote a text and did what it was asked. -/
def done (text : String) : Outcome := ⟨encodeUtf8 text, none⟩

/-- A run that failed before it wrote anything. -/
def failed (failure : Failure) : Outcome := ⟨[], some failure⟩

def exitCode (o : Outcome) : Nat :=
  match o.failure with
  | none => 0
  | some failure => failure.exitCode

/-- What is written on the error output. -/
def errorText (o : Outcome) : String :=
  match o.failure with
  | none => ""
  | some failure => failure.errorText

end Outcome

/-- The outcome of a command line that asks for no task. -/
def Stop.outcome : Stop → Outcome
  | .help => .done helpText
  | .version => .done (versionText ++ "\n")
  | .usage => .failed .usage

/-- Texts, each with a line end. -/
def asLines (ls : List String) : String := String.join (ls.map (· ++ "\n"))

/-- A request as it is shown. -/
def showRequest (r : Request) : String :=
  asLines (" ".intercalate (r.command.name :: r.subcommand.toList) :: r.lines)

/-- A setting as it is shown among others. -/
def showSetting (s : Setting) : String := s.1 ++ " = " ++ s.2

/-- The surroundings of a run. -/
structure Surroundings where
  /-- The directory the program runs in. -/
  directory : String
  environment : Environment
  /-- What is found at a path. -/
  file : String → FileContent

namespace Surroundings

/-- The file of settings for all projects, if there is a place for it. -/
def sharedPath? (s : Surroundings) : Option String :=
  let inHome := (s.environment "HOME").bind fun home =>
    if home = "" then none else some (pathIn home ".config")
  let root :=
    match s.environment "XDG_CONFIG_HOME" with
    | some path => if path.toList.head? = some '/' then some path else inHome
    | none => inHome
  root.map fun directory => pathIn (pathIn directory "kube-bot") "config.toml"

/-- The file of settings of the project. -/
def projectPath (s : Surroundings) : String := pathIn s.directory "kube-bot.toml"

/-- The paths where settings are looked for. -/
def configPaths (s : Surroundings) (path : Option String) : List String :=
  match path with
  | some path => [path]
  | none => s.sharedPath?.toList ++ [s.projectPath]

/-- The settings that an invocation runs with. -/
def loadConfig (s : Surroundings) (path : Option String) : Except ConfigError Config :=
  match path with
  | some path => Config.loadFrom ⟨path, s.file path⟩ s.environment
  | none =>
    let shared : ConfigFile :=
      match s.sharedPath? with
      | some path => ⟨path, s.file path⟩
      | none => ⟨"", .absent .notFound⟩
    Config.load shared ⟨s.projectPath, s.file s.projectPath⟩ s.environment

end Surroundings

/-- The session of the task of chatting. The settings say what it logs. -/
def session (registry : Registry) (config : Config) (sender channel : String) : Session :=
  ⟨⟨registry, config⟩, sender, channel, config.logUnhandledEvents⟩

/-- The outcome of a session. -/
def ofTranscript (t : Transcript) : Outcome :=
  match t.ending with
  | .finished _ => ⟨t.output, none⟩
  | .unreadable fault => ⟨t.output, some (.unreadable fault)⟩
  | .unwritable => ⟨t.output, some .unwritable⟩

/-- Does a task, given the standard input. -/
def Task.run (registry : Registry) (config : Config) (input : List UInt8) : Task → Outcome
  | .parse words json =>
    match registry.parse (" ".intercalate words) with
    | .error e => .failed (.parse e)
    | .ok r => .done (if json then r.toJson.renderIndented ++ "\n" else showRequest r)
  | .chat sender channel => ofTranscript ((session registry config sender channel).run none input)
  | .commands => .done (asLines registry.helpLines)
  | .config none => .done (asLines (config.entries.map showSetting))
  | .config (some key) =>
    match config.lookup key with
    | .exact (_, value) => .done (asLines [value])
    | .candidates found => .done (asLines (found.map showSetting))
    | .missing => .failed (.noSetting key)

/-- The settings and the registry of a run, or why there are none. -/
def Invocation.prepare (i : Invocation) (s : Surroundings) : Except Failure (Config × Registry) :=
  match s.loadConfig i.configPath with
  | .error e => .error (.config e)
  | .ok config =>
    match Builtin.load with
    | .error e => .error (.registry e)
    | .ok (registry, _) => .ok (config, registry)

/-- Runs an invocation, given the standard input. -/
def Invocation.run (i : Invocation) (s : Surroundings) (input : List UInt8) : Outcome :=
  match i.prepare s with
  | .error failure => .failed failure
  | .ok (config, registry) => i.task.run registry config input

/-- Runs a command line, given the standard input. -/
def run (args : List String) (s : Surroundings) (input : List UInt8) : Outcome :=
  match Invocation.read args with
  | .error stop => stop.outcome
  | .ok i => i.run s input

end ChatOps.CommandLine
