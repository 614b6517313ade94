/-
Invocations: what the program is asked to do, as its command line says it. An option that stands
both before and after the task counts where it stands after.
-/
import ChatOps.CommandLine.Options

namespace ChatOps.CommandLine

/-- What to do. -/
inductive Task where
  /-- Show how a message is understood. -/
  | parse (words : List String) (json : Bool)
  /-- Answer the messages of the standard input. -/
  | chat (sender channel : String)
  /-- Show the commands of the chat. -/
  | commands
  /-- Show the settings, or those a key finds. -/
  | config (key : Option String)
deriving DecidableEq, Repr

/-- What to do, and the file of settings if one is named. -/
structure Invocation where
  configPath : Option String
  task : Task
deriving DecidableEq, Repr

/-- What may stand before the task. -/
def topLevel : Level where
  valued := ["config"]
  hasVersion := true
  nested := true

/-- What may stand after the name of a task. -/
def taskLevel? : String → Option Level
  | "parse" => some { valued := ["config"], switches := ["json"], maxWords := none }
  | "chat" => some { valued := ["config", "sender", "channel"] }
  | "commands" => some { valued := ["config"] }
  | "config" => some { valued := ["config"], maxWords := some 1 }
  | _ => none

/-- The task of a name and of what was given after it. -/
def task? (name : String) (given : Given) : Option Task :=
  match name with
  | "parse" =>
    if given.words = [] then none
    else some (.parse given.words (given.switches.contains "json"))
  | "chat" =>
    some (.chat ((given.values.lookup "sender").getD "cli-user")
      ((given.values.lookup "channel").getD "cli"))
  | "commands" => some .commands
  | "config" => some (.config given.words.head?)
  | _ => none

/-- The invocation of a command line. -/
def Invocation.read (args : List String) : Except Stop Invocation := do
  let (before, left) ← topLevel.read {} args
  match left with
  | [] => .error .usage
  | name :: rest =>
    match taskLevel? name with
    | none => .error .usage
    | some level =>
      let (after, _) ← level.read {} rest
      match task? name after with
      | none => .error .usage
      | some task => return ⟨after.values.lookup "config" <|> before.values.lookup "config", task⟩

/-- A summary of the command line. -/
def helpText : String :=
  "kube-bot - run Kubernetes commands from chat\n\n" ++
  "Usage: kube-bot [-c PATH] <task>\n\n" ++
  "Tasks:\n" ++
  "  parse [--json] <words>...              Parse one chat message\n" ++
  "  chat [--sender ID] [--channel ID]      Answer messages read from stdin, one per line\n" ++
  "  commands                               List the commands the bot understands\n" ++
  "  config [key]                           Show the loaded configuration\n\n" ++
  "Options:\n" ++
  "  -c, --config PATH   Read settings from this file\n" ++
  "  -h, --help          Print help\n" ++
  "  -V, --version       Print version\n"

end ChatOps.CommandLine
