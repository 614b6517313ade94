/-
The program: it reads its surroundings, runs what the command line asks for, and writes what comes
of it. A chat is answered line by line as it comes in.
-/
import ChatOps.CommandLine.Run

namespace ChatOps.CommandLine

/-- What a fault of the system says about a path. Some calls give its number as a negative one. -/
def ofFault (code : UInt32) (detail : String) : FileContent :=
  match min code (0 - code) with
  | 20 => .absent .notDirectory
  | 21 => .directory
  | 36 => .absent .nameTooLong
  | 40 => .absent .tooManyLinks
  | number => .unreadable s!"{detail.capitalize} (os error {number})"

/-- What is found at a path. -/
def contentAt (path : String) : IO FileContent := do
  try
    return .octets (← IO.FS.readBinFile path).toList
  catch
    | .noFileOrDirectory .. => return .absent .notFound
    | .inappropriateType _ code detail => return ofFault code detail
    | .invalidArgument _ code detail => return ofFault code detail
    | .permissionDenied _ code detail => return ofFault code detail
    | e => return .unreadable (toString e)

/-- The surroundings of the program, with the files that settings may stand in. -/
def surroundings (path : Option String) : IO Surroundings := do
  let names := Environment.keys ++ ["HOME", "XDG_CONFIG_HOME"]
  let vars ← names.filterMapM fun name => do
    return (← IO.getEnv name).map fun value => (name, value)
  let bare : Surroundings := {
    directory := (← IO.currentDir).toString
    environment := fun name => vars.lookup name
    file := fun _ => .absent .notFound }
  let contents ← (bare.configPaths path).mapM fun p => do return (p, ← contentAt p)
  return { bare with file := fun p => (contents.lookup p).getD (.absent .notFound) }

/-- Writes octets. -/
def put (octets : List UInt8) : IO Unit := do
  let out ← IO.getStdout
  out.write ⟨octets.toArray⟩
  out.flush

/-- The next line of the standard input, with the line feed that ends it. -/
def nextLine : IO (List UInt8) := do
  let input ← IO.getStdin
  let mut line := #[]
  repeat
    let octet ← input.read 1
    line := line ++ octet.data
    if octet.isEmpty || octet.data == #[10] then break
  return line.toList

/-- Writes what a run wrote and why it failed, and gives the status it ends with. -/
def finish (o : Outcome) : IO UInt32 := do
  put o.output
  IO.eprint o.errorText
  return UInt32.ofNat o.exitCode

/-- Answers the lines of the standard input until it ends. -/
def converse (s : Session) : IO UInt32 := do
  repeat
    let line ← nextLine
    if line.isEmpty then break
    match s.event line with
    | .error fault => return ← finish (.failed (.unreadable fault))
    | .ok (.message m) => put (s.replyOctets m)
    | .ok _ => pure ()
  return 0

/-- Runs an invocation. -/
def Invocation.execute (i : Invocation) : IO UInt32 := do
  match i.prepare (← surroundings i.configPath) with
  | .error failure => finish (.failed failure)
  | .ok (config, registry) =>
    match i.task with
    | .chat sender channel => converse (session registry config sender channel)
    | task => finish (task.run registry config [])

end ChatOps.CommandLine

open ChatOps ChatOps.CommandLine

def main (args : List String) : IO UInt32 := do
  match Invocation.read args with
  | .error stop => finish stop.outcome
  | .ok i => i.execute
