/-
Files that settings may stand in. What is found at a path decides whether a file counts as absent:
the file for all projects does unless it is a file, the file of a project only when nothing is
there at all, and a file that is named explicitly never does.
-/
import ChatOps.Config.Layer
import ChatOps.Text.Utf8

namespace ChatOps

open Text

/-- The path of a name in a directory. A slash that the directory ends in is not doubled. -/
def pathIn (directory name : String) : String :=
  match directory.toList.getLast? with
  | none => name
  | some '/' => directory ++ name
  | some _ => directory ++ "/" ++ name

/-- Why nothing is found at a path. -/
inductive PathFault where
  | notFound
  /-- The path goes on behind a file. -/
  | notDirectory
  | nameTooLong
  /-- The links on the way are too many to follow. -/
  | tooManyLinks
deriving DecidableEq, Repr

/-- What the system says of a fault. -/
def PathFault.message : PathFault → String
  | .notFound => "No such file or directory (os error 2)"
  | .notDirectory => "Not a directory (os error 20)"
  | .nameTooLong => "File name too long (os error 36)"
  | .tooManyLinks => "Too many levels of symbolic links (os error 40)"

/-- What is found at a path. -/
inductive FileContent where
  | absent (fault : PathFault)
  | directory
  /-- A file that does not let itself be read. -/
  | unreadable (reason : String)
  | octets (content : List UInt8)
deriving DecidableEq, Repr

/-- A path and what is found there. -/
structure ConfigFile where
  path : String
  content : FileContent
deriving DecidableEq, Repr

namespace ConfigFile

/-- The layer a file holds. -/
def read (f : ConfigFile) : Except ConfigError ConfigLayer :=
  match f.content with
  | .absent fault => .error (.io f.path fault.message)
  | .directory => .error (.io f.path "config path is a directory, not a file")
  | .unreadable reason => .error (.io f.path reason)
  | .octets content =>
    match decodeUtf8 content with
    | .error _ => .error (.io f.path "stream did not contain valid UTF-8")
    | .ok cs =>
      match ConfigLayer.ofToml? (String.ofList cs) with
      | none => .error (.parse f.path "not a TOML document of these settings")
      | some layer => .ok layer

/-- The layer of the file for all projects. Whatever is no file counts as absent. -/
def readGlobal (f : ConfigFile) : Except ConfigError ConfigLayer :=
  match f.content with
  | .absent _ => .ok {}
  | .directory => .ok {}
  | _ => f.read

/-- The layer of the file of a project. Only nothing at all counts as absent. -/
def readProject (f : ConfigFile) : Except ConfigError ConfigLayer :=
  match f.content with
  | .absent _ => .ok {}
  | _ => f.read

end ConfigFile

end ChatOps
