/-
The commands the bot comes with.
-/
import ChatOps.Command.Choice
import ChatOps.Log
import ChatOps.Registry.Basic

namespace ChatOps

namespace Registry

/-- The registry with more commands, in order, and the log of it. -/
def registerAll (r : Registry) : List Command → Except RegistryError (Registry × List LogEvent)
  | [] => .ok (r, [])
  | c :: cs => do
    let r ← r.register c
    let (r, log) ← r.registerAll cs
    return (r, .commandRegistered c.name :: log)

end Registry

namespace Builtin

def rolloutSubcommands : List String := ["status", "pause", "resume", "history", "undo"]

/-- The lines of a log that are shown when no number is given. -/
def defaultLogLines : UInt64 := 25

def get : Command where
  name := "get"
  description := "Show a resource"
  arguments := [⟨"query", .query⟩]

def describe : Command where
  name := "describe"
  description := "Describe a resource in detail"
  arguments := [⟨"query", .query⟩]

def rollout : Command where
  name := "rollout"
  description := "Manage the rollout of a resource"
  subcommands := rolloutSubcommands
  arguments := [⟨"query", .query⟩]

def scale : Command where
  name := "scale"
  description := "Set the replica count of a resource"
  arguments := [⟨"query", .query⟩, ⟨"replicas", .validated .nonNegative none⟩]

def logs : Command where
  name := "logs"
  description := "Show the first or last lines of a resource's logs"
  arguments :=
    [⟨"query", .query⟩, .choice "direction" LogDirection,
      ⟨"lines", .validated .positive (some (.integer defaultLogLines))⟩]

def version : Command where
  name := "version"
  description := "Show the bot version"
  trailing := .ignore

def track : Command where
  name := "track"
  description := "Report deployments of a repository"
  arguments :=
    [⟨"repo", .positional⟩, ⟨"channels", .list (.marked "#")⟩,
      .choice "author_filter" AuthorFilter, .choice "result_filter" ResultFilter,
      ⟨"branches", .list .bareword⟩]

def config : Command where
  name := "config"
  description := "Show a configuration value"
  arguments := [.optional "key", .optional "value"]

def help : Command where
  name := "help"
  description := "List the commands the bot understands"
  trailing := .ignore

/-- The built-in commands, in the order they are registered. -/
def commands : List Command :=
  [get, describe, rollout, scale, logs, version, track, config, help]

/-- The registry of the built-in commands, and the log of filling it. -/
def load : Except RegistryError (Registry × List LogEvent) := do
  let (r, log) ← Registry.empty.registerAll commands
  return (r, log ++ [.builtinsLoaded r.size])

/-- The registry of the built-in commands. All of them are accepted, so it holds them all. -/
def registry : Registry :=
  match load with
  | .ok (r, _) => r
  | .error _ => .empty

example :
    registry.toList.map Command.name =
      ["config", "describe", "get", "help", "logs", "rollout", "scale", "track", "version"] := by
  decide +kernel

end Builtin

end ChatOps
