import ChatOps.Config.OfJson
import ChatOps.Main
import ChatOps.Proofs.Text.Utf8
import ChatOps.Proofs.Chat.Session
import ChatOps.Proofs.Message.Binding
import ChatOps.Proofs.Message.Ownership
import ChatOps.Proofs.Message.Assignment
import ChatOps.Proofs.NameMap
import ChatOps.Proofs.Query
import ChatOps.Proofs.Registry.Reachable
import ChatOps.Proofs.Text.Words
import ChatOps.Proofs.Message.Canonical
import ChatOps.Proofs.Registry.Canonical
import ChatOps.Proofs.Builtin.Language
import ChatOps.Proofs.Builtin.Arguments
import ChatOps.Proofs.Builtin.Understanding
import ChatOps.Proofs.Chat.Address
import ChatOps.Proofs.Message.Fault
import ChatOps.Proofs.Registry.Fault
import ChatOps.Proofs.Registry.History
import ChatOps.Proofs.Chat.Secrecy
import ChatOps.Proofs.Config.Precedence
import ChatOps.Proofs.Config.OfJson
import ChatOps.Proofs.Chat.Room
import ChatOps.Proofs.Message.KeywordOrder
import ChatOps.Proofs.Message.Rereading
import ChatOps.Proofs.Registry.Rereading
import ChatOps.Proofs.Message.Typing
import ChatOps.Proofs.Registry.Typing
import ChatOps.Proofs.Text.Octets
import ChatOps.Proofs.Chat.Mention
import ChatOps.Proofs.Json
import ChatOps.Proofs.Registry.Encoding
import ChatOps.Proofs.Command.Validator
import ChatOps.Proofs.Message.Spacing
import ChatOps.Proofs.Registry.Help
import ChatOps.Proofs.Registry.Subcommands
import ChatOps.Proofs.CommandLine.Run
