import PlatformAdmin.Capability
import PlatformAdmin.Command
import PlatformAdmin.Command.DeleteUser
import PlatformAdmin.Command.UpdateServiceBroker
import PlatformAdmin.CommandLine
import PlatformAdmin.CommandResult
import PlatformAdmin.Config
import PlatformAdmin.Config.Document
import PlatformAdmin.Config.File
import PlatformAdmin.Credential
import PlatformAdmin.Environment
import PlatformAdmin.Execution
import PlatformAdmin.Gateway
import PlatformAdmin.Http.Message
import PlatformAdmin.Http.ScriptedServer
import PlatformAdmin.Http.Status
import PlatformAdmin.Invocation
import PlatformAdmin.Json.Basic
import PlatformAdmin.Json.Reader
import PlatformAdmin.Json.Record
import PlatformAdmin.Main
import PlatformAdmin.PendingWarnings
import PlatformAdmin.PlatformClient
import PlatformAdmin.PlatformClient.Reply
import PlatformAdmin.Program
import PlatformAdmin.Requirements
import PlatformAdmin.Response
import PlatformAdmin.Terminal
import PlatformAdmin.Text.Ascii
import PlatformAdmin.Text.Blank
import PlatformAdmin.Text.Hexadecimal
import PlatformAdmin.Text.Quoted
import PlatformAdmin.Text.Unprintable
import PlatformAdmin.Text.Utf8
import PlatformAdmin.Toml.Document
import PlatformAdmin.Toml.Lexeme
import PlatformAdmin.Toml.Quotation
import PlatformAdmin.Toml.Statement
import PlatformAdmin.Toml.Value
import PlatformAdmin.Url.Basic
import PlatformAdmin.Url.Percent
import PlatformAdmin.Url.Server
import PlatformAdmin.Proofs.Conversation
import PlatformAdmin.Proofs.SecretSources
import PlatformAdmin.Proofs.Gates
import PlatformAdmin.Proofs.Courses
import PlatformAdmin.Proofs.Records
import PlatformAdmin.Proofs.Marks
import PlatformAdmin.Proofs.Reports
import PlatformAdmin.Proofs.TwoRuns
import PlatformAdmin.Proofs.Secrecy
import PlatformAdmin.Proofs.FlagWords
import PlatformAdmin.Proofs.Traffic
import PlatformAdmin.Proofs.Trimming
import PlatformAdmin.Proofs.Consent
import PlatformAdmin.Proofs.Agreement
import PlatformAdmin.Proofs.PercentEncoding
import PlatformAdmin.Proofs.Paths
import PlatformAdmin.Proofs.Servers
import PlatformAdmin.Proofs.Sites
import PlatformAdmin.Proofs.Resources
import PlatformAdmin.Proofs.Endpoints
import PlatformAdmin.Proofs.Listings
import PlatformAdmin.Proofs.Prompts
import PlatformAdmin.Proofs.Surroundings
import PlatformAdmin.Proofs.Sessions
import PlatformAdmin.Proofs.Progress
import PlatformAdmin.Proofs.Unattended
import PlatformAdmin.Proofs.Roles
import PlatformAdmin.Proofs.FlagPlaces
import PlatformAdmin.Proofs.Lines
import PlatformAdmin.Proofs.SecretOrder
import PlatformAdmin.Proofs.Decoding
import PlatformAdmin.Proofs.WrittenStrings
import PlatformAdmin.Proofs.Tables
import PlatformAdmin.Proofs.WrittenValues
import PlatformAdmin.Proofs.WrittenDocuments
import PlatformAdmin.Proofs.ConfigFiles
import PlatformAdmin.Proofs.UpdateWords
import PlatformAdmin.Proofs.Replies
import PlatformAdmin.Proofs.Json.Grammar
import PlatformAdmin.Proofs.Json.Numbers
import PlatformAdmin.Proofs.Json.Tokens
import PlatformAdmin.Proofs.Json.Strings
import PlatformAdmin.Proofs.Json.Reading
import PlatformAdmin.Proofs.Json.Records
import PlatformAdmin.Proofs.Lookups
import PlatformAdmin.Proofs.Refusals
import PlatformAdmin.Proofs.LookupNames
import PlatformAdmin.Proofs.Json.Printing
import PlatformAdmin.Proofs.BrokerSettings
import PlatformAdmin.Proofs.WarningLists
import PlatformAdmin.Proofs.WordOrder
import PlatformAdmin.Proofs.VerbatimWords
import PlatformAdmin.Proofs.Authorization
import PlatformAdmin.Proofs.GivenKeys
import PlatformAdmin.Proofs.Continuations
import PlatformAdmin.Proofs.NamedKeys
import PlatformAdmin.Proofs.UnknownKeys
import PlatformAdmin.Proofs.Unnoticed
import PlatformAdmin.Proofs.WarningConservation
import PlatformAdmin.Proofs.UnansweredPrompts
import PlatformAdmin.Proofs.BrokenStreams
import PlatformAdmin.Proofs.Reads
import PlatformAdmin.Proofs.Takes
