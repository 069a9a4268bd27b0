import SyncedConfig.Bytes.Utf8
import SyncedConfig.Bytes.Hex
import SyncedConfig.Bytes.Base64
import SyncedConfig.Unicode.Blank
import SyncedConfig.Unicode.Extender
import SyncedConfig.Unicode.Printable
import SyncedConfig.Unicode.Lowercase
import SyncedConfig.Decimal.Notation
import SyncedConfig.Text.Quoted
import SyncedConfig.Text.Cut
import SyncedConfig.Json.Printer
import SyncedConfig.Json.Fault
import SyncedConfig.Json.Reader.Text
import SyncedConfig.Json.Reader.Number
import SyncedConfig.Json.Reader.Document
import SyncedConfig.Json.Reader.Ignored
import SyncedConfig.KeyMap
import SyncedConfig.Schema.Basic
import SyncedConfig.Schema.Write
import SyncedConfig.Schema.Read
import SyncedConfig.Identifier
import SyncedConfig.ServerUrl
import SyncedConfig.Duration
import SyncedConfig.Record.Member
import SyncedConfig.Record.Conversation
import SyncedConfig.Record.UserGroup
import SyncedConfig.Record.GroupInfo
import SyncedConfig.Delta
import SyncedConfig.Config.Collection
import SyncedConfig.Config.Single
import SyncedConfig.Host.Abi
import SyncedConfig.Proofs.Run
import SyncedConfig.Proofs.Batch
import SyncedConfig.Proofs.History
import SyncedConfig.Proofs.Snapshot
import SyncedConfig.Proofs.NoteTimer
import SyncedConfig.Proofs.Delivery
import SyncedConfig.Proofs.Redelivery
import SyncedConfig.Proofs.Reading.Basic
import SyncedConfig.Proofs.Reading.Number
import SyncedConfig.Proofs.Reading.Printed
import SyncedConfig.Proofs.Reading.Document
import SyncedConfig.Proofs.KeyMap
import SyncedConfig.Proofs.WellFormed
import SyncedConfig.Proofs.DeltaFormat
import SyncedConfig.Proofs.Spelling.Grammar
import SyncedConfig.Proofs.Spelling.Printed
import SyncedConfig.Proofs.Spelling.Text
import SyncedConfig.Proofs.Spelling.Rows
import SyncedConfig.Proofs.Spelling.Skipped
import SyncedConfig.Proofs.Spelling.Schema
import SyncedConfig.Proofs.Spelling.Records
import SyncedConfig.Proofs.Spelling.Written
import SyncedConfig.Proofs.Spelling.Deltas
import SyncedConfig.Proofs.Spelling.Refused
import SyncedConfig.Proofs.Spelling.Gap
import SyncedConfig.Proofs.Spelling.Numbers
import SyncedConfig.Proofs.Accepted.Basic
import SyncedConfig.Proofs.Accepted.Text
import SyncedConfig.Proofs.Accepted.Number
import SyncedConfig.Proofs.Accepted.Brackets
import SyncedConfig.Proofs.Accepted.Skipped
import SyncedConfig.Proofs.Accepted.Schema
import SyncedConfig.Proofs.Accepted.Records
import SyncedConfig.Proofs.Accepted.Values
import SyncedConfig.Proofs.Accepted.Unique
import SyncedConfig.Proofs.Text.Order
import SyncedConfig.Proofs.Text.Cut
import SyncedConfig.Proofs.Text.Valid
import SyncedConfig.Proofs.Dump.Octets
import SyncedConfig.Proofs.Dump.Faithful
import SyncedConfig.Proofs.Dump.Shown
import SyncedConfig.Proofs.Dump.Due
import SyncedConfig.Proofs.Dump.Blocks
import SyncedConfig.Proofs.Dump.Plain
import SyncedConfig.Proofs.Collection.LastWrite
import SyncedConfig.Proofs.Dump.Numbers
import SyncedConfig.Proofs.Dump.Base64
import SyncedConfig.Proofs.Collection.Lookup
import SyncedConfig.Proofs.Collection.Draft
import SyncedConfig.Proofs.Collection.Transfer
import SyncedConfig.Proofs.Collection.Independent
import SyncedConfig.Proofs.Collection.Communities
import SyncedConfig.Proofs.Collection.Spellings
import SyncedConfig.Proofs.Collection.Origin
import SyncedConfig.Proofs.Collection.People
import SyncedConfig.Proofs.Collection.MemberList
import SyncedConfig.Proofs.Collection.Accounts
import SyncedConfig.Proofs.ServerKey
import SyncedConfig.Proofs.IdentifierCheck
import SyncedConfig.Proofs.Reading.Refusal
import SyncedConfig.Proofs.CanonicalUrl
import SyncedConfig.Proofs.Hex
import SyncedConfig.Proofs.Identifier
import SyncedConfig.Proofs.Vocabulary
import SyncedConfig.Proofs.Wording
import SyncedConfig.Proofs.Host.Legible
import SyncedConfig.Proofs.Host.Report
import SyncedConfig.Proofs.Host.Session
import SyncedConfig.Proofs.Host.Handover
import SyncedConfig.Proofs.Host.Bounded
import SyncedConfig.Proofs.Host.Blinding
