import Cascade.Buffer.Execution
import Cascade.Buffer.Records
import Cascade.Buffer.Statements
import Cascade.Buffer.Window
import Cascade.CommandLine.Failure
import Cascade.CommandLine.Files
import Cascade.CommandLine.Reply
import Cascade.CommandLine.Usage
import Cascade.Coordinator.Basic
import Cascade.Coordinator.Flush
import Cascade.Coordinator.Submit
import Cascade.Counts
import Cascade.Decimal.Binary64
import Cascade.Decimal.Numeral
import Cascade.Decimal.Shortest
import Cascade.Describe
import Cascade.Dictionary
import Cascade.Journal.Entry
import Cascade.Journal.Event
import Cascade.Journal.Line
import Cascade.Journal.Outlet
import Cascade.Journal.Severity
import Cascade.Json.Document
import Cascade.Json.Fields
import Cascade.Json.Number
import Cascade.Json.Reader
import Cascade.Json.Token
import Cascade.Json.Value
import Cascade.Json.Writer
import Cascade.Main
import Cascade.Metrics
import Cascade.Policy
import Cascade.Proofs.Calls
import Cascade.Proofs.Chronicle
import Cascade.Proofs.Commit
import Cascade.Proofs.Conservation
import Cascade.Proofs.Entries
import Cascade.Proofs.FailedFlush
import Cascade.Proofs.FlushOrder
import Cascade.Proofs.Flushes
import Cascade.Proofs.Ledger
import Cascade.Proofs.Moves
import Cascade.Proofs.Operations
import Cascade.Proofs.Ordering
import Cascade.Proofs.Parcels
import Cascade.Proofs.Plans
import Cascade.Proofs.Recording
import Cascade.Proofs.Stages
import Cascade.Proofs.Tenure
import Cascade.Proofs.WellFormed
import Cascade.Record.Basic
import Cascade.Record.Descriptor
import Cascade.Record.Json
import Cascade.Replay.Report
import Cascade.Replay.Script
import Cascade.Replay.Setup
import Cascade.Request
import Cascade.Sorting
import Cascade.Statement
import Cascade.Store.Basic
import Cascade.Store.Memory
import Cascade.Store.Rehearsed
import Cascade.Text.Blank
import Cascade.Text.Lines
import Cascade.Text.Quoted
import Cascade.Text.Shapeless
import Cascade.Text.Utf8
import Cascade.Transaction
import Cascade.WriteError
import Cascade.Proofs.Precedence
import Cascade.Proofs.Literals
import Cascade.Proofs.Keys
import Cascade.Proofs.Custody
import Cascade.Proofs.Line
import Cascade.Proofs.Submissions
import Cascade.Proofs.Tickets
import Cascade.Proofs.Passages
import Cascade.Proofs.Deliveries
import Cascade.Proofs.SubmissionOrder
import Cascade.Proofs.MixedOrder
import Cascade.Proofs.Transparency
import Cascade.Proofs.KeyOwners
import Cascade.Proofs.Refusals
import Cascade.Proofs.Errands
import Cascade.Proofs.Ending
import Cascade.Proofs.Accounts
import Cascade.Proofs.Balances
import Cascade.Proofs.Renaming
import Cascade.Proofs.Replays
import Cascade.Proofs.Fetching
import Cascade.Proofs.Marks
import Cascade.Proofs.Interleaving
import Cascade.Proofs.DepthWindow
import Cascade.Proofs.ForcedReset
import Cascade.Proofs.Pieces
import Cascade.Proofs.Grouping
import Cascade.Proofs.Thresholds
import Cascade.Proofs.CallSizes
import Cascade.Proofs.ReadBack
import Cascade.Proofs.RecordForms
import Cascade.Proofs.OperationForms
import Cascade.Proofs.Utf8
import Cascade.Proofs.ScriptLines
import Cascade.Proofs.StatementShapes
import Cascade.Proofs.Words
import Cascade.Proofs.ByteOrder
import Cascade.Proofs.JournalLines
import Cascade.Proofs.Logbook
import Cascade.Proofs.StoreTrace
import Cascade.Proofs.Columns
