import Ledger.Account
import Ledger.AccountTable
import Ledger.Call.Account
import Ledger.Call.Basic
import Ledger.Call.Request
import Ledger.Call.Transfer
import Ledger.CommandLine.Basic
import Ledger.CommandLine.Reader
import Ledger.Config
import Ledger.Csv
import Ledger.Currency
import Ledger.Decimal.Basic
import Ledger.Decimal.Binary64
import Ledger.Decimal.Text
import Ledger.Duration
import Ledger.Error
import Ledger.Event
import Ledger.Filter
import Ledger.Json.Basic
import Ledger.Json.Number
import Ledger.Json.Reader
import Ledger.Json.Writer
import Ledger.Main
import Ledger.Operation.Basic
import Ledger.Operation.Draft
import Ledger.Operation.Reader
import Ledger.Operation.Writer
import Ledger.Program
import Ledger.Proofs.AccountTable
import Ledger.Proofs.Call.Alone
import Ledger.Proofs.Call.Effect
import Ledger.Proofs.Call.Length
import Ledger.Proofs.Call.LockOrder
import Ledger.Proofs.Call.NewAccount
import Ledger.Proofs.Call.Orderly
import Ledger.Proofs.Call.Reaches
import Ledger.Proofs.Concurrent.Deadlock
import Ledger.Proofs.Concurrent.Invariant
import Ledger.Proofs.Concurrent.Linearizability
import Ledger.Proofs.Concurrent.Outcome
import Ledger.Proofs.Concurrent.Overdraft
import Ledger.Proofs.Concurrent.Progress
import Ledger.Proofs.Concurrent.Termination
import Ledger.Proofs.Config.Backoff
import Ledger.Proofs.Config.Validated
import Ledger.Proofs.Csv.Lines
import Ledger.Proofs.Csv.Spelling
import Ledger.Proofs.Decimal.Exact
import Ledger.Proofs.Decimal.Fits
import Ledger.Proofs.Decimal.Printing
import Ledger.Proofs.Decimal.Reading
import Ledger.Proofs.Decimal.Rescale
import Ledger.Proofs.Decimal.Sums
import Ledger.Proofs.Event
import Ledger.Proofs.Json.Members
import Ledger.Proofs.Json.RoundTrip
import Ledger.Proofs.Json.Tokens
import Ledger.Proofs.Operation.Lines
import Ledger.Proofs.Operation.RoundTrip
import Ledger.Proofs.Operation.Rows
import Ledger.Proofs.Operation.Texts
import Ledger.Proofs.Publisher
import Ledger.Proofs.Record
import Ledger.Proofs.Relay.Attempts
import Ledger.Proofs.Relay.KeepsAll
import Ledger.Proofs.Replay.Amounts
import Ledger.Proofs.Replay.Applied
import Ledger.Proofs.Rules.Account
import Ledger.Proofs.Rules.Basic
import Ledger.Proofs.Rules.Disjoint
import Ledger.Proofs.Rules.Hidden
import Ledger.Proofs.Rules.Transfer
import Ledger.Proofs.Service.Announced
import Ledger.Proofs.Service.Influence
import Ledger.Proofs.Service.Paging
import Ledger.Proofs.Simulation.Accounts
import Ledger.Proofs.Simulation.Audit
import Ledger.Proofs.Simulation.Balance
import Ledger.Proofs.Simulation.Interleaving
import Ledger.Proofs.Store.AppendOnly
import Ledger.Proofs.Store.Clients
import Ledger.Proofs.Store.Conflicts
import Ledger.Proofs.Store.Locks
import Ledger.Proofs.Store.Tables
import Ledger.Proofs.Store.UnitOfWork
import Ledger.Proofs.Store.WriteBuffer
import Ledger.Proofs.Store.Writes
import Ledger.Proofs.Tables.Authority
import Ledger.Proofs.Tables.Books
import Ledger.Proofs.Tables.Changes
import Ledger.Proofs.Tables.Payments
import Ledger.Proofs.Tables.Versions
import Ledger.Proofs.Text.Numeral
import Ledger.Proofs.Timestamp.Printing
import Ledger.Publisher
import Ledger.Record
import Ledger.Relay
import Ledger.Replay
import Ledger.Scenario.Bus
import Ledger.Scenario.Fault
import Ledger.Scenario.Run
import Ledger.Scenario.Scene
import Ledger.Scenario.Task
import Ledger.Service
import Ledger.Simulation.Basic
import Ledger.Simulation.Plan
import Ledger.Simulation.Report
import Ledger.Simulation.Run
import Ledger.Store.Basic
import Ledger.Store.Tables
import Ledger.Store.UnitOfWork
import Ledger.Text.Blank
import Ledger.Text.Integer
import Ledger.Text.Numeral
import Ledger.Text.Utf8
import Ledger.Timestamp.Basic
import Ledger.Timestamp.Text
import Ledger.Transaction
