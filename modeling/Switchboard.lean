import Switchboard.App.Boundary
import Switchboard.App.Build
import Switchboard.App.Callbacks
import Switchboard.App.Drive
import Switchboard.App.Env
import Switchboard.App.Future
import Switchboard.App.Responder
import Switchboard.App.Run
import Switchboard.App.Script
import Switchboard.App.State
import Switchboard.Bench.Run
import Switchboard.Bench.Script
import Switchboard.Bench.World
import Switchboard.Config
import Switchboard.Config.Document
import Switchboard.Config.Environment
import Switchboard.Context.Local
import Switchboard.Context.Orders
import Switchboard.Context.Worker
import Switchboard.Continuation
import Switchboard.Duration
import Switchboard.Fault
import Switchboard.Handle
import Switchboard.Json
import Switchboard.Json.Number
import Switchboard.Json.Printer
import Switchboard.Json.Reader
import Switchboard.Json.Token
import Switchboard.Lifecycle
import Switchboard.Log
import Switchboard.Message
import Switchboard.Pending
import Switchboard.Pending.History
import Switchboard.Pending.Ledger
import Switchboard.Permit
import Switchboard.Place
import Switchboard.Proofs.App.Accounts
import Switchboard.Proofs.App.Callbacks
import Switchboard.Proofs.App.Drives
import Switchboard.Proofs.App.Listeners
import Switchboard.Proofs.App.Operations
import Switchboard.Proofs.App.Placement
import Switchboard.Proofs.App.Sends
import Switchboard.Proofs.App.Tallies
import Switchboard.Proofs.App.Teardown
import Switchboard.Proofs.App.Workers
import Switchboard.Proofs.Bench.Accounts
import Switchboard.Proofs.Bench.Programs
import Switchboard.Proofs.Bench.Reentrance
import Switchboard.Proofs.Continuation.Order
import Switchboard.Proofs.Continuation.Stages
import Switchboard.Proofs.Foreign.Deliveries
import Switchboard.Proofs.Foreign.Hosts
import Switchboard.Proofs.Foreign.Mail
import Switchboard.Proofs.Foreign.Mimicry
import Switchboard.Proofs.Foreign.Refinement
import Switchboard.Proofs.Foreign.Turns
import Switchboard.Proofs.Lifecycle.Announcements
import Switchboard.Proofs.Lifecycle.Progress
import Switchboard.Proofs.Pending.Agreement
import Switchboard.Proofs.Pending.Balance
import Switchboard.Proofs.Pending.Endings
import Switchboard.Proofs.Pending.Marks
import Switchboard.Proofs.Pending.Owed
import Switchboard.Proofs.Pending.Registration
import Switchboard.Proofs.Pending.Sharding
import Switchboard.Proofs.Pending.Shards
import Switchboard.Proofs.Programs
import Switchboard.Proofs.Router.Conduct
import Switchboard.Proofs.Router.Correspondence
import Switchboard.Proofs.Router.SingleEnding
import Switchboard.Proofs.Run.Books
import Switchboard.Proofs.Run.Counting
import Switchboard.Proofs.Run.Course
import Switchboard.Proofs.Run.Embedding
import Switchboard.Proofs.Run.Line
import Switchboard.Proofs.Run.Order
import Switchboard.Proofs.Run.Pace
import Switchboard.Proofs.Run.Phases
import Switchboard.Proofs.Run.Report
import Switchboard.Proofs.Run.Runner
import Switchboard.Proofs.Run.Stop
import Switchboard.Proofs.Run.Tally
import Switchboard.Router
import Switchboard.Text.Blank
import Switchboard.Text.Numeral
import Switchboard.Text.Printable
import Switchboard.Text.Quoted
import Switchboard.Proofs.Context.Shifts
import Switchboard.Proofs.Context.Workshops
import Switchboard.Proofs.Router.Closing
import Switchboard.Proofs.Run.Arrivals
import Switchboard.Proofs.Run.Closing
import Switchboard.Proofs.Foreign.Completions
import Switchboard.Proofs.Foreign.Fates
import Switchboard.Proofs.Foreign.Handles
import Switchboard.Proofs.Config.TimeLimits
import Switchboard.Proofs.Router.Station
import Switchboard.Proofs.Router.Cancelling
import Switchboard.Proofs.Context.Nesting
import Switchboard.Proofs.Context.Pumping
import Switchboard.Proofs.Continuation.Jobs
import Switchboard.Proofs.Router.OneWay
import Switchboard.Proofs.Foreign.Refusals
import Switchboard.Proofs.Handle.Histories
import Switchboard.Proofs.Text.Decimals
import Switchboard.Proofs.Json.Spelling
import Switchboard.Proofs.Config.Sources
import Switchboard.Proofs.Permit.Desk
import Switchboard.Proofs.App.Slots
import Switchboard.Proofs.Fault.Wording
import Switchboard.Proofs.Text.Numerals
import Switchboard.Proofs.Config.Variables
import Switchboard.Proofs.App.Watches
import Switchboard.Proofs.App.Tending
import Switchboard.Proofs.App.Heeding
import Switchboard.Proofs.App.Heedful
import Switchboard.Proofs.App.Turning
import Switchboard.Proofs.App.Awaiting
import Switchboard.Proofs.App.Acknowledging
import Switchboard.Proofs.App.Futures
import Switchboard.Proofs.Run.Dealings
import Switchboard.Proofs.Run.Numbering
import Switchboard.Proofs.Run.Parley
import Switchboard.Proofs.Run.Cues
import Switchboard.Proofs.Run.Replies
import Switchboard.Proofs.Run.Answers
import Switchboard.Proofs.Run.Headway
import Switchboard.Proofs.Run.Conversation
import Switchboard.Proofs.App.Makings
import Switchboard.Proofs.App.Showing
import Switchboard.Proofs.App.Performances
import Switchboard.Proofs.App.Chronicle
import Switchboard.Proofs.App.LastCalls
import Switchboard.Proofs.Run.Performances
import Switchboard.Proofs.Run.Befalling
import Switchboard.Proofs.Run.InOrder
import Switchboard.Proofs.Run.Hearing
