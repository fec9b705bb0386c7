import Labyrithm.Sql.Table
import Labyrithm.Sql.Transaction
import Labyrithm.Sql.ReadCommitted
import Labyrithm.Sql.Rules
import Labyrithm.Sql.Order
import Labyrithm.Sql.Published
import Labyrithm.Sql.Aggregate
import Labyrithm.Sql.Scan
import Labyrithm.Sql.Guarded
import Labyrithm.Sql.Contention
import Labyrithm.Sql.Faults
import Labyrithm.Sql.Upsert
import Labyrithm.Sql.Coalesce
import Labyrithm.Sql.Recompute
import Labyrithm.Go.Errors
import Labyrithm.Go.Strings
import Labyrithm.Go.Time
import Labyrithm.Go.Map
import Labyrithm.Go.Chan
import Labyrithm.Go.Runs
import Labyrithm.Go.Callers
import Labyrithm.Go.Unwinding
import Labyrithm.Judge.Schema
import Labyrithm.Judge.Statements
import Labyrithm.Judge.Queue
import Labyrithm.Judge.Admin
import Labyrithm.Judge.Reaper
import Labyrithm.Judge.Repository
import Labyrithm.Judge.System
import Labyrithm.Judge.Scores
import Labyrithm.Judge.Locking
import Labyrithm.Judge.StatementRules
import Labyrithm.Judge.Handlers
import Labyrithm.Judge.Invariants
import Labyrithm.Judge.Attempts
import Labyrithm.Judge.Leases
import Labyrithm.Judge.Contention
import Labyrithm.Judge.Deadlock
import Labyrithm.Judge.Completion
import Labyrithm.Judge.Versions
import Labyrithm.Judge.Broadcaster
import Labyrithm.Portal.Progress
import Labyrithm.Portal.Convergence
import Labyrithm.Team.Leaderboard
import Labyrithm.Team.Contest
import Labyrithm.Agent.Gate
import Labyrithm.TestCache.Sections
import Labyrithm.TestCache.Books
import Labyrithm.TestCache.Calls
import Labyrithm.TestCache.Accounting
import Labyrithm.TestCache.Freshness
import Labyrithm.TestCache.Coherence
import Labyrithm.Runner.Limiter
import Labyrithm.Runner.Tokens
import Labyrithm.Clock.Snapshot
import Labyrithm.Clock.Manager
import Labyrithm.Clock.WellFormed
import Labyrithm.Clock.Accounting
import Labyrithm.Clock.Pauses
import Labyrithm.Clock.Saving
import Labyrithm.Clock.Concurrent
import Labyrithm.Agent.Heartbeat
import Labyrithm.Agent.Replays
import Labyrithm.Agent.Scheduler
import Labyrithm.Agent.Nonces
import Labyrithm.Agent.Recovery
import Labyrithm.Agent.Shutdowns
import Labyrithm.Agent.Enrollment
import Labyrithm.Agent.EventLog
import Labyrithm.Agent.Leaving
import Labyrithm.Problem.Points
import Labyrithm.Problem.Tests
import Labyrithm.Problem.Ordinals
import Labyrithm.Problem.Store
import Labyrithm.Problem.Handlers
import Labyrithm.Problem.Budget
import Labyrithm.Problem.Announcements
import Labyrithm.Problem.Coherence
import Labyrithm.Problem.Edits
import Labyrithm.Problem.Suite
import Labyrithm.Problem.RowRules
import Labyrithm.Problem.Interleavings
import Labyrithm.Problem.Outages
import Labyrithm.Problem.Judgeable
import Labyrithm.Problem.Atomicity
import Labyrithm.User.Creation
import Labyrithm.Admin.Atomicity
import Labyrithm.Agent.Evidence
import Labyrithm.Telemetry.Batcher
import Labyrithm.Proctor.Signals
import Labyrithm.Proctor.Findings
import Labyrithm.Proctor.BrowserEvents
import Labyrithm.Proctor.Risk
import Labyrithm.Account.Users
import Labyrithm.Account.Administration
import Labyrithm.Account.Tracker
import Labyrithm.Account.Blocks
import Labyrithm.Agent.Unrevoking
import Labyrithm.Clock.Lifecycle
import Labyrithm.Clock.Overflow
import Labyrithm.Sql.Overlap
import Labyrithm.Team.Repository
import Labyrithm.Team.Membership
import Labyrithm.Account.Sessions
import Labyrithm.Account.SingleSession
import Labyrithm.Text.Words
import Labyrithm.Proctor.Processes
import Labyrithm.Go.Trim
import Labyrithm.Judge.Outputs
import Labyrithm.Runner.Meta
import Labyrithm.Judge.Grading
import Labyrithm.Judge.Laws
import Labyrithm.Agent.Rejections
import Labyrithm.Agent.Gaps
import Labyrithm.Team.SolvedCounts
import Labyrithm.Problem.EvenPoints
import Labyrithm.Runner.Workspace
import Labyrithm.Problem.SingleTests
import Labyrithm.Problem.Exactness
import Labyrithm.Clock.PartialSettings
import Labyrithm.Clock.Sums
import Labyrithm.Team.Ranks
import Labyrithm.Agent.Buffer
import Labyrithm.Agent.Signatures
import Labyrithm.Agent.Fingerprint
import Labyrithm.Api.RateLimits
import Labyrithm.Go.Float
import Labyrithm.Api.PasteEvidence
import Labyrithm.Agent.Dwell
import Labyrithm.Calendar.Gregorian
import Labyrithm.Text.Fields
import Labyrithm.Agent.Epoch
import Labyrithm.Js.Strings
import Labyrithm.Js.Json
import Labyrithm.Problem.BulkTests
import Labyrithm.Js.Groups
import Labyrithm.Problem.TestFiles
import Labyrithm.Roster.Lines
import Labyrithm.Roster.Imports
import Labyrithm.Text.Chunks
import Labyrithm.Portal.Stream
import Labyrithm.Judge.Fanout
import Labyrithm.Judge.Relay
import Labyrithm.Go.Texts
import Labyrithm.Agent.Policy
import Labyrithm.Agent.Versions
import Labyrithm.Runner.Limits
import Labyrithm.Api.RunSlots
import Labyrithm.Runner.Batch
import Labyrithm.Console.Pages
import Labyrithm.Portal.ContestClock
import Labyrithm.Go.Chains
import Labyrithm.Api.Routes
