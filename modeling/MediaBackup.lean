import MediaBackup.CodePoint.Class
import MediaBackup.CodePoint.Decomposition
import MediaBackup.CodePoint.Direction
import MediaBackup.CodePoint.Joining
import MediaBackup.CodePoint.NormalForm
import MediaBackup.CodePoint.Table
import MediaBackup.Config.Endpoint
import MediaBackup.Config.Settings
import MediaBackup.Config.Setup
import MediaBackup.Decimal.Extended
import MediaBackup.Decimal.Read
import MediaBackup.Decimal.Shortest
import MediaBackup.Decimal.Text
import MediaBackup.Engine.Call
import MediaBackup.Engine.Script
import MediaBackup.Error.Host
import MediaBackup.Error.Setting
import MediaBackup.Error.Setup
import MediaBackup.Error.Store
import MediaBackup.Error.Sync
import MediaBackup.Event.Basic
import MediaBackup.Event.Bus
import MediaBackup.Event.Wire
import MediaBackup.Files.Tree
import MediaBackup.Files.Written
import MediaBackup.Hash.Sip
import MediaBackup.Job.Basic
import MediaBackup.Job.Constraints
import MediaBackup.Job.Key
import MediaBackup.Job.Retry
import MediaBackup.Job.State
import MediaBackup.Json.Record
import MediaBackup.Json.Scalar
import MediaBackup.Json.Source
import MediaBackup.Json.Tree
import MediaBackup.Json.Writer
import MediaBackup.Ledger.Basic
import MediaBackup.Library.Walk
import MediaBackup.Library.Source
import MediaBackup.Log.Directive
import MediaBackup.Log.Field
import MediaBackup.Log.Filter
import MediaBackup.Log.Level
import MediaBackup.Log.Pattern
import MediaBackup.Log.Pattern.Letters
import MediaBackup.Log.Pattern.Reader
import MediaBackup.Log.Redact
import MediaBackup.Log.Span
import MediaBackup.Network.Info
import MediaBackup.Network.Probe
import MediaBackup.Pass.Backup
import MediaBackup.Pass.Basic
import MediaBackup.Pass.Crew
import MediaBackup.Queue.Attempt
import MediaBackup.Queue.Basic
import MediaBackup.Queue.Enqueue
import MediaBackup.Queue.Due
import MediaBackup.Rehearsal.Hosts
import MediaBackup.Rehearsal.Machine
import MediaBackup.Rehearsal.Passes
import MediaBackup.Rehearsal.World
import MediaBackup.Service.Bootstrap
import MediaBackup.Service.Loop
import MediaBackup.Store.Cell
import MediaBackup.Store.Database
import MediaBackup.Store.FirstPage
import MediaBackup.Store.Items
import MediaBackup.Store.Jobs
import MediaBackup.Store.Location
import MediaBackup.Store.Numeral
import MediaBackup.Store.Opening
import MediaBackup.Store.Row
import MediaBackup.Text.Bytes
import MediaBackup.Text.Quoted
import MediaBackup.Text.Visible
import MediaBackup.Time.Duration
import MediaBackup.Time.Instant
import MediaBackup.Upload.Attempt
import MediaBackup.Upload.Transfer
import MediaBackup.Upload.Request
import MediaBackup.Upload.Settings
import MediaBackup.Url.Basic
import MediaBackup.Url.Domain
import MediaBackup.Url.Host
import MediaBackup.Url.Label
import MediaBackup.Url.NameForm
import MediaBackup.Url.Parse
import MediaBackup.Url.Percent
import MediaBackup.Url.Punycode
import MediaBackup.Proofs.Job.Delay
import MediaBackup.Proofs.Job.Key
import MediaBackup.Proofs.Job.Names
import MediaBackup.Proofs.Store.Reading
import MediaBackup.Proofs.Store.Table
import MediaBackup.Proofs.Engine.Protocol
import MediaBackup.Proofs.Workers.Basic
import MediaBackup.Proofs.Workers.Customs
import MediaBackup.Proofs.Workers.Keeping
import MediaBackup.Proofs.Workers.Sane
import MediaBackup.Proofs.Workers.Exclusion
import MediaBackup.Proofs.Workers.Requests
import MediaBackup.Proofs.Upload.Whole
import MediaBackup.Proofs.Queue.Rules
import MediaBackup.Proofs.Upload.Pipe
import MediaBackup.Proofs.Upload.Leg
import MediaBackup.Proofs.Upload.Acknowledged
import MediaBackup.Proofs.Pass.Crew
import MediaBackup.Proofs.Pass.Rules
import MediaBackup.Proofs.Life.Scene
import MediaBackup.Proofs.Life.Balance
import MediaBackup.Proofs.Life.Afloat
import MediaBackup.Proofs.Life.Ashore
import MediaBackup.Proofs.Life.Line
import MediaBackup.Proofs.Life.MainLine
import MediaBackup.Proofs.Life.Aboard
import MediaBackup.Proofs.Life.Basic
import MediaBackup.Proofs.Life.Once
import MediaBackup.Proofs.Recovery.Converges
import MediaBackup.Proofs.Workers.Habits
import MediaBackup.Proofs.Workers.Fencing
import MediaBackup.Proofs.Workers.Quarantine
import MediaBackup.Proofs.Queue.Dispatching
import MediaBackup.Proofs.Workers.Conduct
import MediaBackup.Proofs.Workers.Moves
import MediaBackup.Proofs.Workers.Observed
import MediaBackup.Proofs.Workers.Lifecycle
import MediaBackup.Proofs.Workers.Backoff
import MediaBackup.Proofs.Workers.Budget
import MediaBackup.Proofs.Store.Codec
import MediaBackup.Proofs.Text.Order
import MediaBackup.Proofs.Ledger.Programs
import MediaBackup.Proofs.Ledger.History
import MediaBackup.Proofs.Ledger.Scanning
import MediaBackup.Proofs.Commons.Basic
import MediaBackup.Proofs.Commons.Manners
import MediaBackup.Proofs.Commons.Kept
import MediaBackup.Proofs.Commons.Tombstones
import MediaBackup.Proofs.Store.ItemReading
import MediaBackup.Proofs.Commons.Dispatch
import MediaBackup.Proofs.Network.Agreement
import MediaBackup.Proofs.Pass.Gating
import MediaBackup.Proofs.Queue.Gathering
import MediaBackup.Proofs.Workers.Counting
import MediaBackup.Proofs.Queue.Covering
import MediaBackup.Proofs.Pass.Permits
import MediaBackup.Proofs.Pass.Fleet
import MediaBackup.Proofs.Pass.Chronicle
import MediaBackup.Proofs.Pass.Faults
import MediaBackup.Proofs.Pass.Standing
import MediaBackup.Proofs.Pass.Housekeeping
import MediaBackup.Proofs.Pass.Convoy
import MediaBackup.Proofs.Pass.Reports
import MediaBackup.Proofs.Store.Order
import MediaBackup.Proofs.Queue.Listing
import MediaBackup.Proofs.Queue.Healing
import MediaBackup.Proofs.Queue.Starting
import MediaBackup.Proofs.Queue.Pruning
import MediaBackup.Proofs.Queue.Rounds
import MediaBackup.Proofs.Queue.Telling
import MediaBackup.Proofs.Queue.Delaying
import MediaBackup.Proofs.Text.Reading
import MediaBackup.Proofs.Files.Written
import MediaBackup.Proofs.Library.Walking
import MediaBackup.Proofs.Library.Ids
import MediaBackup.Proofs.Json.Reading
import MediaBackup.Proofs.Event.Wire
import MediaBackup.Proofs.Service.Limits
import MediaBackup.Proofs.Url.Redaction
