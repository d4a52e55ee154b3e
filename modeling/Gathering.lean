import Gathering.Arrival.Estimate
import Gathering.Arrival.Forecast
import Gathering.Cache.Glob
import Gathering.Cache.Key
import Gathering.Cache.Redis
import Gathering.Cache.TimedMap
import Gathering.Config.Basic
import Gathering.Config.Environment
import Gathering.Coordinate
import Gathering.Decimal.Layout
import Gathering.Decimal.Reading
import Gathering.Decimal.Shortest
import Gathering.Error
import Gathering.Event
import Gathering.FanOut
import Gathering.Json.Reading
import Gathering.Json.Tree
import Gathering.Json.Value
import Gathering.Json.Writing
import Gathering.Keyed
import Gathering.Location.Sample
import Gathering.Location.Tracking
import Gathering.Outreach
import Gathering.Participant
import Gathering.Program
import Gathering.Proofs.Arrival.Forecast
import Gathering.Proofs.Arrival.Telling
import Gathering.Proofs.Cache.Alone
import Gathering.Proofs.Cache.Copying
import Gathering.Proofs.Cache.Filing
import Gathering.Proofs.Cache.Glob
import Gathering.Proofs.Cache.History
import Gathering.Proofs.Cache.Key
import Gathering.Proofs.Cache.Lifetime
import Gathering.Proofs.Cache.Paging
import Gathering.Proofs.Cache.TimedMap
import Gathering.Proofs.Config.Environment
import Gathering.Proofs.Config.Setters
import Gathering.Proofs.Crew.Basic
import Gathering.Proofs.Crew.Budget
import Gathering.Proofs.Crew.Conduct
import Gathering.Proofs.Crew.Exclusion
import Gathering.Proofs.Crew.Overdraft
import Gathering.Proofs.Crew.Solo
import Gathering.Proofs.Crew.Timing
import Gathering.Proofs.Decimal.Digits
import Gathering.Proofs.Decimal.Finite
import Gathering.Proofs.Decimal.Grammar
import Gathering.Proofs.FanOut.Course
import Gathering.Proofs.FanOut.Fates
import Gathering.Proofs.FanOut.Order
import Gathering.Proofs.FanOut.Pace
import Gathering.Proofs.Json.FreeForm
import Gathering.Proofs.Json.Numeral
import Gathering.Proofs.Json.Record
import Gathering.Proofs.Json.Strings
import Gathering.Proofs.Json.Written
import Gathering.Proofs.Keyed
import Gathering.Proofs.Location.Agreement
import Gathering.Proofs.Location.Batch
import Gathering.Proofs.Location.Durability
import Gathering.Proofs.Location.Freshness
import Gathering.Proofs.Location.Intake
import Gathering.Proofs.Location.Readback
import Gathering.Proofs.Location.Sample
import Gathering.Proofs.Location.Tracking
import Gathering.Proofs.Program.Log
import Gathering.Proofs.Program.Pool
import Gathering.Proofs.Program.Protocol
import Gathering.Proofs.Program.Run
import Gathering.Proofs.Program.Trace
import Gathering.Proofs.Rsvp
import Gathering.Proofs.Rsvp.Agreement
import Gathering.Proofs.Rsvp.Calls
import Gathering.Proofs.Rsvp.Halfway
import Gathering.Proofs.Rsvp.Mirror
import Gathering.Proofs.Rsvp.Recording
import Gathering.Proofs.Rsvp.Roster
import Gathering.Proofs.Scheduler.Accounting
import Gathering.Proofs.Scheduler.Attempts
import Gathering.Proofs.Scheduler.Cancellation
import Gathering.Proofs.Scheduler.Cancelling
import Gathering.Proofs.Scheduler.Covering
import Gathering.Proofs.Scheduler.Heeding
import Gathering.Proofs.Scheduler.Ledger
import Gathering.Proofs.Scheduler.Making
import Gathering.Proofs.Scheduler.Outreach
import Gathering.Proofs.Scheduler.Planned
import Gathering.Proofs.Scheduler.Records
import Gathering.Proofs.Scheduler.Report
import Gathering.Proofs.Scheduler.Single
import Gathering.Proofs.Scheduler.Standing
import Gathering.Proofs.Scheduler.Visits
import Gathering.Proofs.Service.Backstage
import Gathering.Proofs.Service.Calls
import Gathering.Proofs.Service.Lifecycle
import Gathering.Proofs.Snapshot.Assembly
import Gathering.Proofs.Snapshot.Confirmation
import Gathering.Proofs.Snapshot.Contents
import Gathering.Proofs.Snapshot.Isolation
import Gathering.Proofs.Sorting
import Gathering.Proofs.Store.Due
import Gathering.Proofs.Store.Earliest
import Gathering.Proofs.Store.Failing
import Gathering.Proofs.Store.Finality
import Gathering.Proofs.Store.History
import Gathering.Proofs.Store.Queries
import Gathering.Proofs.Store.Quiet
import Gathering.Proofs.Store.Readback
import Gathering.Proofs.Store.Rest
import Gathering.Proofs.Store.Sharing
import Gathering.Proofs.Store.Single
import Gathering.Proofs.Store.Stores
import Gathering.Proofs.Store.Tenure
import Gathering.Proofs.Store.Trail
import Gathering.Proofs.Task.Action
import Gathering.Proofs.Task.Naming
import Gathering.Proofs.Task.Record
import Gathering.Proofs.Task.Transition
import Gathering.Proofs.Task.WellFormed
import Gathering.Proofs.Text.Blank
import Gathering.Proofs.Text.Utf8
import Gathering.Proofs.Time.Calendar
import Gathering.Proofs.Time.Flow
import Gathering.Proofs.Time.Order
import Gathering.Proofs.Time.Saturation
import Gathering.Proofs.Time.Text
import Gathering.Rehearsal.CallKind
import Gathering.Rehearsal.Play
import Gathering.Rehearsal.Scene
import Gathering.Rehearsal.Thread
import Gathering.Rehearsal.World
import Gathering.Request
import Gathering.Rsvp
import Gathering.Scheduler.Basic
import Gathering.Scheduler.Outreach
import Gathering.Scheduler.Planning
import Gathering.Scheduler.Sweep
import Gathering.Service
import Gathering.Snapshot.Basic
import Gathering.Snapshot.Cached
import Gathering.Store.Roster
import Gathering.Store.Tasks
import Gathering.Store.Trail
import Gathering.Task.Action
import Gathering.Task.Basic
import Gathering.Task.Draft
import Gathering.Task.Transition
import Gathering.Text.Blank
import Gathering.Text.Utf8
import Gathering.Ticker
import Gathering.Time.Calendar
import Gathering.Time.Instant
import Gathering.Time.Span
import Gathering.Time.Text
