import NatsDemo.Lib.Run
import NatsDemo.Lib.Proc
import NatsDemo.Lib.Threads
import NatsDemo.Lib.Log
import NatsDemo.Lib.Leases
import NatsDemo.Lib.Sort
import NatsDemo.Lib.Firsts
import NatsDemo.Lib.Journal
import NatsDemo.Lib.Histories
import NatsDemo.Lib.Embed
import NatsDemo.Lib.Rely
import NatsDemo.Go.Number
import NatsDemo.Go.Map
import NatsDemo.Go.Rounding
import NatsDemo.Go.Json
import NatsDemo.Go.RoundTrip
import NatsDemo.Go.JsonText
import NatsDemo.Go.Time
import NatsDemo.Go.Parse
import NatsDemo.Go.Calendar
import NatsDemo.Jobs.Model
import NatsDemo.Jobs.RoundTrip
import NatsDemo.Jobs.Transport
import NatsDemo.Jobs.Service
import NatsDemo.Jobs.Records
import NatsDemo.Jobs.Accounts
import NatsDemo.Jobs.Deferred
import NatsDemo.Jobs.Audit
import NatsDemo.Jobs.Handler
import NatsDemo.Jobs.Appointment
import NatsDemo.Jobs.Outgoing
import NatsDemo.Messaging.Message
import NatsDemo.Messaging.Publisher
import NatsDemo.Messaging.Trace
import NatsDemo.Messaging.JetStream
import NatsDemo.Jobs.Reset
import NatsDemo.Processor.App
import NatsDemo.Processor.Pool
import NatsDemo.Processor.Registry
import NatsDemo.Processor.Toggle
import NatsDemo.Processor.Health
import NatsDemo.Processor.Recovery
import NatsDemo.Processor.Scaling
import NatsDemo.Processor.Ops
import NatsDemo.Processor.Worker
import NatsDemo.Processor.Core
import NatsDemo.Processor.Subscribers
import NatsDemo.Processor.Routing
import NatsDemo.Processor.World
import NatsDemo.Processor.Uses
import NatsDemo.Processor.Seen
import NatsDemo.Processor.Scenario
import NatsDemo.Processor.OneShot
import NatsDemo.Processor.Armed
import NatsDemo.Processor.DeadLetter
import NatsDemo.Processor.Genuine
import NatsDemo.Processor.Distinct
import NatsDemo.Processor.Off
import NatsDemo.Processor.EventLog
import NatsDemo.Processor.Sent
import NatsDemo.Processor.Rebind
import NatsDemo.Processor.Config
import NatsDemo.Processor.Disposal
import NatsDemo.Processor.Fate
import NatsDemo.Processor.Delays
import NatsDemo.Processor.Batch
import NatsDemo.Processor.Responders
import NatsDemo.Processor.Service
import NatsDemo.Processor.Tally
import NatsDemo.Processor.Turns
import NatsDemo.Processor.Stories
import NatsDemo.Processor.Notes
import NatsDemo.Processor.Transit
import NatsDemo.Validation.Protocol
import NatsDemo.Validation.Verdict
import NatsDemo.Control.DLQ
import NatsDemo.Control.Repair
import NatsDemo.Control.World
import NatsDemo.Control.Desk
import NatsDemo.Control.Preserve
import NatsDemo.Control.Reprocess
import NatsDemo.Control.Removals
import NatsDemo.Control.Inspection
import NatsDemo.Control.AtMostOnce
import NatsDemo.Control.Recoverable
import NatsDemo.Control.Relay
import NatsDemo.Control.QueueGroup
import NatsDemo.Control.Distribution
import NatsDemo.Control.ConsumerStatus
import NatsDemo.Control.Activity
import NatsDemo.Control.Listing
import NatsDemo.Control.Tracking
import NatsDemo.Control.Arrival
import NatsDemo.Control.Replay
import NatsDemo.Control.ReplayRequest
import NatsDemo.Control.ReplayRange
import NatsDemo.Control.Observer
import NatsDemo.Control.Window
import NatsDemo.Control.Broadcast
import NatsDemo.Control.Chronicle
