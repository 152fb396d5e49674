import RecordingDelivery.CommandLine.Arguments
import RecordingDelivery.CommandLine.LogFilter
import RecordingDelivery.CommandLine.Pages
import RecordingDelivery.CommandLine.Pattern
import RecordingDelivery.CommandLine.Program
import RecordingDelivery.Delivery.Attempt
import RecordingDelivery.Delivery.Destination
import RecordingDelivery.Delivery.Failure
import RecordingDelivery.Delivery.Service
import RecordingDelivery.Delivery.Task
import RecordingDelivery.Document.Decode
import RecordingDelivery.Document.Json.Reader
import RecordingDelivery.Document.Json.Writer
import RecordingDelivery.Document.Toml.Literal
import RecordingDelivery.Document.Toml.Quotation
import RecordingDelivery.Document.Toml.Reader
import RecordingDelivery.Document.Toml.Statement
import RecordingDelivery.Document.Value
import RecordingDelivery.Files.Calls
import RecordingDelivery.Files.Fault
import RecordingDelivery.Files.Path
import RecordingDelivery.Files.Resolve
import RecordingDelivery.Files.Tree
import RecordingDelivery.Http.Client
import RecordingDelivery.Http.Exchange
import RecordingDelivery.Http.Form
import RecordingDelivery.Http.Host
import RecordingDelivery.Http.Url
import RecordingDelivery.Main
import RecordingDelivery.Network.Address
import RecordingDelivery.Outbox.Basic
import RecordingDelivery.Proofs.Schedule.Agenda
import RecordingDelivery.Proofs.Service.Lifecycle
import RecordingDelivery.Proofs.Spool.Recovery
import RecordingDelivery.Proofs.Timing.Simulation
import RecordingDelivery.Registry.Basic
import RecordingDelivery.Registry.Reader
import RecordingDelivery.Rehearsal.Basic
import RecordingDelivery.Rehearsal.Script
import RecordingDelivery.Schedule.Basic
import RecordingDelivery.Schedule.Heap
import RecordingDelivery.Settings
import RecordingDelivery.Spool.Finalize
import RecordingDelivery.Spool.Marker
import RecordingDelivery.Spool.Pending
import RecordingDelivery.Spool.Scan
import RecordingDelivery.Spool.Startup
import RecordingDelivery.Status.Report
import RecordingDelivery.Status.Server
import RecordingDelivery.Text.Alphanumeric
import RecordingDelivery.Text.Binary64
import RecordingDelivery.Text.Blank
import RecordingDelivery.Text.Digits
import RecordingDelivery.Text.Quoted
import RecordingDelivery.Text.Terminal
import RecordingDelivery.Text.Utf8
import RecordingDelivery.Text.Visible
import RecordingDelivery.Time.Calendar
import RecordingDelivery.Time.Clock
import RecordingDelivery.Time.Timestamp
import RecordingDelivery.Proofs.Outbox.History
import RecordingDelivery.Proofs.Spool.Intake
import RecordingDelivery.Proofs.Spool.Contents
import RecordingDelivery.Proofs.Service.Newcomer
import RecordingDelivery.Proofs.Http.Chain
import RecordingDelivery.Proofs.Service.Dispatch
import RecordingDelivery.Proofs.Outbox.Handout
import RecordingDelivery.Proofs.Outbox.Wakeup
import RecordingDelivery.Proofs.Service.Retries
import RecordingDelivery.Proofs.Spool.Targets
import RecordingDelivery.Proofs.Spool.Original
import RecordingDelivery.Proofs.Outbox.Departure
import RecordingDelivery.Proofs.Service.Shutdown
import RecordingDelivery.Proofs.Status.Report
import RecordingDelivery.Proofs.Spool.Marked
import RecordingDelivery.Proofs.Http.Upload
import RecordingDelivery.Proofs.Service.Outcome
import RecordingDelivery.Proofs.Spool.Effect
import RecordingDelivery.Proofs.Document.Decode
import RecordingDelivery.Proofs.Text.Utf8
import RecordingDelivery.Proofs.Delivery.Destination
import RecordingDelivery.Proofs.Status.Canonical
import RecordingDelivery.Proofs.Registry.Widening
