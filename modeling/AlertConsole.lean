import AlertConsole.Api.Memory
import AlertConsole.Console.Rehearsal
import AlertConsole.Main
import AlertConsole.Proofs.Json.Decode
import AlertConsole.Proofs.Policy.Codec
import AlertConsole.Proofs.Api.Run
import AlertConsole.Proofs.Policy.Edit
import AlertConsole.Proofs.Draft.Submit
import AlertConsole.Proofs.Policy.RoundTrip
import AlertConsole.Proofs.Draft.Operation
import AlertConsole.Proofs.Dialogue
import AlertConsole.Proofs.Feed.Traffic
import AlertConsole.Proofs.Feed.Deletions
import AlertConsole.Proofs.Feed.Operations
import AlertConsole.Proofs.Viewer.Loop
import AlertConsole.Proofs.Feed.Quiet
import AlertConsole.Proofs.Text.Percent
import AlertConsole.Proofs.Http.Path
import AlertConsole.Proofs.Http.Address
import AlertConsole.Proofs.Disk
import AlertConsole.Proofs.Http.Calls
import AlertConsole.Proofs.Http.Replies
import AlertConsole.Proofs.Http.Segment
import AlertConsole.Proofs.Json.Strings
import AlertConsole.Proofs.Session.File
import AlertConsole.Proofs.Host.Memory
import AlertConsole.Proofs.Session.Store
import AlertConsole.Proofs.Session.Reading
import AlertConsole.Proofs.Session.Sharing
import AlertConsole.Proofs.Http.Token
import AlertConsole.Proofs.Session.Calls
import AlertConsole.Proofs.Feed.Cadence
import AlertConsole.Proofs.Escalation.Codec
import AlertConsole.Proofs.Escalation.Edit
import AlertConsole.Proofs.Catalog
import AlertConsole.Proofs.Escalation.RoundTrip
import AlertConsole.Proofs.Relay
import AlertConsole.Proofs.Console.Arguments
import AlertConsole.Proofs.Console.Calls
import AlertConsole.Proofs.Console.Resolve
import AlertConsole.Proofs.Console.Saving
import AlertConsole.Proofs.Console.Reverting
import AlertConsole.Proofs.Escalation.Lines
import AlertConsole.Proofs.Console.Escalating
import AlertConsole.Proofs.Watch.Vigil
import AlertConsole.Proofs.Watch.Invariant
import AlertConsole.Proofs.Watch.Effects
import AlertConsole.Proofs.Watch.Restart
import AlertConsole.Proofs.Watch.Publications
import AlertConsole.Proofs.Watch.Loop
import AlertConsole.Proofs.Incident.Order
import AlertConsole.Proofs.Feed.Resolving
import AlertConsole.Proofs.History
import AlertConsole.Proofs.Json.Prefix
import AlertConsole.Proofs.Session.Cut
import AlertConsole.Proofs.Policy.Sections
import AlertConsole.Proofs.Draft.Atomic
import AlertConsole.Proofs.Escalation.Grammar
import AlertConsole.Proofs.Escalation.Typing
import AlertConsole.Proofs.Incident.Decode
import AlertConsole.Proofs.History.Order
import AlertConsole.Proofs.Path
import AlertConsole.Proofs.Disk.Failure
import AlertConsole.Proofs.Session.Atomic
import AlertConsole.Proofs.Incident.RoundTrip
import AlertConsole.Proofs.Catalog.Fidelity
import AlertConsole.Proofs.Viewer.Cursor
import AlertConsole.Proofs.Feed.Polling
import AlertConsole.Proofs.Console.Interval
import AlertConsole.Proofs.Api.Paths
import AlertConsole.Proofs.Escalation.Numeric
import AlertConsole.Proofs.Escalation.Recipients
