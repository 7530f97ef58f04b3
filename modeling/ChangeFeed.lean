import ChangeFeed.Wire.Event
import ChangeFeed.Source.Plan
import ChangeFeed.Destination.Plan
import ChangeFeed.Destination.Stream
import ChangeFeed.Pipe.Assembly
import ChangeFeed.Pipe.Registry
import ChangeFeed.Rehearsal.Bus
import ChangeFeed.Rehearsal.Stage
import ChangeFeed.Rehearsal.Tape
import ChangeFeed.Proofs.SafePrefix
import ChangeFeed.Proofs.Gtid.Canonical
import ChangeFeed.Proofs.Gtid.Pairs
import ChangeFeed.Proofs.Gtid.Containment
import ChangeFeed.Proofs.Gtid.Grammar
import ChangeFeed.Proofs.Destination.Depot
import ChangeFeed.Proofs.Destination.Dispatches
import ChangeFeed.Proofs.Destination.Flow
import ChangeFeed.Proofs.Destination.Record
import ChangeFeed.Proofs.Destination.Delivery
import ChangeFeed.Proofs.Destination.Entities
import ChangeFeed.Proofs.Destination.Accounting
import ChangeFeed.Proofs.Destination.Lines
import ChangeFeed.Proofs.Source.Duty
import ChangeFeed.Proofs.Source.Attempt
import ChangeFeed.Proofs.Source.Feed
import ChangeFeed.Proofs.Source.Progress
import ChangeFeed.Proofs.Source.Blindness
import ChangeFeed.Proofs.Source.Resuming
import ChangeFeed.Proofs.Source.Handover
import ChangeFeed.Proofs.Source.Calls
import ChangeFeed.Proofs.Pipe.Backing
import ChangeFeed.Proofs.Pipe.Script
import ChangeFeed.Proofs.Pipe.Intact
import ChangeFeed.Proofs.Pipe.Arrivals
import ChangeFeed.Proofs.Pipe.Calls
import ChangeFeed.Proofs.Pipe.Safety
import ChangeFeed.Proofs.Pipe.Turns
import ChangeFeed.Proofs.Pipe.Wiring
import ChangeFeed.Proofs.Wire.RoundTrip
import ChangeFeed.Proofs.Source.Copies
import ChangeFeed.Proofs.Source.Forward
import ChangeFeed.Proofs.FileTree
import ChangeFeed.Proofs.Progress.Files
import ChangeFeed.Proofs.Source.Mirror
import ChangeFeed.Proofs.Progress.Room
import ChangeFeed.Proofs.Source.Recovery
import ChangeFeed.Proofs.TableCache
import ChangeFeed.Proofs.Registry.Groups
import ChangeFeed.Proofs.Registry.Rollback
import ChangeFeed.Proofs.Registry.Slots
import ChangeFeed.Proofs.Gtid.Texts
import ChangeFeed.Proofs.Gtid.Count
import ChangeFeed.Proofs.Gtid.Lookup
import ChangeFeed.Proofs.Gtid.Collapse
import ChangeFeed.Proofs.Position.Order
import ChangeFeed.Proofs.Position.Texts
import ChangeFeed.Proofs.Position.Servers
import ChangeFeed.Proofs.Source.Transactions
import ChangeFeed.Proofs.Source.Replay
import ChangeFeed.Proofs.Mutation.Images
import ChangeFeed.Proofs.Schema.ColumnOrder
import ChangeFeed.Proofs.Schema.Differences
import ChangeFeed.Proofs.Progress.Changes
import ChangeFeed.Proofs.Progress.Restart
