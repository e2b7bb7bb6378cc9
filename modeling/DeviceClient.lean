import DeviceClient.Client
import DeviceClient.Json.Forms
import DeviceClient.Json.Text
import DeviceClient.Proofs.Discovery.Accounting
import DeviceClient.Proofs.Engine.Bookkeeping
import DeviceClient.Proofs.Engine.Deadline
import DeviceClient.Proofs.Engine.Protocol
import DeviceClient.Proofs.Engine.Segments
import DeviceClient.Proofs.Engine.Staleness
import DeviceClient.Proofs.Engine.Stall
import DeviceClient.Proofs.Payload.Agreement
import DeviceClient.Proofs.Payload.Leftovers
import DeviceClient.Proofs.Provisioning.Independence
import DeviceClient.Proofs.Provisioning.Lifecycle
import DeviceClient.Proofs.Provisioning.Locality
import DeviceClient.Proofs.Provisioning.Log
import DeviceClient.Proofs.Provisioning.Peers
import DeviceClient.Proofs.Engine.Refusal
import DeviceClient.Proofs.Payload.Capacity
import DeviceClient.Proofs.Payload.Canonical
import DeviceClient.Proofs.Payload.Delimiting
import DeviceClient.Proofs.Payload.WholeItems
import DeviceClient.Proofs.Discovery.RoundTrip
import DeviceClient.Proofs.Scheduler.History
import DeviceClient.Proofs.Identity
import DeviceClient.Proofs.Discovery.Extras
import DeviceClient.Proofs.Client.AutoStop
import DeviceClient.Proofs.Payload.Work
import DeviceClient.Proofs.Payload.Injectivity
import DeviceClient.Proofs.Payload.Incremental
import DeviceClient.Proofs.Payload.Embedding
import DeviceClient.Proofs.Representation
import DeviceClient.Proofs.Pending.History
import DeviceClient.Proofs.Provisioning.Queries
import DeviceClient.Proofs.Client.WakeUp
import DeviceClient.Proofs.AccessEntry
