import NioevMqtt.Library.Base128
import NioevMqtt.Library.Segments
import NioevMqtt.Library.Chunks
import NioevMqtt.Library.Runs
import NioevMqtt.Library.PartialInverse
import NioevMqtt.Library.Outcome
import NioevMqtt.Library.Copies
import NioevMqtt.Library.WaitFor
import NioevMqtt.Library.Reading
import NioevMqtt.Libnioev
import NioevMqtt.Packet.EncodedPacket
import NioevMqtt.Packet.IOVecs
import NioevMqtt.Packet.PublishPacketBuilder
import NioevMqtt.Connection.Types
import NioevMqtt.Connection.SendQueue
import NioevMqtt.Connection.WriteEdges
import NioevMqtt.Connection.ReceiveLoop
import NioevMqtt.Connection.FrameRoundTrip
import NioevMqtt.Connection.ReadEvents
import NioevMqtt.Connection.AfterThrow
import NioevMqtt.Connection.LoginOrder
import NioevMqtt.Session.PersistentClientState
import NioevMqtt.Session.PacketIdentifiers
import NioevMqtt.Broker.SubscriptionTree
import NioevMqtt.Broker.ApplicationState
import NioevMqtt.Broker.Threads
import NioevMqtt.Broker.Attachment
import NioevMqtt.Broker.Publishing
import NioevMqtt.Broker.Execution
import NioevMqtt.Broker.Steps
import NioevMqtt.Broker.Transitions
import NioevMqtt.Broker.CurrentClient
import NioevMqtt.Broker.Subscribers
import NioevMqtt.Broker.CleanStart
import NioevMqtt.Broker.Deliveries
import NioevMqtt.Broker.Registry
import NioevMqtt.Broker.Registration
import NioevMqtt.Broker.SessionTable
import NioevMqtt.Broker.Receipts
import NioevMqtt.Broker.PublishedWills
import NioevMqtt.Broker.Wills
import NioevMqtt.Broker.ChangeRequests
import NioevMqtt.Broker.ProgramOrder
import NioevMqtt.Broker.RetainedWrites
import NioevMqtt.Broker.Outbox
import NioevMqtt.Broker.Outgoing
import NioevMqtt.Broker.LastLogins
import NioevMqtt.Broker.LoginPackets
import NioevMqtt.Broker.Resumption
import NioevMqtt.Broker.ThreadWork
import NioevMqtt.Broker.PendingSubscriptions
import NioevMqtt.Broker.Acknowledged
import NioevMqtt.Broker.LockHolder
import NioevMqtt.Broker.Custody
import NioevMqtt.Broker.References
import NioevMqtt.Broker.Reclaiming
import NioevMqtt.Scripting.ScriptStore
import NioevMqtt.Scripting.StoreAgreement
import NioevMqtt.Broker.SelfDeadlock
import NioevMqtt.Scripting.Ownership
import NioevMqtt.Scripting.ScriptThread
import NioevMqtt.Scripting.ScriptCalls
import NioevMqtt.Connection.BinaryDecoder
import NioevMqtt.Connection.PublishRoundTrip
import NioevMqtt.Connection.ConnectDecoding
import NioevMqtt.Connection.PacketHandling
import NioevMqtt.Connection.HandledPackets
import NioevMqtt.Broker.StoredPublishes
import NioevMqtt.Connection.Replies
import NioevMqtt.Connection.Acknowledgements
import NioevMqtt.Connection.RejectedPackets
import NioevMqtt.Scripting.Deactivation
import NioevMqtt.Scripting.Payloads
import NioevMqtt.Scripting.QuickJS
import NioevMqtt.Scripting.Timeouts
import NioevMqtt.Broker.OmniSubscriptions
import NioevMqtt.Library.Buffers
import NioevMqtt.Web.WSSubscriber
import NioevMqtt.Broker.KeptData
import NioevMqtt.Broker.TopicNames
import NioevMqtt.Library.Timestamps
import NioevMqtt.Broker.KeepAlive
import NioevMqtt.Library.Loops
import NioevMqtt.Library.Series
import NioevMqtt.Broker.Histograms
import NioevMqtt.Broker.Statistics
import NioevMqtt.Broker.Attribution
import NioevMqtt.Broker.Retention
import NioevMqtt.Library.Sorting
import NioevMqtt.Scripting.StartupOrder
import NioevMqtt.Scripting.NativeLibraries
import NioevMqtt.Library.Storage
import NioevMqtt.Library.OwnedBuffers
import NioevMqtt.Broker.BigString
import NioevMqtt.Broker.BigVector
import NioevMqtt.Library.Calendar
import NioevMqtt.Broker.RetainedStorage
import NioevMqtt.Connection.Transport
import NioevMqtt.Library.SharedMutex
import NioevMqtt.Broker.Suspension
import NioevMqtt.Library.Projections
import NioevMqtt.Broker.SuspendedCleanup
import NioevMqtt.Connection.ResentPublish
import NioevMqtt.Broker.ResentMessages
import NioevMqtt.Broker.SentPackets
import NioevMqtt.Broker.FirstPacket
import NioevMqtt.Broker.OrderedDelivery
import NioevMqtt.Broker.Descriptors
import NioevMqtt.Library.Progress
import NioevMqtt.Broker.BoundedQueue
import NioevMqtt.Broker.Channels
import NioevMqtt.Library.Paths
import NioevMqtt.Web.StaticFiles
import NioevMqtt.Library.LockOrder
import NioevMqtt.Broker.Mutexes
import NioevMqtt.Scripting.Compilation
import NioevMqtt.Broker.Shutdown
