import GossipCore.Base.Runs
import GossipCore.Base.Watch
import GossipCore.Base.Observer
import GossipCore.Base.Progress
import GossipCore.Base.KeyedView
import GossipCore.Base.CausalHistory
import GossipCore.Base.ByteCodes
import GossipCore.Base.ChunkReader
import GossipCore.Base.UniqueTable
import GossipCore.Base.TailMerge
import GossipCore.Chat.Connection
import GossipCore.Chat.TwoPeers
import GossipCore.Chat.Glare
import GossipCore.Chat.Reconnect
import GossipCore.Chat.Attempts
import GossipCore.Chat.Representation
import GossipCore.Manager.FrameDelivery
import GossipCore.Manager.Mirror
import GossipCore.Manager.Convergence
import GossipCore.Manager.PersistBeforeSend
import GossipCore.Manager.ActorLifetime
import GossipCore.Manager.Handlers
import GossipCore.Manager.FailedCalls
import GossipCore.Manager.Subscriber
import GossipCore.Manager.MessageView
import GossipCore.Manager.SyncStatus
import GossipCore.Manager.Recovery
import GossipCore.Manager.BackPressure
import GossipCore.Manager.FrameSize
import GossipCore.Persistence.Tables
import GossipCore.Persistence.Automerge
import GossipCore.Persistence.SyncSession
import GossipCore.Persistence.Loader
import GossipCore.Persistence.CreationRace
import GossipCore.Persistence.Messages
import GossipCore.Persistence.Repository
import GossipCore.Persistence.Process
import GossipCore.Persistence.SingleOwner
import GossipCore.Persistence.SharedRows
import GossipCore.Persistence.ChatIdentity
import GossipCore.Persistence.ChatDocument
import GossipCore.Persistence.Pagination
import GossipCore.Persistence.MessageObjects
import GossipCore.Persistence.AddMessage
import GossipCore.Persistence.NewMessages
import GossipCore.Persistence.Growth
import GossipCore.Persistence.PeerLists
import GossipCore.Persistence.Replies
import GossipCore.Tryst.Store
import GossipCore.Wire.Message
import GossipCore.Wire.Framing
import GossipCore.Wire.Receive
import GossipCore.Wire.Truncation
import GossipCore.Protocol.Handshake
import GossipCore.Protocol.Actor
import GossipCore.Protocol.Network
import GossipCore.Protocol.Agreement
import GossipCore.Protocol.Tasks
import GossipCore.Protocol.Delivery
import GossipCore.App.Application
import GossipCore.App.Shutdown
import GossipCore.App.Routing
