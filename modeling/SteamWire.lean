import SteamWire.Auth.Access
import SteamWire.Auth.Confirmation
import SteamWire.Auth.GuardData
import SteamWire.Auth.GuardDataRace
import SteamWire.Auth.Jwt
import SteamWire.Auth.Login
import SteamWire.Auth.Method
import SteamWire.Auth.Password
import SteamWire.Auth.Polling
import SteamWire.Auth.UserProvided
import SteamWire.Codegen.Coherence
import SteamWire.Codegen.Descriptor
import SteamWire.Codegen.Emitted
import SteamWire.Codegen.FileOrder
import SteamWire.Codegen.Glue
import SteamWire.Codegen.Kind
import SteamWire.Codegen.Kinds
import SteamWire.Codegen.Methods
import SteamWire.Connection.CallInvariant
import SteamWire.Connection.Cleanup
import SteamWire.Connection.Client
import SteamWire.Connection.ClientStep
import SteamWire.Connection.Correlation
import SteamWire.Connection.Deadlock
import SteamWire.Connection.Delivery
import SteamWire.Connection.Feed
import SteamWire.Connection.Filter
import SteamWire.Connection.FilterStep
import SteamWire.Connection.Heartbeat
import SteamWire.Connection.KeepAlive
import SteamWire.Connection.Lifetime
import SteamWire.Connection.OneKind
import SteamWire.Connection.OneShot
import SteamWire.Connection.Ownership
import SteamWire.Connection.Progress
import SteamWire.Connection.Receive
import SteamWire.Connection.Routing
import SteamWire.Connection.Rpc
import SteamWire.Connection.RpcProgress
import SteamWire.Connection.Sender
import SteamWire.Connection.ServerList
import SteamWire.Connection.Shutdown
import SteamWire.Connection.Stream
import SteamWire.Connection.Subscriber
import SteamWire.Connection.Unprocessed
import SteamWire.Crypto.Cbc
import SteamWire.Crypto.Decrypt
import SteamWire.Crypto.Symmetric
import SteamWire.Data.Cursor
import SteamWire.Data.Cycle
import SteamWire.Data.Decimal
import SteamWire.Data.Double
import SteamWire.Data.Duration
import SteamWire.Data.EntryMap
import SteamWire.Data.Json
import SteamWire.Data.Leaves
import SteamWire.Data.LittleEndian
import SteamWire.Data.Outcome
import SteamWire.Data.Protobuf
import SteamWire.Data.Read
import SteamWire.Data.RingBuffer
import SteamWire.Data.StableSort
import SteamWire.Data.Str
import SteamWire.Data.VecDeque
import SteamWire.GameCoordinator.Delivery
import SteamWire.GameCoordinator.Forward
import SteamWire.GameCoordinator.Handshake
import SteamWire.GameCoordinator.Isolation
import SteamWire.GameCoordinator.Message
import SteamWire.GameCoordinator.Rpc
import SteamWire.GameCoordinator.Send
import SteamWire.GameCoordinator.Size
import SteamWire.Message.Body
import SteamWire.Message.Children
import SteamWire.Message.Damage
import SteamWire.Message.Flatten
import SteamWire.Message.Multi
import SteamWire.Net.Error
import SteamWire.Net.Header
import SteamWire.Net.Message
import SteamWire.Proto.Header
import SteamWire.Proto.Kind
import SteamWire.Semantics.Broadcast
import SteamWire.Semantics.Channel
import SteamWire.Semantics.Decoder
import SteamWire.Semantics.Framed
import SteamWire.Semantics.LockedSink
import SteamWire.Semantics.Noninterference
import SteamWire.Semantics.Race
import SteamWire.Semantics.Run
import SteamWire.Semantics.Separation
import SteamWire.Semantics.SharedOwnership
import SteamWire.Semantics.Simulation
import SteamWire.Semantics.Stream
import SteamWire.Session.Error
import SteamWire.Session.Logon
import SteamWire.Transport.Decrypt
import SteamWire.Transport.Delivery
import SteamWire.Transport.Frame
import SteamWire.Transport.Handshake
import SteamWire.Transport.Session
import SteamWire.Transport.Sink
import SteamWire.Transport.Tcp
import SteamWire.Transport.WebSocket
