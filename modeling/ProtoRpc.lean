import ProtoRpc.Foundation.BigEndian
import ProtoRpc.Foundation.Adler32
import ProtoRpc.Foundation.Framing
import ProtoRpc.Network.Machine
import ProtoRpc.Network.Buffer
import ProtoRpc.Rpc.Codec
import ProtoRpc.Rpc.CodecDecoding
import ProtoRpc.Rpc.CodecEncoding
import ProtoRpc.Foundation.Proto3
import ProtoRpc.Rpc.RpcProto
import ProtoRpc.Rpc.CodecStream
import ProtoRpc.Foundation.Ledger
import ProtoRpc.Rpc.Channel
import ProtoRpc.Rpc.Endpoint
import ProtoRpc.Rpc.Calls
import ProtoRpc.Rpc.MonitorProto
import ProtoRpc.Rpc.Replies
import ProtoRpc.Rpc.Submission
import ProtoRpc.Rpc.CallOutcome
import ProtoRpc.Rpc.InputBound
import ProtoRpc.Rpc.Traffic
import ProtoRpc.Rpc.Link
import ProtoRpc.Rpc.LinkFlow
import ProtoRpc.Rpc.Conservation
import ProtoRpc.Foundation.Transition
import ProtoRpc.Network.BufferQueue
import ProtoRpc.Network.Poller
import ProtoRpc.Network.PollerAgreement
import ProtoRpc.Network.PollerInterest
import ProtoRpc.Foundation.Batches
import ProtoRpc.Network.EventLoop
import ProtoRpc.Network.EventLoopRuns
import ProtoRpc.Network.EventLoopThread
import ProtoRpc.Network.OutputStream
import ProtoRpc.Network.Session
import ProtoRpc.Network.Shutdown
import ProtoRpc.Network.ServerConnection
import ProtoRpc.Network.LifeCycle
import ProtoRpc.Network.LifeCycleRuns
import ProtoRpc.Network.Connector
import ProtoRpc.Network.TcpClient
import ProtoRpc.Network.ClientInvariant
import ProtoRpc.Network.ClientSteps
import ProtoRpc.Network.ClientRuns
import ProtoRpc.Network.ServerTable
import ProtoRpc.Rpc.DeferredReplies
import ProtoRpc.Network.Connection
import ProtoRpc.Network.WriteInterest
import ProtoRpc.Network.ConnectionInvariant
import ProtoRpc.Network.ConnectionSteps
import ProtoRpc.Network.HalfClose
import ProtoRpc.Network.TearDown
import ProtoRpc.Network.Unarmed
import ProtoRpc.Network.BufferIntegers
import ProtoRpc.Rpc.ParseBounds
import ProtoRpc.Foundation.Trailer
import ProtoRpc.Rpc.Corruption
import ProtoRpc.Network.IoLoop
import ProtoRpc.Network.ReadInterest
import ProtoRpc.Network.StopRead
import ProtoRpc.Network.LoopProjection
import ProtoRpc.Network.ByteStreams
import ProtoRpc.Foundation.Descriptors
import ProtoRpc.Network.Acceptor
import ProtoRpc.Rpc.InputStorage
import ProtoRpc.Network.Assertions
import ProtoRpc.Network.Lifetime
import ProtoRpc.Rpc.Isolation
import ProtoRpc.Network.EventLoopThreadPool
import ProtoRpc.Network.LoopExit
import ProtoRpc.Network.ServerLoops
import ProtoRpc.Network.ConnectionCalls
import ProtoRpc.Network.ClientCalls
import ProtoRpc.Network.ServerCalls
import ProtoRpc.Network.StaysDisconnected
