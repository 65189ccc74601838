import EtsiQkd004.Library.WireCodec
import EtsiQkd004.Library.HostWord
import EtsiQkd004.Library.SerialMachine
import EtsiQkd004.Library.Forwarding
import EtsiQkd004.Library.Reordering
import EtsiQkd004.Library.Dialogue
import EtsiQkd004.Library.Registry
import EtsiQkd004.Library.Assignment
import EtsiQkd004.Library.Overlay
import EtsiQkd004.Library.Chunks
import EtsiQkd004.Library.Heap
import EtsiQkd004.Library.Descriptors
import EtsiQkd004.Models
import EtsiQkd004.Libc
import EtsiQkd004.Interfaces
import EtsiQkd004.Wire.Serializers
import EtsiQkd004.Wire.Grammar
import EtsiQkd004.Wire.Sizes
import EtsiQkd004.Wire.Completion
import EtsiQkd004.Socket.OpenSsl
import EtsiQkd004.Socket.Receive
import EtsiQkd004.Socket.Counter
import EtsiQkd004.Socket.Records
import EtsiQkd004.Socket.Framing
import EtsiQkd004.Socket.Transfer
import EtsiQkd004.Socket.Setup
import EtsiQkd004.Server.Keys
import EtsiQkd004.Server.Handlers
import EtsiQkd004.Server.Steps
import EtsiQkd004.Server.Store
import EtsiQkd004.Server.KeyAgreement
import EtsiQkd004.Server.Oblivious
import EtsiQkd004.Server.Promises
import EtsiQkd004.Server.Counting
import EtsiQkd004.Server.Servlet
import EtsiQkd004.Server.AcceptLoop
import EtsiQkd004.Server.Determinism
import EtsiQkd004.Server.GetKeyDeterminism
import EtsiQkd004.Server.Sessions
import EtsiQkd004.Server.Order
import EtsiQkd004.Server.KeySpace
import EtsiQkd004.Server.Lifetime
import EtsiQkd004.OnHeap.Handlers
import EtsiQkd004.OnHeap.Streams
import EtsiQkd004.OnHeap.Servlet
import EtsiQkd004.OnHeap.Process
import EtsiQkd004.Client.Remote
import EtsiQkd004.Client.Exchange
import EtsiQkd004.OnHeap.Client
import EtsiQkd004.Client.KeyFile
import EtsiQkd004.Client.Program
import EtsiQkd004.Client.Example
import EtsiQkd004.Client.Api
import EtsiQkd004.OnHeap.Api
import EtsiQkd004.Client.Connections
