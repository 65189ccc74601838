import EtsiQkd004.Interfaces
import EtsiQkd004.Server.Keys
import EtsiQkd004.Library.SerialMachine
import EtsiQkd004.Library.Registry

/-! The handlers of the example server over its linked list of key streams, and the machine
that serves requests with them one at a time. -/
namespace EtsiQkd004
open Registry

/-- `qkd_ksid_info_t`. The link to the next node is the list the node stands in. -/
@[ext] structure KsidInfo where
  keyStreamId : Uuid
  qos : QkdQos
  source : CString
  destination : CString
  currentIndex : Int32
  deriving DecidableEq

namespace KsidInfo

/-- What the stream was registered for. -/
def endpoints (e : KsidInfo) : CString × CString := (e.source,e.destination)

/-- The part of a node that is written once, at registration. -/
def stream (e : KsidInfo) : Uuid × QkdQos × CString × CString :=
  (e.keyStreamId,e.qos,e.source,e.destination)

end KsidInfo

/-- `server_context_data_example_t`, with the number its `float` holds. -/
structure ServerContext where
  keyRate : Int32
  qber : ℚ
  ksidInfoLinkedList : List KsidInfo

/-- The server process: its context and the generator state of its C library. -/
structure Server (σ : Type) where
  config : ServerContext
  prng : σ

/-- What a request meets from outside: the clock, the identifier that would be generated, the
memory behind the decoded metadata and whether the key buffer can be allocated. -/
structure Env where
  time : UInt32
  uuid : Uuid
  beyondMetadata : ℕ → UInt8
  allocated : Bool

/-- How the search loop of `qkd_open_connect` ends: at a match, or with the pointer on the
nodes `node` behind those passed over. -/
inductive OpenSearch
  | matched (node : KsidInfo)
  | stopped (passed node : List KsidInfo)

/-- The loop breaks at the last node and ends with a null pointer only on the empty list. -/
def openSearch (source destination : CString) : List KsidInfo → List KsidInfo → OpenSearch
  | passed,[] => .stopped passed []
  | passed,node::next =>
    if node.source=source ∧ node.destination=destination then .matched node
    else if next=[] then .stopped passed (node::next)
    else openSearch source destination (passed ++ [node]) next

/-- The walk from a node to the null link, which is replaced. -/
def linkLast (new : KsidInfo) : List KsidInfo → List KsidInfo
  | [] => [new]
  | node::next => node::linkLast new next

/-- A null pointer makes the new node the whole list. -/
def insertKsidInfo (new : KsidInfo) (passed node : List KsidInfo) : List KsidInfo :=
  if node=[] then [new] else passed ++ linkLast new node

/-- The lookup loop of `qkd_get_key`: the nodes before the match, the match, those behind. -/
def getKeySearch (keyStreamId : Uuid) :
    List KsidInfo → Option (List KsidInfo × KsidInfo × List KsidInfo)
  | [] => none
  | node::next =>
    if keyStreamId=node.keyStreamId then some ([],node,next)
    else (getKeySearch keyStreamId next).map fun x => (node::x.1,x.2)

/-- A byte of the metadata buffer read without a bounds check. -/
def metadataByte (metadata : QkdBytes) (beyond : ℕ → UInt8) (i : ℕ) : UInt8 :=
  metadata.data.getD i (beyond (i-metadata.data.length))

/-- The text `sprintf` leaves in `device_info`. -/
def deviceInfo (config : ServerContext) : CString where
  chars := ascii "\x7b\"device_info\": [\"key_rate\": " ++ formatInt config.keyRate ++
    ascii ", \"qber\": " ++ formatFloat config.qber ++ ascii "]\x7d"
  noNul := by
    simp only [List.mem_append,not_or]
    exact ⟨⟨⟨⟨by decide,formatInt_ne_zero _⟩,by decide⟩,formatFloat_ne_zero _⟩,by decide⟩

/-- The metadata of a successful answer: the text with its terminating NUL. -/
def deviceMetadata (config : ServerContext) : QkdBytes :=
  QkdBytes.ofBuffer ((deviceInfo config).chars ++ [0])

variable {σ : Type} (libc : Prng σ)

/-- The choice of generator by key type and role. -/
def keyData (node : KsidInfo) (index : UInt32) (keyType keyRole : UInt8) (allocated : Bool)
    (prng : σ) : QkdBytes × σ :=
  let keySize := node.qos.keyChunkSize.toNat
  if keyType=QkdKeyInfoType.symmetric.code then
    genPseudorandomKey libc node.source node.destination keySize index allocated prng
  else if keyRole=16 then
    genObliviousPseudorandomKey libc node.source node.destination keySize index 1 allocated prng
  else
    genObliviousPseudorandomKey libc node.source node.destination keySize index 2 allocated prng

/-- The handlers of `server_example.c`. The status pointer is written on every path. -/
def serverCalls (env : Env) : QkdCalls (StateM (Server σ)) where
  qkdOpenConnect source destination qos keyStreamId _ s :=
    let s := { s with prng := libc.srand env.time }
    if keyStreamId=Uuid.nil then
      match openSearch source destination [] s.config.ksidInfoLinkedList with
      | .matched node => (⟨QkdStatusCode.successful.code,qos,node.keyStreamId⟩,s)
      | .stopped passed node =>
        let new : KsidInfo :=
          ⟨env.uuid,qkdCopyQos qos,qkdCopyUri source,qkdCopyUri destination,0⟩
        (⟨QkdStatusCode.successful.code,qos,env.uuid⟩,
          { s with config.ksidInfoLinkedList := insertKsidInfo new passed node })
    else (⟨QkdStatusCode.successful.code,qos,keyStreamId⟩,s)
  qkdGetKey keyStreamId index keyBuffer metadata _ s :=
    match getKeySearch keyStreamId s.config.ksidInfoLinkedList with
    | none => (⟨QkdStatusCode.gkPeerNotConnected.code,index,keyBuffer,metadata⟩,s)
    | some (before,node,behind) =>
      let key := keyData libc node index (metadataByte metadata env.beyondMetadata 0)
        (metadataByte metadata env.beyondMetadata 1) env.allocated s.prng
      let counted := { node with currentIndex := node.currentIndex+1 }
      (⟨QkdStatusCode.successful.code,index,key.1,deviceMetadata s.config⟩,
        { s with config.ksidInfoLinkedList := before ++ counted::behind, prng := key.2 })
  qkdClose _ _ s := (⟨QkdStatusCode.successful.code⟩,s)

inductive Request
  | openConnect (request : OpenConnectRequest)
  | getKey (request : GetKeyRequest)
  | close (request : CloseRequest)
  deriving DecidableEq

inductive Response
  | openConnect (response : OpenConnectResponse)
  | getKey (response : GetKeyResponse)
  | close (response : CloseResponse)
  deriving DecidableEq

/-- A request served through the struct wrapper of its call. -/
def serve (s : Server σ) : Request × Env → Response × Server σ
  | (.openConnect r,env) =>
    let x := (qkdOpenConnectStruct (serverCalls libc env) r).run s
    (.openConnect x.1,x.2)
  | (.getKey r,env) =>
    let x := (qkdGetKeyStruct (serverCalls libc env) r).run s
    (.getKey x.1,x.2)
  | (.close r,env) =>
    let x := (qkdCloseStruct (serverCalls libc env) r).run s
    (.close x.1,x.2)

/-- The example server, any client's requests in the order they are served. -/
def server : SerialMachine (Server σ) (Request × Env) Response := ⟨serve libc⟩

/-- The server before its first request: no key stream is registered. -/
def Server.start (keyRate : Int32) (qber : ℚ) (prng : σ) : Server σ := ⟨⟨keyRate,qber,[]⟩,prng⟩

section Scenario

/-- The names of two nodes. -/
def nodeA : CString := ⟨[65],by decide⟩
def nodeB : CString := ⟨[66],by decide⟩

/-- An OPEN_CONNECT with a nil identifier. -/
def askStream (source destination : CString) (keyChunkSize : UInt32) : Request :=
  .openConnect ⟨source,destination,⟨keyChunkSize,32,32,0,0,0,0,⟨[97],by decide⟩⟩,Uuid.nil⟩

/-- A request for a symmetric key. -/
def askKey (k : Uuid) (index : UInt32) : GetKeyRequest := ⟨k,index,⟨2,[0,0],rfl⟩⟩

/-- Surroundings in which `uuid_generate_random` yields sixteen times the byte `b`. -/
def yields (b : UInt8) : Env := ⟨1700000000,Uuid.fill b,fun _ => 0,true⟩

end Scenario
end EtsiQkd004
