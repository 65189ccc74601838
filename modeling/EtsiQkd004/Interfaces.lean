import EtsiQkd004.Models

/-! The three calls of the interface and the struct wrappers around them. A call takes the
values its in and in/out parameters point to and returns those it leaves in its in/out and
out parameters. The wrappers are linked against the client's or against the server's calls. -/
namespace EtsiQkd004

structure QkdCalls (m : Type → Type) where
  qkdOpenConnect : (source destination : CString) → (qos : QkdQos) → (keyStreamId : Uuid) →
    (status : UInt32) → m OpenConnectResponse
  qkdGetKey : (keyStreamId : Uuid) → (index : UInt32) → (keyBuffer metadata : QkdBytes) →
    (status : UInt32) → m GetKeyResponse
  qkdClose : (keyStreamId : Uuid) → (status : UInt32) → m CloseResponse

/-- The text a string copy leaves in its destination. -/
def qkdCopyStr (src : CString) : CString := src
def qkdCopyUri (src : CString) : CString := qkdCopyStr src
def qkdCopyMimetype (src : CString) : CString := qkdCopyStr src

/-- Every field of the destination is overwritten. -/
def qkdCopyQos (src : QkdQos) : QkdQos where
  keyChunkSize := src.keyChunkSize
  maxBps := src.maxBps
  minBps := src.minBps
  jitter := src.jitter
  priority := src.priority
  timeout := src.timeout
  ttl := src.ttl
  metadataMimetype := qkdCopyMimetype src.metadataMimetype

@[simp] theorem qkdCopyQos_eq (src : QkdQos) : qkdCopyQos src = src := rfl

variable {m : Type → Type} (calls : QkdCalls m)

/-- The response starts zeroed, its in/out fields copied from the request. -/
def qkdOpenConnectStruct (request : OpenConnectRequest) : m OpenConnectResponse :=
  calls.qkdOpenConnect request.source request.destination (qkdCopyQos request.qos)
    request.keyStreamId 0

def qkdGetKeyStruct (request : GetKeyRequest) : m GetKeyResponse :=
  calls.qkdGetKey request.keyStreamId request.index QkdBytes.empty request.metadata 0

def qkdCloseStruct (request : CloseRequest) : m CloseResponse :=
  calls.qkdClose request.keyStreamId 0

end EtsiQkd004
