import EtsiQkd004.Models
import EtsiQkd004.Library.WireCodec
import EtsiQkd004.Library.HostWord

/-! The field and message serializers. An encoder is the list of bytes it writes through the
stream cursor; a decoder reads from the cursor and fails where the C code would read past the
last byte of the memory it is given. -/
namespace EtsiQkd004
open WireCodec HostWord

/-- `htonl` on a little-endian host. -/
def htonl (hostlong : UInt32) : UInt32 := byteSwap hostlong

/-- `ntohl` on a little-endian host. -/
def ntohl (netlong : UInt32) : UInt32 := byteSwap netlong

/-- `memcpy` of a `uint32_t` out of the stream. -/
def copyUint32 : Decoder UInt8 UInt32 := do
  let b₀ ← symbol
  let b₁ ← symbol
  let b₂ ← symbol
  let b₃ ← symbol
  pure (ofBytes b₀ b₁ b₂ b₃)

def qkdUint32ToStream (number : UInt32) : Bytes := image (htonl number)

def qkdUint32FromStream : Decoder UInt8 UInt32 := do
  let number ← copyUint32
  pure (ntohl number)

def qkdUuidToStream (id : Uuid) : Bytes := id.bytes

def qkdUuidFromStream : Decoder UInt8 Uuid := do
  let id ← block 16
  pure ⟨id.val,id.property⟩

def qkdBytesDataToStream (data : QkdBytes) : Bytes :=
  qkdUint32ToStream data.size ++ data.data

def qkdBytesDataFromStream : Decoder UInt8 QkdBytes := do
  let size ← qkdUint32FromStream
  let data ← block size.toNat
  pure ⟨size,data.val,data.property⟩

/-- The copy includes the terminating NUL. -/
def qkdStrToStream (str : CString) : Bytes := str.chars ++ [0]

/-- The length is that of the C library's scan for the first NUL, wherever it lies. -/
def qkdStrFromStream : Decoder UInt8 CString := do
  let str ← terminated 0
  pure ⟨str.val,str.property⟩

def qkdUriToStream (uri : CString) : Bytes := qkdStrToStream uri
def qkdUriFromStream : Decoder UInt8 CString := qkdStrFromStream
def qkdMimetypeToStream (mime : CString) : Bytes := qkdStrToStream mime
def qkdMimetypeFromStream : Decoder UInt8 CString := qkdStrFromStream

def qkdQosToStream (qos : QkdQos) : Bytes :=
  qkdUint32ToStream qos.keyChunkSize ++
  qkdUint32ToStream qos.maxBps ++
  qkdUint32ToStream qos.minBps ++
  qkdUint32ToStream qos.jitter ++
  qkdUint32ToStream qos.priority ++
  qkdUint32ToStream qos.timeout ++
  qkdUint32ToStream qos.ttl ++
  qkdMimetypeToStream qos.metadataMimetype

def qkdQosFromStream : Decoder UInt8 QkdQos := do
  let keyChunkSize ← qkdUint32FromStream
  let maxBps ← qkdUint32FromStream
  let minBps ← qkdUint32FromStream
  let jitter ← qkdUint32FromStream
  let priority ← qkdUint32FromStream
  let timeout ← qkdUint32FromStream
  let ttl ← qkdUint32FromStream
  let metadataMimetype ← qkdMimetypeFromStream
  pure ⟨keyChunkSize,maxBps,minBps,jitter,priority,timeout,ttl,metadataMimetype⟩

def qkdKeyBufferToStream (data : QkdBytes) : Bytes := qkdBytesDataToStream data
def qkdKeyBufferFromStream : Decoder UInt8 QkdBytes := qkdBytesDataFromStream
def qkdMetadataToStream (data : QkdBytes) : Bytes := qkdBytesDataToStream data
def qkdMetadataFromStream : Decoder UInt8 QkdBytes := qkdBytesDataFromStream

def qkdOpenConnectRequestToStream (request : OpenConnectRequest) : Bytes :=
  qkdUriToStream request.source ++
  qkdUriToStream request.destination ++
  qkdQosToStream request.qos ++
  qkdUuidToStream request.keyStreamId

def qkdOpenConnectRequestFromStream : Decoder UInt8 OpenConnectRequest := do
  let source ← qkdUriFromStream
  let destination ← qkdUriFromStream
  let qos ← qkdQosFromStream
  let keyStreamId ← qkdUuidFromStream
  pure ⟨source,destination,qos,keyStreamId⟩

def qkdOpenConnectResponseToStream (response : OpenConnectResponse) : Bytes :=
  qkdUint32ToStream response.status ++
  qkdQosToStream response.qos ++
  qkdUuidToStream response.keyStreamId

def qkdOpenConnectResponseFromStream : Decoder UInt8 OpenConnectResponse := do
  let status ← qkdUint32FromStream
  let qos ← qkdQosFromStream
  let keyStreamId ← qkdUuidFromStream
  pure ⟨status,qos,keyStreamId⟩

def qkdGetKeyRequestToStream (request : GetKeyRequest) : Bytes :=
  qkdUuidToStream request.keyStreamId ++
  qkdUint32ToStream request.index ++
  qkdMetadataToStream request.metadata

def qkdGetKeyRequestFromStream : Decoder UInt8 GetKeyRequest := do
  let keyStreamId ← qkdUuidFromStream
  let index ← qkdUint32FromStream
  let metadata ← qkdMetadataFromStream
  pure ⟨keyStreamId,index,metadata⟩

def qkdGetKeyResponseToStream (response : GetKeyResponse) : Bytes :=
  qkdUint32ToStream response.status ++
  qkdUint32ToStream response.index ++
  qkdKeyBufferToStream response.keyBuffer ++
  qkdMetadataToStream response.metadata

def qkdGetKeyResponseFromStream : Decoder UInt8 GetKeyResponse := do
  let status ← qkdUint32FromStream
  let index ← qkdUint32FromStream
  let keyBuffer ← qkdKeyBufferFromStream
  let metadata ← qkdMetadataFromStream
  pure ⟨status,index,keyBuffer,metadata⟩

def qkdCloseRequestToStream (request : CloseRequest) : Bytes :=
  qkdUuidToStream request.keyStreamId

def qkdCloseRequestFromStream : Decoder UInt8 CloseRequest := do
  let keyStreamId ← qkdUuidFromStream
  pure ⟨keyStreamId⟩

def qkdCloseResponseToStream (response : CloseResponse) : Bytes :=
  qkdUint32ToStream response.status

def qkdCloseResponseFromStream : Decoder UInt8 CloseResponse := do
  let status ← qkdUint32FromStream
  pure ⟨status⟩

/-- The memory image of a `qkd_header_t`: four bytes and a word, without padding. -/
def headerImage (header : QkdHeader) : Bytes :=
  [header.version.major,header.version.minor,header.version.micro,header.service] ++
    image header.payloadSize

/-- The header is copied as it lies in memory, its size field in network order. -/
def qkdHeaderToStream (header : QkdHeader) : Bytes :=
  headerImage { header with payloadSize := htonl header.payloadSize }

def qkdHeaderFromStream : Decoder UInt8 QkdHeader := do
  let major ← symbol
  let minor ← symbol
  let micro ← symbol
  let service ← symbol
  let payloadSize ← copyUint32
  let header : QkdHeader := ⟨⟨major,minor,micro⟩,service,payloadSize⟩
  pure { header with payloadSize := ntohl header.payloadSize }

end EtsiQkd004
