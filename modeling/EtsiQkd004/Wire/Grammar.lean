import EtsiQkd004.Wire.Serializers

/-! Every decoder accepts exactly the words that start with an encoding of its kind, and
stops at the end of that encoding. -/
namespace EtsiQkd004
open WireCodec HostWord

lemma copyUint32_exact : Exact image copyUint32 := by
  intro p n rest
  simp only [copyUint32,run_bind_eq_some,run_pure_eq_some,symbol_eq_some]
  constructor
  · rintro ⟨b₀,p₀,rfl,b₁,p₁,rfl,b₂,p₂,rfl,b₃,p₃,rfl,hn,rfl⟩
    rw [← (ofBytes_eq_iff _ _ _ _ _).mp hn]
    rfl
  · rintro rfl
    exact ⟨_,_,rfl,_,_,rfl,_,_,rfl,_,_,rfl,ofBytes_byteAt n,rfl⟩

lemma qkdUint32_exact : Exact qkdUint32ToStream qkdUint32FromStream := by
  intro p n rest
  simp only [qkdUint32FromStream,run_bind_eq_some,run_pure_eq_some,copyUint32_exact _ _ _,
    qkdUint32ToStream,htonl,ntohl]
  constructor
  · rintro ⟨m,q,rfl,rfl,rfl⟩
    rw [byteSwap_byteSwap]
  · rintro rfl
    exact ⟨_,_,rfl,byteSwap_byteSwap n,rfl⟩

lemma qkdUuid_exact : Exact qkdUuidToStream qkdUuidFromStream := by
  intro p id rest
  simp only [qkdUuidFromStream,run_bind_eq_some,run_pure_eq_some,block_exact _ _ _ _,
    qkdUuidToStream]
  constructor
  · rintro ⟨xs,q,rfl,rfl,rfl⟩
    rfl
  · rintro rfl
    exact ⟨⟨id.bytes,id.length_eq⟩,rest,rfl,rfl,rfl⟩

lemma qkdBytesData_exact : Exact qkdBytesDataToStream qkdBytesDataFromStream := by
  intro p data rest
  simp only [qkdBytesDataFromStream,run_bind_eq_some,run_pure_eq_some,qkdUint32_exact _ _ _,
    block_exact _ _ _ _,qkdBytesDataToStream,List.append_assoc]
  constructor
  · rintro ⟨size,p₁,rfl,xs,p₂,rfl,rfl,rfl⟩
    rfl
  · rintro rfl
    exact ⟨_,_,rfl,⟨data.data,data.size_eq⟩,_,rfl,rfl,rfl⟩

lemma qkdStr_exact : Exact qkdStrToStream qkdStrFromStream := by
  intro p str rest
  simp only [qkdStrFromStream,run_bind_eq_some,run_pure_eq_some,terminated_exact _ _ _ _,
    qkdStrToStream]
  constructor
  · rintro ⟨xs,q,rfl,rfl,rfl⟩
    rfl
  · rintro rfl
    exact ⟨⟨str.chars,str.noNul⟩,rest,rfl,rfl,rfl⟩

lemma qkdQos_exact : Exact qkdQosToStream qkdQosFromStream := by
  intro p qos rest
  simp only [qkdQosFromStream,qkdMimetypeFromStream,run_bind_eq_some,run_pure_eq_some,
    qkdUint32_exact _ _ _,qkdStr_exact _ _ _,qkdQosToStream,qkdMimetypeToStream,List.append_assoc]
  constructor
  · rintro ⟨_,_,rfl,_,_,rfl,_,_,rfl,_,_,rfl,_,_,rfl,_,_,rfl,_,_,rfl,_,_,rfl,rfl,rfl⟩
    rfl
  · rintro rfl
    exact ⟨_,_,rfl,_,_,rfl,_,_,rfl,_,_,rfl,_,_,rfl,_,_,rfl,_,_,rfl,_,_,rfl,rfl,rfl⟩

lemma qkdOpenConnectRequest_exact :
    Exact qkdOpenConnectRequestToStream qkdOpenConnectRequestFromStream := by
  intro p request rest
  simp only [qkdOpenConnectRequestFromStream,qkdUriFromStream,run_bind_eq_some,run_pure_eq_some,
    qkdStr_exact _ _ _,qkdQos_exact _ _ _,qkdUuid_exact _ _ _,qkdOpenConnectRequestToStream,
    qkdUriToStream,List.append_assoc]
  constructor
  · rintro ⟨_,_,rfl,_,_,rfl,_,_,rfl,_,_,rfl,rfl,rfl⟩
    rfl
  · rintro rfl
    exact ⟨_,_,rfl,_,_,rfl,_,_,rfl,_,_,rfl,rfl,rfl⟩

lemma qkdOpenConnectResponse_exact :
    Exact qkdOpenConnectResponseToStream qkdOpenConnectResponseFromStream := by
  intro p response rest
  simp only [qkdOpenConnectResponseFromStream,run_bind_eq_some,run_pure_eq_some,
    qkdUint32_exact _ _ _,qkdQos_exact _ _ _,qkdUuid_exact _ _ _,qkdOpenConnectResponseToStream,
    List.append_assoc]
  constructor
  · rintro ⟨_,_,rfl,_,_,rfl,_,_,rfl,rfl,rfl⟩
    rfl
  · rintro rfl
    exact ⟨_,_,rfl,_,_,rfl,_,_,rfl,rfl,rfl⟩

lemma qkdGetKeyRequest_exact :
    Exact qkdGetKeyRequestToStream qkdGetKeyRequestFromStream := by
  intro p request rest
  simp only [qkdGetKeyRequestFromStream,qkdMetadataFromStream,run_bind_eq_some,run_pure_eq_some,
    qkdUint32_exact _ _ _,qkdUuid_exact _ _ _,qkdBytesData_exact _ _ _,qkdGetKeyRequestToStream,
    qkdMetadataToStream,List.append_assoc]
  constructor
  · rintro ⟨_,_,rfl,_,_,rfl,_,_,rfl,rfl,rfl⟩
    rfl
  · rintro rfl
    exact ⟨_,_,rfl,_,_,rfl,_,_,rfl,rfl,rfl⟩

lemma qkdGetKeyResponse_exact :
    Exact qkdGetKeyResponseToStream qkdGetKeyResponseFromStream := by
  intro p response rest
  simp only [qkdGetKeyResponseFromStream,qkdKeyBufferFromStream,qkdMetadataFromStream,
    run_bind_eq_some,run_pure_eq_some,qkdUint32_exact _ _ _,qkdBytesData_exact _ _ _,
    qkdGetKeyResponseToStream,qkdKeyBufferToStream,qkdMetadataToStream,List.append_assoc]
  constructor
  · rintro ⟨_,_,rfl,_,_,rfl,_,_,rfl,_,_,rfl,rfl,rfl⟩
    rfl
  · rintro rfl
    exact ⟨_,_,rfl,_,_,rfl,_,_,rfl,_,_,rfl,rfl,rfl⟩

lemma qkdCloseRequest_exact : Exact qkdCloseRequestToStream qkdCloseRequestFromStream := by
  intro p request rest
  simp only [qkdCloseRequestFromStream,run_bind_eq_some,run_pure_eq_some,qkdUuid_exact _ _ _,
    qkdCloseRequestToStream]
  constructor
  · rintro ⟨_,_,rfl,rfl,rfl⟩
    rfl
  · rintro rfl
    exact ⟨_,_,rfl,rfl,rfl⟩

lemma qkdCloseResponse_exact : Exact qkdCloseResponseToStream qkdCloseResponseFromStream := by
  intro p response rest
  simp only [qkdCloseResponseFromStream,run_bind_eq_some,run_pure_eq_some,qkdUint32_exact _ _ _,
    qkdCloseResponseToStream]
  constructor
  · rintro ⟨_,_,rfl,rfl,rfl⟩
    rfl
  · rintro rfl
    exact ⟨_,_,rfl,rfl,rfl⟩

lemma qkdHeader_exact : Exact qkdHeaderToStream qkdHeaderFromStream := by
  intro p header rest
  simp only [qkdHeaderFromStream,run_bind_eq_some,run_pure_eq_some,symbol_eq_some,
    copyUint32_exact _ _ _,qkdHeaderToStream,headerImage,htonl,ntohl,List.cons_append,
    List.nil_append]
  constructor
  · rintro ⟨_,_,rfl,_,_,rfl,_,_,rfl,_,_,rfl,_,_,rfl,rfl,rfl⟩
    simp only [byteSwap_byteSwap]
  · rintro rfl
    exact ⟨_,_,rfl,_,_,rfl,_,_,rfl,_,_,rfl,_,_,rfl,by simp only [byteSwap_byteSwap],rfl⟩

/-- The seven serializer pairs. -/
inductive WireKind
  | header
  | openConnectRequest
  | openConnectResponse
  | getKeyRequest
  | getKeyResponse
  | closeRequest
  | closeResponse
  deriving DecidableEq

namespace WireKind

/-- What the pair of a kind serializes. -/
def Message : WireKind → Type
  | header => QkdHeader
  | openConnectRequest => OpenConnectRequest
  | openConnectResponse => OpenConnectResponse
  | getKeyRequest => GetKeyRequest
  | getKeyResponse => GetKeyResponse
  | closeRequest => CloseRequest
  | closeResponse => CloseResponse

def toStream : (k : WireKind) → k.Message → Bytes
  | header => qkdHeaderToStream
  | openConnectRequest => qkdOpenConnectRequestToStream
  | openConnectResponse => qkdOpenConnectResponseToStream
  | getKeyRequest => qkdGetKeyRequestToStream
  | getKeyResponse => qkdGetKeyResponseToStream
  | closeRequest => qkdCloseRequestToStream
  | closeResponse => qkdCloseResponseToStream

def fromStream : (k : WireKind) → Decoder UInt8 k.Message
  | header => qkdHeaderFromStream
  | openConnectRequest => qkdOpenConnectRequestFromStream
  | openConnectResponse => qkdOpenConnectResponseFromStream
  | getKeyRequest => qkdGetKeyRequestFromStream
  | getKeyResponse => qkdGetKeyResponseFromStream
  | closeRequest => qkdCloseRequestFromStream
  | closeResponse => qkdCloseResponseFromStream

/-- The strings of a message. -/
def strings : (k : WireKind) → k.Message → List CString
  | openConnectRequest,m =>
    [OpenConnectRequest.source m,OpenConnectRequest.destination m,
      (OpenConnectRequest.qos m).metadataMimetype]
  | openConnectResponse,m => [(OpenConnectResponse.qos m).metadataMimetype]
  | header,_ | getKeyRequest,_ | getKeyResponse,_ | closeRequest,_ | closeResponse,_ => []

/-- The byte fields of a message. -/
def byteFields : (k : WireKind) → k.Message → List QkdBytes
  | getKeyRequest,m => [GetKeyRequest.metadata m]
  | getKeyResponse,m => [GetKeyResponse.keyBuffer m,GetKeyResponse.metadata m]
  | header,_ | openConnectRequest,_ | openConnectResponse,_ | closeRequest,_ | closeResponse,_ => []

/-- NUL-free strings, and byte fields that hold as many bytes as their size says. -/
def WellFormed (k : WireKind) (m : k.Message) : Prop :=
  (∀ s ∈ k.strings m, 0 ∉ s.chars) ∧ ∀ b ∈ k.byteFields m, b.size.toNat = b.data.length

lemma wellFormed (k : WireKind) (m : k.Message) : k.WellFormed m :=
  ⟨fun s _ => s.noNul,fun b _ => b.size_eq.symm⟩

lemma stream_exact (k : WireKind) : Exact k.toStream k.fromStream := by
  cases k with
  | header => exact qkdHeader_exact
  | openConnectRequest => exact qkdOpenConnectRequest_exact
  | openConnectResponse => exact qkdOpenConnectResponse_exact
  | getKeyRequest => exact qkdGetKeyRequest_exact
  | getKeyResponse => exact qkdGetKeyResponse_exact
  | closeRequest => exact qkdCloseRequest_exact
  | closeResponse => exact qkdCloseResponse_exact

/-- Decoding what an encoder wrote gives the message back and leaves the cursor at the first
byte after it. -/
theorem fromStream_toStream (k : WireKind) (m : k.Message) (rest : Bytes) :
    k.fromStream.run (k.toStream m ++ rest) = some (m,rest) :=
  k.stream_exact.decode_encode m rest

/-- A decoder stays inside the bytes it is given exactly when they start with an encoding of
its kind. What it returns is then well formed and re-encodes to the bytes it consumed. -/
theorem fromStream_grammar (k : WireKind) (p : Bytes) :
    ((∃ m rest, k.fromStream.run p = some (m,rest)) ↔ ∃ m rest, p = k.toStream m ++ rest) ∧
      ∀ m rest, k.fromStream.run p = some (m,rest) →
        k.toStream m ++ rest = p ∧ k.WellFormed m := by
  refine ⟨k.stream_exact.accepts_iff p,?_⟩
  intro m rest h
  exact ⟨k.stream_exact.encode_decode h,k.wellFormed m⟩

end WireKind
end EtsiQkd004
