import EtsiQkd004.Wire.Grammar

/-! The size functions, in the integer types of the code: `size_t` sums wrap at 64 bits, and
the length of a byte field is added up in 32 bits before it is widened. They are compared
with the number of bytes the encoders write. -/
namespace EtsiQkd004

/-- `MIMETYPE_MAX` -/
def mimetypeMax : UInt64 := 256

/-- An `int` plus a `uint32_t` is a `uint32_t`. -/
def qkdSizeofBytes (data : QkdBytes) : UInt64 := ((4 : UInt32) + data.size).toUInt64

def qkdSizeofStr (str : CString) : UInt64 := UInt64.ofNat str.chars.length + 1

def qkdSizeofUri (uri : CString) : UInt64 := qkdSizeofStr uri

/-- There is no value where the code calls `abort`. -/
def qkdSizeofMimetype (mimetype : CString) : Option UInt64 :=
  let len := qkdSizeofStr mimetype
  if len > mimetypeMax then none else some len

def qkdSizeofQos (qos : QkdQos) : Option UInt64 := do
  let mimetype ← qkdSizeofMimetype qos.metadataMimetype
  pure (4 + 4 + 4 + 4 + 4 + 4 + 4 + mimetype)

def qkdSizeofMetadata (metadata : QkdBytes) : UInt64 := qkdSizeofBytes metadata

def qkdSizeofKeyBuffer (keyBuffer : QkdBytes) : UInt64 := qkdSizeofBytes keyBuffer

def qkdSizeofOpenConnectRequest (request : OpenConnectRequest) : Option UInt64 := do
  let qos ← qkdSizeofQos request.qos
  pure (qkdSizeofUri request.source + qkdSizeofUri request.destination + qos + 16)

def qkdSizeofOpenConnectResponse (response : OpenConnectResponse) : Option UInt64 := do
  let qos ← qkdSizeofQos response.qos
  pure (4 + qos + 16)

def qkdSizeofGetKeyRequest (request : GetKeyRequest) : UInt64 :=
  16 + 4 + qkdSizeofMetadata request.metadata

def qkdSizeofGetKeyResponse (response : GetKeyResponse) : UInt64 :=
  4 + 4 + qkdSizeofKeyBuffer response.keyBuffer + qkdSizeofMetadata response.metadata

def qkdSizeofCloseRequest (_ : CloseRequest) : UInt64 := 16

def qkdSizeofCloseResponse (_ : CloseResponse) : UInt64 := 4

section EncodedLengths

@[simp] theorem qkdUint32ToStream_length (number : UInt32) :
    (qkdUint32ToStream number).length = 4 := rfl

@[simp] theorem qkdUuidToStream_length (id : Uuid) : (qkdUuidToStream id).length = 16 :=
  id.length_eq

@[simp] theorem qkdBytesDataToStream_length (data : QkdBytes) :
    (qkdBytesDataToStream data).length = 4 + data.data.length := by
  simp [qkdBytesDataToStream]

@[simp] theorem qkdStrToStream_length (str : CString) :
    (qkdStrToStream str).length = str.chars.length+1 := by simp [qkdStrToStream]

@[simp] theorem qkdQosToStream_length (qos : QkdQos) :
    (qkdQosToStream qos).length = 29 + qos.metadataMimetype.chars.length := by
  simp [qkdQosToStream,qkdMimetypeToStream]
  omega

@[simp] theorem qkdOpenConnectRequestToStream_length (request : OpenConnectRequest) :
    (qkdOpenConnectRequestToStream request).length =
      47 + request.source.chars.length + request.destination.chars.length +
        request.qos.metadataMimetype.chars.length := by
  simp [qkdOpenConnectRequestToStream,qkdUriToStream]
  omega

@[simp] theorem qkdOpenConnectResponseToStream_length (response : OpenConnectResponse) :
    (qkdOpenConnectResponseToStream response).length =
      49 + response.qos.metadataMimetype.chars.length := by
  simp [qkdOpenConnectResponseToStream]
  omega

@[simp] theorem qkdGetKeyRequestToStream_length (request : GetKeyRequest) :
    (qkdGetKeyRequestToStream request).length = 24 + request.metadata.data.length := by
  simp [qkdGetKeyRequestToStream,qkdMetadataToStream]
  omega

@[simp] theorem qkdGetKeyResponseToStream_length (response : GetKeyResponse) :
    (qkdGetKeyResponseToStream response).length =
      16 + response.keyBuffer.data.length + response.metadata.data.length := by
  simp [qkdGetKeyResponseToStream,qkdKeyBufferToStream,qkdMetadataToStream]
  omega

@[simp] theorem qkdCloseRequestToStream_length (request : CloseRequest) :
    (qkdCloseRequestToStream request).length = 16 := by simp [qkdCloseRequestToStream]

@[simp] theorem qkdCloseResponseToStream_length (response : CloseResponse) :
    (qkdCloseResponseToStream response).length = 4 := by simp [qkdCloseResponseToStream]

@[simp] theorem qkdHeaderToStream_length (header : QkdHeader) :
    (qkdHeaderToStream header).length = 8 := rfl

end EncodedLengths

/-- The 32-bit sum is exact for every size but the four largest. -/
lemma qkdSizeofBytes_toNat (data : QkdBytes) :
    (qkdSizeofBytes data).toNat = (qkdBytesDataToStream data).length % 2^32 := by
  have hs := data.size_eq
  simp only [qkdSizeofBytes,UInt32.toNat_toUInt64,UInt32.toNat_add,qkdBytesDataToStream_length,
    UInt32.toNat_ofNat]
  omega

lemma qkdSizeofStr_eq (str : CString) :
    qkdSizeofStr str = UInt64.ofNat (qkdStrToStream str).length := by
  simp [qkdSizeofStr,UInt64.ofNat_add]

lemma qkdSizeofMimetype_eq {mimetype : CString} {n : UInt64}
    (h : qkdSizeofMimetype mimetype = some n) :
    n = UInt64.ofNat (qkdMimetypeToStream mimetype).length := by
  simp only [qkdSizeofMimetype] at h
  split at h
  · contradiction
  · cases h
    exact qkdSizeofStr_eq mimetype

/-- The limit is met by the mimetypes of at most 255 characters. -/
lemma qkdSizeofMimetype_some {mimetype : CString} (h : mimetype.chars.length ≤ 255) :
    qkdSizeofMimetype mimetype = some (qkdSizeofStr mimetype) := by
  have hn : ¬ qkdSizeofStr mimetype > mimetypeMax := by
    rw [gt_iff_lt,UInt64.lt_iff_toNat_lt,qkdSizeofStr_eq]
    simp [mimetypeMax]
    omega
  simp [qkdSizeofMimetype,hn]

/-- Beyond the limit there is no size, as long as the string fits into memory. -/
lemma qkdSizeofMimetype_none {mimetype : CString} (h : 256 ≤ mimetype.chars.length)
    (hlt : mimetype.chars.length+1 < 2^64) : qkdSizeofMimetype mimetype = none := by
  have hn : qkdSizeofStr mimetype > mimetypeMax := by
    rw [gt_iff_lt,UInt64.lt_iff_toNat_lt,qkdSizeofStr_eq]
    simp [mimetypeMax]
    omega
  simp [qkdSizeofMimetype,hn]

lemma qkdSizeofQos_eq {qos : QkdQos} {n : UInt64} (h : qkdSizeofQos qos = some n) :
    n = UInt64.ofNat (qkdQosToStream qos).length := by
  simp only [qkdSizeofQos,Option.bind_eq_bind,Option.bind_eq_some_iff,Option.pure_def,
    Option.some.injEq] at h
  obtain ⟨m,hm,rfl⟩ := h
  rw [qkdSizeofMimetype_eq hm]
  apply UInt64.toNat_inj.mp
  simp [qkdMimetypeToStream]
  omega

lemma qkdSizeofOpenConnectRequest_eq {request : OpenConnectRequest} {n : UInt64}
    (h : qkdSizeofOpenConnectRequest request = some n) :
    n = UInt64.ofNat (qkdOpenConnectRequestToStream request).length := by
  simp only [qkdSizeofOpenConnectRequest,Option.bind_eq_bind,Option.bind_eq_some_iff,
    Option.pure_def,Option.some.injEq] at h
  obtain ⟨m,hm,rfl⟩ := h
  rw [qkdSizeofQos_eq hm,qkdSizeofUri,qkdSizeofUri,qkdSizeofStr_eq,qkdSizeofStr_eq]
  apply UInt64.toNat_inj.mp
  simp
  omega

lemma qkdSizeofOpenConnectResponse_eq {response : OpenConnectResponse} {n : UInt64}
    (h : qkdSizeofOpenConnectResponse response = some n) :
    n = UInt64.ofNat (qkdOpenConnectResponseToStream response).length := by
  simp only [qkdSizeofOpenConnectResponse,Option.bind_eq_bind,Option.bind_eq_some_iff,
    Option.pure_def,Option.some.injEq] at h
  obtain ⟨m,hm,rfl⟩ := h
  rw [qkdSizeofQos_eq hm]
  apply UInt64.toNat_inj.mp
  simp
  omega

lemma qkdSizeofGetKeyRequest_toNat (request : GetKeyRequest) :
    (qkdSizeofGetKeyRequest request).toNat = 20 + (4 + request.metadata.data.length) % 2^32 := by
  have hm := qkdSizeofBytes_toNat request.metadata
  rw [qkdBytesDataToStream_length] at hm
  simp only [qkdSizeofGetKeyRequest,qkdSizeofMetadata,UInt64.toNat_add,hm,UInt64.reduceToNat]
  omega

lemma qkdSizeofGetKeyResponse_toNat (response : GetKeyResponse) :
    (qkdSizeofGetKeyResponse response).toNat =
      8 + (4 + response.keyBuffer.data.length) % 2^32 +
        (4 + response.metadata.data.length) % 2^32 := by
  have hk := qkdSizeofBytes_toNat response.keyBuffer
  have hm := qkdSizeofBytes_toNat response.metadata
  rw [qkdBytesDataToStream_length] at hk hm
  simp only [qkdSizeofGetKeyResponse,qkdSizeofKeyBuffer,qkdSizeofMetadata,UInt64.toNat_add,hk,hm,
    UInt64.reduceToNat]
  omega

namespace WireKind

/-- The size function of each kind. That of the header is the size of its type. -/
def sizeof : (k : WireKind) → k.Message → Option UInt64
  | header,_ => some 8
  | openConnectRequest,m => qkdSizeofOpenConnectRequest m
  | openConnectResponse,m => qkdSizeofOpenConnectResponse m
  | getKeyRequest,m => some (qkdSizeofGetKeyRequest m)
  | getKeyResponse,m => some (qkdSizeofGetKeyResponse m)
  | closeRequest,m => some (qkdSizeofCloseRequest m)
  | closeResponse,m => some (qkdSizeofCloseResponse m)

/-- The strings of a message that the size functions limit. -/
def mimetypes : (k : WireKind) → k.Message → List CString
  | openConnectRequest,m => [(OpenConnectRequest.qos m).metadataMimetype]
  | openConnectResponse,m => [(OpenConnectResponse.qos m).metadataMimetype]
  | header,_ | getKeyRequest,_ | getKeyResponse,_ | closeRequest,_ | closeResponse,_ => []

/-- The size function returns the number of bytes the encoder writes. -/
def Sized (k : WireKind) (m : k.Message) : Prop :=
  ∃ n, k.sizeof m = some n ∧ n.toNat = (k.toStream m).length

/-- Where a size is right up to its 64 bits, it is right if the message is that small. -/
lemma sized_iff_of_eq {k : WireKind} {m : k.Message} {n : UInt64} (hn : k.sizeof m = some n)
    (he : n = UInt64.ofNat (k.toStream m).length) : k.Sized m ↔ (k.toStream m).length < 2^64 := by
  subst he
  simp only [Sized,hn,Option.some.injEq,exists_eq_left',UInt64.toNat_ofNat']
  omega

/-- The characters of all strings of a message. -/
def stringsLength (k : WireKind) (m : k.Message) : ℕ :=
  ((k.strings m).map fun s => s.chars.length).sum

lemma sized_openConnectRequest {m : OpenConnectRequest}
    (h : m.qos.metadataMimetype.chars.length ≤ 255) :
    Sized .openConnectRequest m ↔ stringsLength .openConnectRequest m + 47 < 2^64 := by
  have hmime := qkdSizeofMimetype_some h
  obtain ⟨n,hn⟩ : ∃ n, qkdSizeofOpenConnectRequest m = some n := by
    simp [qkdSizeofOpenConnectRequest,qkdSizeofQos,hmime]
  have hsized := sized_iff_of_eq (k := .openConnectRequest) (m := m) hn
    (qkdSizeofOpenConnectRequest_eq hn)
  have hlen := qkdOpenConnectRequestToStream_length m
  rw [hsized]
  simp only [toStream,stringsLength,strings,List.map_cons,List.map_nil,List.sum_cons,List.sum_nil,
    hlen]
  omega

/-- The limit of the mimetype is enough for a response. -/
lemma sized_openConnectResponse {m : OpenConnectResponse}
    (h : m.qos.metadataMimetype.chars.length ≤ 255) : Sized .openConnectResponse m := by
  have hmime := qkdSizeofMimetype_some h
  obtain ⟨n,hn⟩ : ∃ n, qkdSizeofOpenConnectResponse m = some n := by
    simp [qkdSizeofOpenConnectResponse,qkdSizeofQos,hmime]
  have hlen := qkdOpenConnectResponseToStream_length m
  apply (sized_iff_of_eq (k := .openConnectResponse) hn (qkdSizeofOpenConnectResponse_eq hn)).mpr
  change (qkdOpenConnectResponseToStream m).length < 2^64
  omega

lemma sized_getKeyRequest (m : GetKeyRequest) :
    Sized .getKeyRequest m ↔ m.metadata.size.toNat ≤ 2^32-5 := by
  have hsize := qkdSizeofGetKeyRequest_toNat m
  have hlen := qkdGetKeyRequestToStream_length m
  have hb := m.metadata.size_eq
  have hlt := m.metadata.length_lt
  simp only [Sized,sizeof,toStream,Option.some.injEq,exists_eq_left',hsize,hlen,← hb]
  omega

lemma sized_getKeyResponse (m : GetKeyResponse) :
    Sized .getKeyResponse m ↔ m.keyBuffer.size.toNat ≤ 2^32-5 ∧ m.metadata.size.toNat ≤ 2^32-5 := by
  have hsize := qkdSizeofGetKeyResponse_toNat m
  have hlen := qkdGetKeyResponseToStream_length m
  have hk := m.keyBuffer.size_eq
  have hm := m.metadata.size_eq
  have hklt := m.keyBuffer.length_lt
  have hmlt := m.metadata.length_lt
  simp only [Sized,sizeof,toStream,Option.some.injEq,exists_eq_left',hsize,hlen,← hk,← hm]
  omega

/-- For messages of every kind with mimetypes within their limit: the size function is right
exactly when no byte field has one of the four largest sizes and the strings of the message, with
the 47 other bytes of an OPEN_CONNECT request, come to less than 2^64 bytes. -/
theorem sized_iff (k : WireKind) (m : k.Message)
    (hm : ∀ s ∈ k.mimetypes m, s.chars.length ≤ 255) :
    k.Sized m ↔ k.stringsLength m + 47 < 2^64 ∧ ∀ b ∈ k.byteFields m, b.size.toNat ≤ 2^32-5 := by
  cases k with
  | header =>
    have hsized : Sized .header m := ⟨8,rfl,rfl⟩
    simp [hsized,stringsLength,strings,byteFields]
  | openConnectRequest =>
    rw [sized_openConnectRequest (hm _ (List.mem_singleton.mpr rfl))]
    simp [byteFields]
  | openConnectResponse =>
    have hmax := hm _ (List.mem_singleton.mpr rfl)
    refine iff_of_true (sized_openConnectResponse hmax) ⟨?_,nofun⟩
    simp only [stringsLength,strings,List.map_cons,List.map_nil,List.sum_cons,List.sum_nil]
    omega
  | getKeyRequest =>
    apply (sized_getKeyRequest m).trans
    simp [stringsLength,strings,byteFields]
  | getKeyResponse =>
    apply (sized_getKeyResponse m).trans
    simp [stringsLength,strings,byteFields]
  | closeRequest =>
    have hsized : Sized .closeRequest m := ⟨16,rfl,(qkdCloseRequestToStream_length m).symm⟩
    simp [hsized,stringsLength,strings,byteFields]
  | closeResponse =>
    have hsized : Sized .closeResponse m := ⟨4,rfl,(qkdCloseResponseToStream_length m).symm⟩
    simp [hsized,stringsLength,strings,byteFields]

/-- An OPEN_CONNECT between A and B with the longest mimetype there may be. -/
theorem sized_longest_mimetype :
    let request : OpenConnectRequest := ⟨⟨[65],by decide⟩,⟨[66],by decide⟩,⟨3,32,32,0,0,0,0,
      ⟨List.replicate 255 97,fun h => by cases List.eq_of_mem_replicate h⟩⟩,Uuid.nil⟩
    Sized .openConnectRequest request := by
  intro request
  refine (sized_iff .openConnectRequest request ?_).mpr ⟨?_,nofun⟩
  · intro s hs
    obtain rfl := List.mem_singleton.mp hs
    exact (List.length_replicate ..).le
  · simp only [stringsLength,strings,request,List.map_cons,List.map_nil,List.sum_cons,List.sum_nil,
      List.length_replicate]
    decide

/-- Metadata of 4294967292 bytes: with the four bytes of their size they add up to zero. -/
theorem large_metadata_not_sized :
    ∃ m : GetKeyRequest, m.metadata.data.length = 4294967292 ∧ qkdSizeofGetKeyRequest m = 20 ∧
      ¬ Sized .getKeyRequest m := by
  let metadata : QkdBytes := ⟨4294967292,List.replicate 4294967292 0,by
    rw [List.length_replicate]
    rfl⟩
  let m : GetKeyRequest := ⟨Uuid.nil,0,metadata⟩
  have hlen : m.metadata.data.length = 4294967292 := List.length_replicate
  have hsize : qkdSizeofGetKeyRequest m = 20 := by
    apply UInt64.toNat_inj.mp
    rw [qkdSizeofGetKeyRequest_toNat,hlen]
    rfl
  refine ⟨m,hlen,hsize,?_⟩
  rintro ⟨n,hn,he⟩
  have hn : qkdSizeofGetKeyRequest m = n := Option.some.inj hn
  have hw : (toStream .getKeyRequest m).length = 24 + m.metadata.data.length :=
    qkdGetKeyRequestToStream_length m
  rw [← hn,hsize,hw,hlen] at he
  exact absurd he (by decide)

end WireKind
end EtsiQkd004
