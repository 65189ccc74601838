import EtsiQkd004.Wire.Sizes
import EtsiQkd004.Socket.OpenSsl

/-! The frames both sides build around an encoded message and hand to the socket. The size of
the message reaches the header, the buffer and the socket through two narrowings to 32 bits. -/
namespace EtsiQkd004
open OpenSsl

/-- A frame as it is built: its header, the size of the buffer allocated for it, the bytes the
two encoders write and the size handed to the socket. -/
structure Frame where
  header : QkdHeader
  bufferSize : UInt64
  written : Bytes
  sendSize : UInt32

/-- The frame of a message that encodes to `payload` and whose computed size is `size`. -/
def frame (service : QkdService) (size : UInt64) (payload : Bytes) : Frame :=
  let header : QkdHeader := ⟨qkd004Version,service.code,size.toUInt32⟩
  let bufferSize := 8 + header.payloadSize.toUInt64
  ⟨header,bufferSize,qkdHeaderToStream header ++ payload,bufferSize.toUInt32⟩

/-- The frames of the client calls. There is none where the size function aborts. -/
def openConnectRequestFrame (request : OpenConnectRequest) : Option Frame := do
  let size ← qkdSizeofOpenConnectRequest request
  pure (frame .openConnectRequest size (qkdOpenConnectRequestToStream request))

def getKeyRequestFrame (request : GetKeyRequest) : Frame :=
  frame .getKeyRequest (qkdSizeofGetKeyRequest request) (qkdGetKeyRequestToStream request)

def closeRequestFrame (request : CloseRequest) : Frame :=
  frame .closeRequest (qkdSizeofCloseRequest request) (qkdCloseRequestToStream request)

/-- The frames of the three branches of the servlet. -/
def openConnectResponseFrame (response : OpenConnectResponse) : Option Frame := do
  let size ← qkdSizeofOpenConnectResponse response
  pure (frame .openConnectResponse size (qkdOpenConnectResponseToStream response))

def getKeyResponseFrame (response : GetKeyResponse) : Frame :=
  frame .getKeyResponse (qkdSizeofGetKeyResponse response) (qkdGetKeyResponseToStream response)

def closeResponseFrame (response : CloseResponse) : Frame :=
  frame .closeResponse (qkdSizeofCloseResponse response) (qkdCloseResponseToStream response)

/-- The bytes that are sent, of a message at `data`. Its size is converted to `int`. -/
def socketSslSend [OpenSsl] (size : UInt32) (data : Bytes) : Bytes :=
  if size=0 then [] else sslWrite size.toInt32 data

/-- All sizes are the number of bytes that are written. -/
structure Frame.Sized (f : Frame) : Prop where
  buffer : f.bufferSize.toNat = f.written.length
  send : f.sendSize.toNat = f.written.length
  payload : 8 + f.header.payloadSize.toNat = f.written.length

/-- The encoders write past the end of the buffer. -/
def Frame.Overrun (f : Frame) : Prop := f.bufferSize.toNat < f.written.length

instance (f : Frame) : Decidable f.Overrun := inferInstanceAs (Decidable (_ < _))

/-- The bytes of the frame that are sent. -/
def Frame.sent [OpenSsl] (f : Frame) : Bytes := socketSslSend f.sendSize f.written

section Narrowing

lemma toUInt32_ofNat (n : ℕ) : (UInt64.ofNat n).toUInt32 = UInt32.ofNat n := by
  apply UInt32.toNat_inj.mp
  simp only [UInt64.toNat_toUInt32,UInt64.toNat_ofNat',UInt32.toNat_ofNat']
  omega

/-- In 32 bits the wrapped sum of a byte field's size is no loss. -/
lemma qkdSizeofGetKeyRequest_toUInt32 (request : GetKeyRequest) :
    (qkdSizeofGetKeyRequest request).toUInt32 =
      UInt32.ofNat (qkdGetKeyRequestToStream request).length := by
  apply UInt32.toNat_inj.mp
  have hm := request.metadata.size_eq
  simp [qkdSizeofGetKeyRequest,qkdSizeofMetadata,qkdSizeofBytes]
  omega

lemma qkdSizeofGetKeyResponse_toUInt32 (response : GetKeyResponse) :
    (qkdSizeofGetKeyResponse response).toUInt32 =
      UInt32.ofNat (qkdGetKeyResponseToStream response).length := by
  apply UInt32.toNat_inj.mp
  have hk := response.keyBuffer.size_eq
  have hm := response.metadata.size_eq
  simp [qkdSizeofGetKeyResponse,qkdSizeofKeyBuffer,qkdSizeofMetadata,qkdSizeofBytes]
  omega

lemma toInt32_neg_iff (n : UInt32) : n.toInt32 < 0 ↔ 2^31 ≤ n.toNat := by
  have hn := n.toNat_lt
  rw [Int32.lt_iff_toInt_lt,HostWord.toInt32_toInt,Int32.toInt_zero]
  split
  · omega
  · omega

lemma toInt32_toNat {n : UInt32} (h : n.toNat < 2^31) : n.toInt32.toInt.toNat = n.toNat := by
  rw [HostWord.toInt32_toInt,if_pos h,Int.toNat_natCast]

lemma toInt32_pos {n : UInt32} (hn : n≠0) (h : n.toNat < 2^31) : 0 < n.toInt32 := by
  have h0 : n.toNat ≠ 0 := fun h0 => hn (UInt32.toNat_inj.mp h0)
  rw [Int32.lt_iff_toInt_lt,HostWord.toInt32_toInt,if_pos h,Int32.toInt_zero]
  omega

end Narrowing

/-- The frame of a message whose size is computed right up to 32 bits. -/
def messageFrame (service : QkdService) (payload : Bytes) : Frame :=
  frame service (UInt64.ofNat payload.length) payload

lemma frame_eq_messageFrame {service : QkdService} {size : UInt64} {payload : Bytes}
    (h : size.toUInt32 = UInt32.ofNat payload.length) :
    frame service size payload = messageFrame service payload := by
  simp only [messageFrame,frame,h,toUInt32_ofNat]

lemma openConnectRequestFrame_eq {request : OpenConnectRequest} {f : Frame}
    (h : openConnectRequestFrame request = some f) :
    f = messageFrame .openConnectRequest (qkdOpenConnectRequestToStream request) := by
  simp only [openConnectRequestFrame,Option.bind_eq_bind,Option.bind_eq_some_iff,Option.pure_def,
    Option.some.injEq] at h
  obtain ⟨size,hs,rfl⟩ := h
  rw [qkdSizeofOpenConnectRequest_eq hs]
  rfl

lemma openConnectResponseFrame_eq {response : OpenConnectResponse} {f : Frame}
    (h : openConnectResponseFrame response = some f) :
    f = messageFrame .openConnectResponse (qkdOpenConnectResponseToStream response) := by
  simp only [openConnectResponseFrame,Option.bind_eq_bind,Option.bind_eq_some_iff,
    Option.pure_def,Option.some.injEq] at h
  obtain ⟨size,hs,rfl⟩ := h
  rw [qkdSizeofOpenConnectResponse_eq hs]
  rfl

lemma openConnectRequestFrame_isSome {request : OpenConnectRequest}
    (h : request.qos.metadataMimetype.chars.length ≤ 255) :
    ∃ f, openConnectRequestFrame request = some f := by
  simp [openConnectRequestFrame,qkdSizeofOpenConnectRequest,qkdSizeofQos,qkdSizeofMimetype_some h]

lemma openConnectResponseFrame_isSome {response : OpenConnectResponse}
    (h : response.qos.metadataMimetype.chars.length ≤ 255) :
    ∃ f, openConnectResponseFrame response = some f := by
  simp [openConnectResponseFrame,qkdSizeofOpenConnectResponse,qkdSizeofQos,
    qkdSizeofMimetype_some h]

lemma openConnectResponseFrame_none {response : OpenConnectResponse}
    (h : 256 ≤ response.qos.metadataMimetype.chars.length)
    (hlt : response.qos.metadataMimetype.chars.length+1 < 2^64) :
    openConnectResponseFrame response = none := by
  simp [openConnectResponseFrame,qkdSizeofOpenConnectResponse,qkdSizeofQos,
    qkdSizeofMimetype_none h hlt]

lemma getKeyRequestFrame_eq (request : GetKeyRequest) :
    getKeyRequestFrame request =
      messageFrame .getKeyRequest (qkdGetKeyRequestToStream request) :=
  frame_eq_messageFrame (qkdSizeofGetKeyRequest_toUInt32 request)

lemma getKeyResponseFrame_eq (response : GetKeyResponse) :
    getKeyResponseFrame response =
      messageFrame .getKeyResponse (qkdGetKeyResponseToStream response) :=
  frame_eq_messageFrame (qkdSizeofGetKeyResponse_toUInt32 response)

lemma closeRequestFrame_eq (request : CloseRequest) :
    closeRequestFrame request = messageFrame .closeRequest (qkdCloseRequestToStream request) :=
  frame_eq_messageFrame (by rw [qkdCloseRequestToStream_length]; rfl)

lemma closeResponseFrame_eq (response : CloseResponse) :
    closeResponseFrame response =
      messageFrame .closeResponse (qkdCloseResponseToStream response) :=
  frame_eq_messageFrame (by rw [qkdCloseResponseToStream_length]; rfl)

section MessageFrame
variable (service : QkdService) (payload : Bytes)

lemma messageFrame_written_length :
    (messageFrame service payload).written.length = 8 + payload.length := by
  simp [messageFrame,frame]

lemma messageFrame_payloadSize :
    (messageFrame service payload).header.payloadSize.toNat = payload.length % 2^32 := by
  simp [messageFrame,frame]

lemma messageFrame_bufferSize :
    (messageFrame service payload).bufferSize.toNat = 8 + payload.length % 2^32 := by
  simp only [messageFrame,frame,toUInt32_ofNat,UInt64.toNat_add,UInt32.toNat_toUInt64,
    UInt32.toNat_ofNat',UInt64.reduceToNat]
  omega

lemma messageFrame_sendSize :
    (messageFrame service payload).sendSize.toNat = (8 + payload.length) % 2^32 := by
  simp [messageFrame,frame]

/-- The three sizes are right exactly when the whole frame is smaller than 2^32 bytes. -/
theorem messageFrame_sized_iff :
    (messageFrame service payload).Sized ↔ 8 + payload.length < 2^32 := by
  have hw := messageFrame_written_length service payload
  have hb := messageFrame_bufferSize service payload
  have hs := messageFrame_sendSize service payload
  have hp := messageFrame_payloadSize service payload
  constructor
  · intro h
    have h := h.send
    omega
  · intro h
    exact ⟨by omega,by omega,by omega⟩

theorem messageFrame_overrun_iff :
    (messageFrame service payload).Overrun ↔ 2^32 ≤ payload.length := by
  have hw := messageFrame_written_length service payload
  have hb := messageFrame_bufferSize service payload
  rw [Frame.Overrun,hw,hb]
  omega

section Sent
variable [OpenSsl]

/-- What is smaller than 2^31 bytes is sent as a whole. -/
theorem messageFrame_sent {payload : Bytes} (h : 8 + payload.length < 2^31) :
    (messageFrame service payload).sent = (messageFrame service payload).written := by
  have hw := messageFrame_written_length service payload
  have hs := messageFrame_sendSize service payload
  rw [Nat.mod_eq_of_lt (by omega)] at hs
  have h0 : (messageFrame service payload).sendSize ≠ 0 := by
    intro h0
    rw [h0,UInt32.toNat_zero] at hs
    omega
  have hnum := toInt32_toNat (n := (messageFrame service payload).sendSize) (by omega)
  have hpos := toInt32_pos h0 (by omega)
  rw [Frame.sent,socketSslSend,if_neg h0,write_sent hpos (by omega),hnum]
  exact List.take_of_length_le (by omega)

/-- Of what is larger, not even a header is sent. -/
theorem messageFrame_sent_short {payload : Bytes} (h : 2^31 ≤ 8 + payload.length)
    (hlt : payload.length < 2^32) : (messageFrame service payload).sent.length < 8 := by
  have hw := messageFrame_written_length service payload
  have hs := messageFrame_sendSize service payload
  rw [Frame.sent,socketSslSend]
  split_ifs with h0
  · simp
  · by_cases hneg : (messageFrame service payload).sendSize.toInt32 < 0
    · rw [write_refused _ hneg]
      simp
    · rw [toInt32_neg_iff] at hneg
      have hnum := toInt32_toNat (n := (messageFrame service payload).sendSize) (by omega)
      have hpos := toInt32_pos h0 (by omega)
      rw [write_sent hpos (by omega),List.length_take,hnum]
      omega

end Sent
end MessageFrame
end EtsiQkd004
