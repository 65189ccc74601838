import EtsiQkd004.Server.KeyAgreement
import EtsiQkd004.Socket.Framing
import EtsiQkd004.Wire.Grammar

/-! The servlet: one received request is decoded, passed to the handlers it is linked against
and answered by a frame. -/
namespace EtsiQkd004
open WireCodec Registry

/-- How the servlet leaves a session. Only the first two leave the process running as it
should; the others are a read outside of memory, `abort`, a write past the response buffer and
a send without a buffer. -/
inductive Outcome
  | sent (bytes : Bytes)
  | finished
  | readFault
  | aborted
  | overrun
  | nullSend
  deriving DecidableEq

/-- The end of a branch of the servlet, once the frame has been built. -/
def respond [OpenSsl] : Option Frame → Outcome
  | none => .aborted
  | some f => if f.Overrun then .overrun else .sent f.sent

section Dispatch
variable [OpenSsl] {m : Type → Type} [Monad m] (calls : QkdCalls m)

/-- A branch of the servlet, with the decoder, the call and the frame of its service. -/
def branch {α β : Type} (fromStream : Decoder UInt8 α) (call : α → m β)
    (responseFrame : β → Option Frame) (memory : Bytes) : m Outcome :=
  match fromStream.run memory with
  | none => pure .readFault
  | some (request,_) => do
    let response ← call request
    pure (respond (responseFrame response))

/-- What follows the received header: the payload and, behind it, the memory `tail` that the
decoders can run into. -/
def qkdServlet (header : QkdHeader) (payload tail : Bytes) : m Outcome :=
  if header.service=QkdService.closeServer.code then pure .finished
  else if header.service=QkdService.openConnectRequest.code then
    branch qkdOpenConnectRequestFromStream (qkdOpenConnectStruct calls) openConnectResponseFrame
      (payload ++ tail)
  else if header.service=QkdService.getKeyRequest.code then
    branch qkdGetKeyRequestFromStream (qkdGetKeyStruct calls) (some ∘ getKeyResponseFrame)
      (payload ++ tail)
  else if header.service=QkdService.closeRequest.code then
    branch qkdCloseRequestFromStream (qkdCloseStruct calls) (some ∘ closeResponseFrame)
      (payload ++ tail)
  else pure .nullSend

end Dispatch

/-- The three requests on the wire: their service, encoding, decoder and frame. -/
def Request.service : Request → QkdService
  | .openConnect _ => .openConnectRequest
  | .getKey _ => .getKeyRequest
  | .close _ => .closeRequest

def Request.toStream : Request → Bytes
  | .openConnect r => qkdOpenConnectRequestToStream r
  | .getKey r => qkdGetKeyRequestToStream r
  | .close r => qkdCloseRequestToStream r

def Request.frame : Request → Option Frame
  | .openConnect r => openConnectRequestFrame r
  | .getKey r => some (getKeyRequestFrame r)
  | .close r => some (closeRequestFrame r)

def Response.service : Response → QkdService
  | .openConnect _ => .openConnectResponse
  | .getKey _ => .getKeyResponse
  | .close _ => .closeResponse

def Response.toStream : Response → Bytes
  | .openConnect p => qkdOpenConnectResponseToStream p
  | .getKey p => qkdGetKeyResponseToStream p
  | .close p => qkdCloseResponseToStream p

def Response.frame : Response → Option Frame
  | .openConnect p => openConnectResponseFrame p
  | .getKey p => some (getKeyResponseFrame p)
  | .close p => some (closeResponseFrame p)

lemma Request.frame_eq {q : Request} {f : Frame} (h : q.frame = some f) :
    f = messageFrame q.service q.toStream := by
  cases q with
  | openConnect r => exact openConnectRequestFrame_eq h
  | getKey r => exact (Option.some.inj h).symm.trans (getKeyRequestFrame_eq r)
  | close r => exact (Option.some.inj h).symm.trans (closeRequestFrame_eq r)

lemma Response.frame_eq {p : Response} {f : Frame} (h : p.frame = some f) :
    f = messageFrame p.service p.toStream := by
  cases p with
  | openConnect p => exact openConnectResponseFrame_eq h
  | getKey p => exact (Option.some.inj h).symm.trans (getKeyResponseFrame_eq p)
  | close p => exact (Option.some.inj h).symm.trans (closeResponseFrame_eq p)

/-- A response of moderate size is sent as a whole. -/
lemma respond_of_fits [OpenSsl] {p : Response} {f : Frame} (hf : p.frame = some f)
    (h : 8 + p.toStream.length < 2^31) :
    respond p.frame = .sent (messageFrame p.service p.toStream).written := by
  have hover : ¬ (messageFrame p.service p.toStream).Overrun := by
    rw [messageFrame_overrun_iff]
    omega
  rw [hf,Response.frame_eq hf,respond,if_neg hover,messageFrame_sent _ h]

/-- The number of bytes a request encodes to. -/
def requestSize : Request → ℕ
  | .openConnect r => 47 + r.source.chars.length + r.destination.chars.length +
      r.qos.metadataMimetype.chars.length
  | .getKey r => 24 + r.metadata.data.length
  | .close _ => 16

lemma requestSize_eq (q : Request) : q.toStream.length = requestSize q := by
  cases q with
  | openConnect r => exact qkdOpenConnectRequestToStream_length r
  | getKey r => exact qkdGetKeyRequestToStream_length r
  | close r => exact qkdCloseRequestToStream_length r

variable {σ : Type} (libc : Prng σ)

/-- The number of bytes the response of a server encodes to, from the request and the server's
list of key streams. -/
def responseSize (s : Server σ) : Request × Env → ℕ
  | (.openConnect r,_) => 49 + r.qos.metadataMimetype.chars.length
  | (.getKey r,env) =>
    match lookup KsidInfo.keyStreamId r.keyStreamId s.store with
    | none => 16 + r.metadata.data.length
    | some e => 16 + keySize e env + (deviceMetadata s.config).data.length
  | (.close _,_) => 4

lemma responseSize_eq (s : Server σ) (i : Request × Env) :
    (serve libc s i).1.toStream.length = responseSize s i := by
  have h := serve_served libc s i
  generalize (serve libc s i).1 = p at h
  generalize (serve libc s i).2.store = l at h
  cases h with
  | found | minted | supplied =>
    rw [Response.toStream,qkdOpenConnectResponseToStream_length,responseSize]
  | delivered hit _ =>
    rw [Response.toStream,qkdGetKeyResponseToStream_length,keyFor_length,responseSize,hit]
  | notConnected hmiss =>
    rw [Response.toStream,qkdGetKeyResponseToStream_length,responseSize,hmiss]
    rfl
  | closed => rfl

/-- The same surroundings with other memory behind the decoded metadata. -/
def Env.withBeyond (env : Env) (beyond : ℕ → UInt8) : Env := { env with beyondMetadata := beyond }

/-- A branch of the servlet that stays inside memory has decoded its request. -/
lemma branch_decoded [OpenSsl] {α β : Type} {fromStream : Decoder UInt8 α}
    {call : α → StateM (Server σ) β} {responseFrame : β → Option Frame} {memory : Bytes} {s : Server σ}
    (h : (branch fromStream call responseFrame memory s).1 ≠ .readFault) :
    ∃ r rest, fromStream.run memory = some (r,rest) := by
  rw [branch] at h
  cases hd : fromStream.run memory with
  | none =>
    rw [hd] at h
    exact absurd rfl h
  | some x => exact ⟨x.1,x.2,rfl⟩

/-- A request that the servlet can decode is served and the response framed. -/
theorem qkdServlet_serve [OpenSsl] (s : Server σ) (q : Request) (env : Env) {header : QkdHeader}
    (hservice : header.service=q.service.code) {payload tail : Bytes} (rest : Bytes)
    (hdecode : payload ++ tail = q.toStream ++ rest) :
    qkdServlet (serverCalls libc env) header payload tail s =
      (respond (serve libc s (q,env)).1.frame,(serve libc s (q,env)).2) := by
  cases q with
  | openConnect r =>
    have h := (qkdOpenConnectRequest_exact (payload ++ tail) r rest).mpr hdecode
    simp only [qkdServlet,hservice,Request.service,branch,h]
    rfl
  | getKey r =>
    have h := (qkdGetKeyRequest_exact (payload ++ tail) r rest).mpr hdecode
    simp only [qkdServlet,hservice,Request.service,branch,h]
    rfl
  | close r =>
    have h := (qkdCloseRequest_exact (payload ++ tail) r rest).mpr hdecode
    simp only [qkdServlet,hservice,Request.service,branch,h]
    rfl

/-- A response has a frame unless it echoes a mimetype that is too long. -/
lemma responseFrame_isSome (s : Server σ) {q : Request} (env : Env)
    (h : ∀ r, q = .openConnect r → r.qos.metadataMimetype.chars.length ≤ 255) :
    ∃ f, (serve libc s (q,env)).1.frame = some f := by
  cases q with
  | openConnect r =>
    obtain ⟨k,hk⟩ := serve_openConnect libc s r env
    rw [hk]
    exact openConnectResponseFrame_isSome (h r rfl)
  | getKey r => exact ⟨_,rfl⟩
  | close r => exact ⟨_,rfl⟩

/-- A response that has a frame echoes no mimetype that is too long. -/
lemma mimetype_of_frame {s : Server σ} {q : Request} {env : Env} {f : Frame}
    (hf : (serve libc s (q,env)).1.frame = some f) (hlen : q.toStream.length < 2^64)
    (r : OpenConnectRequest) (hr : q = .openConnect r) :
    r.qos.metadataMimetype.chars.length ≤ 255 := by
  subst hr
  rw [requestSize_eq,requestSize] at hlen
  obtain ⟨k,hk⟩ := serve_openConnect libc s r env
  by_contra hlong
  have h256 : 256 ≤ r.qos.metadataMimetype.chars.length := by omega
  have h64 : r.qos.metadataMimetype.chars.length+1 < 2^64 := by omega
  have hnone : openConnectResponseFrame ⟨QkdStatusCode.successful.code,r.qos,k⟩ = none :=
    openConnectResponseFrame_none h256 h64
  rw [hk,Response.frame,hnone] at hf
  contradiction

/-- For every state of the server and every payload that encodes an OPEN_CONNECT: the servlet
gets past `abort` exactly when the mimetype has at most 255 characters, and it then sends the
response. -/
theorem openConnect_answered_iff [OpenSsl] (s : Server σ) (env : Env) {header : QkdHeader}
    (hservice : header.service=QkdService.openConnectRequest.code) {payload : QkdBytes}
    {r : OpenConnectRequest} (hpayload : payload.data = qkdOpenConnectRequestToStream r)
    (tail : Bytes) :
    ((qkdServlet (serverCalls libc env) header payload.data tail s).1 ≠ .aborted ↔
      r.qos.metadataMimetype.chars.length ≤ 255) ∧
    (r.qos.metadataMimetype.chars.length ≤ 255 →
      ∃ k, (qkdServlet (serverCalls libc env) header payload.data tail s).1 =
        .sent (messageFrame .openConnectResponse (qkdOpenConnectResponseToStream
          ⟨QkdStatusCode.successful.code,r.qos,k⟩)).written) := by
  obtain ⟨k,hk⟩ := serve_openConnect libc s r env
  have houtcome := congrArg Prod.fst (qkdServlet_serve libc s (.openConnect r) env hservice tail
    (congrArg (· ++ tail) hpayload))
  simp only [hk] at houtcome
  have hsent (hm : r.qos.metadataMimetype.chars.length ≤ 255) :
      (qkdServlet (serverCalls libc env) header payload.data tail s).1 =
        .sent (messageFrame .openConnectResponse (qkdOpenConnectResponseToStream
          ⟨QkdStatusCode.successful.code,r.qos,k⟩)).written := by
    obtain ⟨f,hf⟩ : ∃ f, openConnectResponseFrame ⟨QkdStatusCode.successful.code,r.qos,k⟩ =
        some f := openConnectResponseFrame_isSome hm
    rw [houtcome]
    apply respond_of_fits (p := .openConnect _) hf
    rw [Response.toStream,qkdOpenConnectResponseToStream_length]
    change 8 + (49 + r.qos.metadataMimetype.chars.length) < 2^31
    omega
  refine ⟨⟨?_,?_⟩,fun hm => ⟨k,hsent hm⟩⟩
  · intro h
    rw [houtcome] at h
    cases hf : (Response.openConnect ⟨QkdStatusCode.successful.code,r.qos,k⟩).frame with
    | none =>
      rw [hf] at h
      exact absurd rfl h
    | some f =>
      have hlen : (Request.openConnect r).toStream.length < 2^64 := by
        have hlt := payload.length_lt
        rw [hpayload] at hlt
        change (qkdOpenConnectRequestToStream r).length < 2^64
        omega
      have hframe : (serve libc s (.openConnect r,env)).1.frame = some f := by rw [hk,hf]
      exact mimetype_of_frame libc hframe hlen r rfl
  · intro hm h
    rw [hsent hm] at h
    cases h

/-- An OPEN_CONNECT whose mimetype has `n` characters. -/
def askMimetype (n : ℕ) : OpenConnectRequest where
  source := nodeA
  destination := nodeB
  qos := ⟨3,32,32,0,0,0,0,⟨List.replicate n 97,fun h => by cases List.eq_of_mem_replicate h⟩⟩
  keyStreamId := Uuid.nil

section Plain
open PlainSsl

/-- The longest mimetype that is answered. -/
theorem mimetype_255_answered :
    (qkdServlet (serverCalls ansiPrng (yields 1))
      ⟨qkd004Version,QkdService.openConnectRequest.code,304⟩
      (qkdOpenConnectRequestToStream (askMimetype 255)) [] (Server.start 32768 (49/100) 1)).1 ≠
        .aborted := by
  let payload := QkdBytes.ofBuffer (qkdOpenConnectRequestToStream (askMimetype 255))
  have hpayload : payload.data = qkdOpenConnectRequestToStream (askMimetype 255) :=
    QkdBytes.ofBuffer_data (by decide +kernel)
  let header : QkdHeader := ⟨qkd004Version,QkdService.openConnectRequest.code,304⟩
  have hservice : header.service=QkdService.openConnectRequest.code := rfl
  have h := (openConnect_answered_iff ansiPrng (Server.start 32768 (49/100) 1) (yields 1)
    hservice hpayload []).1
  rw [hpayload] at h
  exact h.mpr (by decide +kernel)

/-- One character more is read from the wire without an objection. -/
theorem mimetype_256_aborted :
    (qkdServlet (serverCalls ansiPrng (yields 1))
      ⟨qkd004Version,QkdService.openConnectRequest.code,305⟩
      (qkdOpenConnectRequestToStream (askMimetype 256)) [] (Server.start 32768 (49/100) 1)).1 =
        .aborted := by
  decide +kernel

end Plain

/-- The sizes of a frame are right exactly when the frame is smaller than 2^32 bytes: for the
frames of the client calls, and for those the servlet answers with from any list of key
streams. -/
theorem frames_sized_iff :
    (∀ q f, Request.frame q = some f → (f.Sized ↔ 8 + requestSize q < 2^32)) ∧
    ∀ (s : Server σ) i f, (serve libc s i).1.frame = some f →
      (f.Sized ↔ 8 + responseSize s i < 2^32) := by
  constructor
  · intro q f hf
    rw [Request.frame_eq hf,messageFrame_sized_iff,requestSize_eq]
  · intro s i f hf
    rw [Response.frame_eq hf,messageFrame_sized_iff,responseSize_eq]

/-- A stream opened with a chunk size of 4294967280 bytes: no field is too large, but the
response to its first GET_KEY is. -/
theorem large_chunk_not_sized :
    ∃ p, (serve ansiPrng ((server ansiPrng).after (Server.start 32768 (49/100) 1)
        [(askStream ⟨[65],by decide⟩ ⟨[66],by decide⟩ 4294967280,yields 1)])
        (.getKey (askKey (Uuid.fill 1) 7),yields 2)).1 = .getKey p ∧
      p.keyBuffer.data.length ≤ 2^32-5 ∧ p.metadata.data.length ≤ 2^32-5 ∧
      ¬ (getKeyResponseFrame p).Sized := by
  let r := askKey (Uuid.fill 1) 7
  let s := (server ansiPrng).after (Server.start 32768 (49/100) 1)
    [(askStream ⟨[65],by decide⟩ ⟨[66],by decide⟩ 4294967280,yields 1)]
  let e : KsidInfo := ⟨Uuid.fill 1,⟨4294967280,32,32,0,0,0,0,⟨[97],by decide⟩⟩,
    ⟨[65],by decide⟩,⟨[66],by decide⟩,0⟩
  have hl : lookup KsidInfo.keyStreamId r.keyStreamId s.store = some e := by decide +kernel
  have hkey : (keyFor ansiPrng e r (yields 2) s.prng).data.length = 4294967280 := by
    rw [keyFor_length]
    rfl
  have hmeta : (deviceMetadata s.config).data.length ≤ 2^32-5 := by decide +kernel
  refine ⟨_,serve_delivered ansiPrng hl,?_,hmeta,?_⟩
  · rw [hkey]
    decide
  · rw [getKeyResponseFrame_eq,messageFrame_sized_iff,qkdGetKeyResponseToStream_length,hkey]
    omega

end EtsiQkd004
