import EtsiQkd004.Server.Servlet

/-! The client's calls, carried to the servlet and back over a transport that delivers what the
peer sent, and their agreement with calls of the server's own handlers. -/
namespace EtsiQkd004
open WireCodec Registry

/-- A receive of `n` bytes: exactly these, and no return as long as fewer have been sent. -/
def receive (n : ℕ) (stream : Bytes) : Option (Bytes × Bytes) :=
  if n ≤ stream.length then some (stream.take n,stream.drop n) else none

/-- Both ends receive a header and then as many bytes as it announces. -/
def receiveFrame (stream : Bytes) : Option (QkdHeader × Bytes) := do
  let (headerData,stream) ← receive 8 stream
  let (header,_) ← qkdHeaderFromStream.run headerData
  let (payload,_) ← receive header.payloadSize.toNat stream
  pure (header,payload)

/-- The memory a remote call runs into besides what is sent: behind the payload the server
received, behind the metadata it decoded, and behind the payload the client received. -/
structure Memory where
  serverTail : Bytes
  beyondMetadata : ℕ → UInt8
  clientTail : Bytes

/-- The calls of `ssl_socket_client.c`, over what they have in common: a request is sent, and its
response received and decoded. -/
def callsOver {m : Type → Type} [Monad m]
    (call : ∀ {β : Type}, Option Frame → Decoder UInt8 β → m β) : QkdCalls m where
  qkdOpenConnect source destination qos keyStreamId _ := do
    let response ← call (openConnectRequestFrame ⟨source,destination,qos,keyStreamId⟩)
      qkdOpenConnectResponseFromStream
    pure ⟨response.status,qkdCopyQos response.qos,response.keyStreamId⟩
  qkdGetKey keyStreamId index _ metadata _ := do
    let response ← call (some (getKeyRequestFrame ⟨keyStreamId,index,metadata⟩))
      qkdGetKeyResponseFromStream
    pure ⟨response.status,response.index,response.keyBuffer,response.metadata⟩
  qkdClose keyStreamId _ := do
    let response ← call (some (closeRequestFrame ⟨keyStreamId⟩)) qkdCloseResponseFromStream
    pure ⟨response.status⟩

variable {σ : Type} (libc : Prng σ) (env : Env) (memory : Memory)

/-- A session of the server. There is no response unless the servlet sends one. -/
def serverSession [OpenSsl] (stream : Bytes) : StateT (Server σ) Option Bytes := fun s => do
  let (header,payload) ← receiveFrame stream
  let calls := serverCalls libc (env.withBeyond memory.beyondMetadata)
  match qkdServlet calls header payload memory.serverTail s with
  | (.sent bytes,s) => some (bytes,s)
  | (.finished,_) | (.readFault,_) | (.aborted,_) | (.overrun,_) | (.nullSend,_) => none

/-- The request is sent, and the payload of the response received. -/
def clientPerformRequest [OpenSsl] (request : Frame) : StateT (Server σ) Option Bytes := fun s => do
  let (stream,s) ← serverSession libc env memory request.sent s
  let (_,payload) ← receiveFrame stream
  pure (payload,s)

/-- What the client calls have in common: a frame that is built without overrun, the exchange,
and the decoder of the response. -/
def clientCall [OpenSsl] {β : Type} (request : Option Frame) (fromStream : Decoder UInt8 β) :
    StateT (Server σ) Option β := fun s => do
  let request ← request
  if request.Overrun then none
  let (responseData,s) ← clientPerformRequest libc env memory request s
  let (response,_) ← fromStream.run (responseData ++ memory.clientTail)
  pure (response,s)

/-- The calls over this transport. -/
def clientCalls [OpenSsl] : QkdCalls (StateT (Server σ) Option) :=
  callsOver (clientCall libc env memory)

/-- A call through the struct wrapper linked against the client. -/
def remoteServe [OpenSsl] (s : Server σ) : Request × Env × Memory → Option (Response × Server σ)
  | (.openConnect r,env,memory) => do
    let x ← (qkdOpenConnectStruct (clientCalls libc env memory) r).run s
    pure (.openConnect x.1,x.2)
  | (.getKey r,env,memory) => do
    let x ← (qkdGetKeyStruct (clientCalls libc env memory) r).run s
    pure (.getKey x.1,x.2)
  | (.close r,env,memory) => do
    let x ← (qkdCloseStruct (clientCalls libc env memory) r).run s
    pure (.close x.1,x.2)

/-- The calls of a run in the order their sessions are accepted. -/
def remoteRun [OpenSsl] (s : Server σ) :
    List (Request × Env × Memory) → Option (List Response × Server σ)
  | [] => some ([],s)
  | i::is => do
    let x ← remoteServe libc s i
    let y ← remoteRun x.2 is
    pure (x.1::y.1,y.2)

section Receive

lemma receive_append {x y : Bytes} {n : ℕ} (h : x.length=n) : receive n (x ++ y) = some (x,y) := by
  have hn : n ≤ (x ++ y).length := by
    rw [List.length_append]
    omega
  rw [receive,if_pos hn,List.take_left' h,List.drop_left' h]

lemma receiveFrame_short {stream : Bytes} (h : stream.length < 8) : receiveFrame stream = none := by
  have h8 : ¬ 8 ≤ stream.length := not_le.mpr h
  simp [receiveFrame,receive,h8]

/-- A frame that was sent as a whole is received as its header and its payload. -/
lemma receiveFrame_written (service : QkdService) {payload : Bytes} (h : payload.length < 2^32) :
    receiveFrame (messageFrame service payload).written =
      some ((messageFrame service payload).header,payload) := by
  have hsize := messageFrame_payloadSize service payload
  rw [Nat.mod_eq_of_lt h] at hsize
  have hw : (messageFrame service payload).written =
      qkdHeaderToStream (messageFrame service payload).header ++ payload := rfl
  have hheader := qkdHeader_exact.decode_encode (messageFrame service payload).header []
  have hpayload : receive (messageFrame service payload).header.payloadSize.toNat payload =
      some (payload,[]) := by
    have hr := receive_append (y := []) hsize.symm
    rwa [List.append_nil] at hr
  rw [List.append_nil] at hheader
  rw [hw]
  simp [receiveFrame,receive_append (qkdHeaderToStream_length _),hheader,hpayload]

end Receive

/-- Both frames of the call are smaller than 2^31 bytes. -/
def FramesFit (s : Server σ) (i : Request × Env) : Prop :=
  8 + requestSize i.1 < 2^31 ∧ 8 + responseSize s i < 2^31

instance (s : Server σ) (i : Request × Env) : Decidable (FramesFit s i) :=
  inferInstanceAs (Decidable (_ ∧ _))

section Exchange
variable [OpenSsl] {libc env memory} {s s' : Server σ} {q : Request} {p : Response} {f f' : Frame}
  (hserve : serve libc s (q,env.withBeyond memory.beyondMetadata) = (p,s'))
  (hf : q.frame = some f) (hf' : p.frame = some f') (hq : q.toStream.length < 2^32)
  (hp : p.toStream.length < 2^32)
include hserve hf hf' hq hp

/-- The server sends the frame of the response, if the request reaches it. -/
lemma serverSession_eq :
    serverSession libc env memory f.sent s =
      if 8 + q.toStream.length < 2^31 then some (f'.sent,s') else none := by
  have hf := Request.frame_eq hf
  subst hf
  split_ifs with hfits
  · have hover : ¬ f'.Overrun := by
      rw [Response.frame_eq hf',messageFrame_overrun_iff]
      omega
    have hservlet : qkdServlet (serverCalls libc (env.withBeyond memory.beyondMetadata))
        (messageFrame q.service q.toStream).header q.toStream memory.serverTail s =
          (.sent f'.sent,s') := by
      rw [qkdServlet_serve libc s q _ rfl _ rfl,hserve,hf',respond,if_neg hover]
    rw [serverSession,messageFrame_sent q.service hfits,receiveFrame_written q.service hq]
    simp [hservlet]
  · rw [serverSession,receiveFrame_short (messageFrame_sent_short q.service (not_lt.mp hfits) hq)]
    rfl

/-- The client receives the encoded response, if that reaches it. -/
lemma clientPerformRequest_eq :
    clientPerformRequest libc env memory f s =
      if 8 + q.toStream.length < 2^31 ∧ 8 + p.toStream.length < 2^31 then some (p.toStream,s')
      else none := by
  rw [clientPerformRequest,serverSession_eq hserve hf hf' hq hp]
  have hf' := Response.frame_eq hf'
  subst hf'
  by_cases hfits : 8 + q.toStream.length < 2^31
  · by_cases hfits' : 8 + p.toStream.length < 2^31
    · rw [if_pos hfits,if_pos ⟨hfits,hfits'⟩]
      simp [messageFrame_sent p.service hfits',receiveFrame_written p.service hp]
    · have hshort := messageFrame_sent_short p.service (not_lt.mp hfits') hp
      rw [if_pos hfits,if_neg (fun h => hfits' h.2)]
      simp [receiveFrame_short hshort]
  · rw [if_neg hfits,if_neg (fun h => hfits h.1)]
    rfl

/-- The client decodes the response the server encoded. -/
lemma clientCall_eq {β : Type} {e : β → Bytes} {fromStream : Decoder UInt8 β}
    (hexact : Exact e fromStream) {b : β} (hb : p.toStream = e b) :
    clientCall libc env memory q.frame fromStream s =
      if FramesFit s (q,env) then some (b,s') else none := by
  have hfit : FramesFit s (q,env) ↔
      8 + q.toStream.length < 2^31 ∧ 8 + p.toStream.length < 2^31 := by
    have hsize := responseSize_eq libc s (q,env.withBeyond memory.beyondMetadata)
    rw [hserve] at hsize
    rw [requestSize_eq,hsize]
    cases q <;> rfl
  have hover : ¬ f.Overrun := by
    rw [Request.frame_eq hf,messageFrame_overrun_iff]
    omega
  have hdecode := hexact.decode_encode b memory.clientTail
  rw [← hb] at hdecode
  rw [clientCall,hf]
  simp only [Option.bind_eq_bind,Option.bind_some,if_neg hover,Option.pure_def,
    clientPerformRequest_eq hserve hf hf' hq hp,hfit]
  split_ifs
  · simp [hdecode]
  · rfl

end Exchange

/-- What is assumed of the calls: mimetypes within their limit, metadata that hold a key type
and a role, and encodings below 2^32 bytes. -/
structure InDomain (s : Server σ) (i : Request × Env) : Prop where
  mimetype : ∀ r, i.1 = .openConnect r → r.qos.metadataMimetype.chars.length ≤ 255
  metadata : ∀ r, i.1 = .getKey r → 2 ≤ r.metadata.data.length
  request : requestSize i.1 < 2^32
  response : responseSize s i < 2^32

/-- Metadata of two bytes hide the memory behind them. -/
lemma serve_withBeyond {s : Server σ} {q : Request} {env : Env} (h : InDomain s (q,env))
    (beyond : ℕ → UInt8) : serve libc s (q,env.withBeyond beyond) = serve libc s (q,env) := by
  cases q with
  | openConnect r => rfl
  | close r => rfl
  | getKey r =>
    have hm := h.metadata r rfl
    have hbyte (i : ℕ) (hi : i < 2) :
        metadataByte r.metadata beyond i = metadataByte r.metadata env.beyondMetadata i := by
      have hget := List.getElem?_eq_getElem (by omega : i < r.metadata.data.length)
      rw [metadataByte_of_getElem? hget,metadataByte_of_getElem? hget]
    simp only [serve,qkdGetKeyStruct,serverCalls,Env.withBeyond,hbyte 0 (by decide),
      hbyte 1 (by decide)]

lemma requestFrame_isSome {s : Server σ} {q : Request} {env : Env} (h : InDomain s (q,env)) :
    ∃ f, q.frame = some f := by
  cases q with
  | openConnect r => exact openConnectRequestFrame_isSome (h.mimetype r rfl)
  | getKey r => exact ⟨_,rfl⟩
  | close r => exact ⟨_,rfl⟩

/-- A remote call does what the direct call does if both frames fit, and else does not return. -/
theorem remoteServe_eq [OpenSsl] {s : Server σ} {q : Request} {env : Env} (h : InDomain s (q,env))
    (memory : Memory) :
    remoteServe libc s (q,env,memory) =
      if FramesFit s (q,env) then some (serve libc s (q,env)) else none := by
  obtain ⟨f,hf⟩ := requestFrame_isSome h
  obtain ⟨f',hf'⟩ := responseFrame_isSome libc s env h.mimetype
  have hserve := serve_withBeyond libc h memory.beyondMetadata
  have hlt : q.toStream.length < 2^32 := requestSize_eq q ▸ h.request
  have hlt' : (serve libc s (q,env)).1.toStream.length < 2^32 :=
    responseSize_eq libc s (q,env) ▸ h.response
  cases q with
  | openConnect r =>
    have hcall := clientCall_eq hserve hf hf' hlt hlt' qkdOpenConnectResponse_exact rfl
    rw [remoteServe,qkdOpenConnectStruct,clientCalls,callsOver]
    exact (congrArg (fun x => (Option.bind x _).bind _) hcall).trans (by split_ifs <;> rfl)
  | getKey r =>
    have hcall := clientCall_eq hserve hf hf' hlt hlt' qkdGetKeyResponse_exact rfl
    rw [remoteServe,qkdGetKeyStruct,clientCalls,callsOver]
    exact (congrArg (fun x => (Option.bind x _).bind _) hcall).trans (by split_ifs <;> rfl)
  | close r =>
    have hcall := clientCall_eq hserve hf hf' hlt hlt' qkdCloseResponse_exact rfl
    rw [remoteServe,qkdCloseStruct,clientCalls,callsOver]
    exact (congrArg (fun x => (Option.bind x _).bind _) hcall).trans (by split_ifs <;> rfl)

/-- What a run of remote calls is compared with: the answers and the last state of the server's
own handlers, called in the same order. -/
def directRun (s : Server σ) (run : List (Request × Env × Memory)) : List Response × Server σ :=
  let calls := run.map fun i => (i.1,i.2.1)
  (((server libc).trace s calls).map Prod.snd,(server libc).after s calls)

/-- Within the domain, remote calls are transparent exactly in the runs whose frames all fit. -/
theorem remote_transparent_iff [OpenSsl] (s : Server σ) (run : List (Request × Env × Memory))
    (h : (server libc).Along InDomain s (run.map fun i => (i.1,i.2.1))) :
    remoteRun libc s run = some (directRun libc s run) ↔
      (server libc).Along FramesFit s (run.map fun i => (i.1,i.2.1)) := by
  induction run generalizing s with
  | nil => exact iff_of_true rfl trivial
  | cons i run ih =>
    obtain ⟨q,env,memory⟩ := i
    obtain ⟨hi,hrun⟩ := h
    have ih := ih _ hrun
    have hcons : remoteRun libc s ((q,env,memory)::run) =
        (remoteServe libc s (q,env,memory)).bind fun x =>
          (remoteRun libc x.2 run).bind fun y => some (x.1::y.1,y.2) := rfl
    rw [hcons,remoteServe_eq libc hi]
    by_cases hfits : FramesFit s (q,env)
    · rw [if_pos hfits,Option.bind_some]
      change _ ↔ FramesFit s (q,env) ∧ _
      rw [and_iff_right hfits,← ih]
      constructor
      · intro h
        obtain ⟨y,hy,he⟩ := Option.bind_eq_some_iff.mp h
        have he := Option.some.inj he
        have hresponses := List.cons.inj (congrArg Prod.fst he)
        have hstate := congrArg Prod.snd he
        exact hy.trans (congrArg some (Prod.ext hresponses.2 hstate))
      · intro h
        exact congrArg (fun x => Option.bind x _) h
    · rw [if_neg hfits]
      exact iff_of_false (by simp) (fun h => hfits h.1)

section Plain
open PlainSsl

/-- Both calls of a short session: what the client gets is what the server's handlers give. -/
theorem session_transparent :
    let calls := [(askStream ⟨[65],by decide⟩ ⟨[66],by decide⟩ 3,yields 1),
      (.getKey (askKey (Uuid.fill 1) 7),yields 2)]
    let run := calls.map fun i => (i.1,i.2,(⟨[1,2,3],fun _ => 4,[5]⟩ : Memory))
    remoteRun ansiPrng (Server.start 32768 (49/100) 1) run =
      some (directRun ansiPrng (Server.start 32768 (49/100) 1) run) := by
  intro calls run
  refine (remote_transparent_iff ansiPrng _ run ⟨?_,?_,trivial⟩).mpr ⟨?_,?_,trivial⟩
  · refine ⟨?_,?_,by decide +kernel,by decide +kernel⟩
    · intro r hr
      cases hr
      decide
    · intro r hr
      cases hr
  · refine ⟨?_,?_,by decide +kernel,by decide +kernel⟩
    · intro r hr
      cases hr
    · intro r hr
      cases hr
      decide
  · decide +kernel
  · decide +kernel

/-- A GET_KEY whose frame has 2^32 bytes: the size handed to the socket is zero. -/
theorem large_request_not_transparent :
    ∃ metadata : QkdBytes,
      let q : Request := .getKey ⟨Uuid.fill 1,0,metadata⟩
      InDomain (Server.start 32768 (49/100) (1 : UInt32)) (q,yields 1) ∧
      ∀ memory, remoteRun ansiPrng (Server.start 32768 (49/100) 1) [(q,yields 1,memory)] ≠
        some (directRun ansiPrng (Server.start 32768 (49/100) 1) [(q,yields 1,memory)]) := by
  let metadata : QkdBytes := ⟨4294967264,List.replicate 4294967264 0,by
    rw [List.length_replicate]
    rfl⟩
  have hlen : metadata.data.length = 4294967264 := List.length_replicate
  have hdomain : InDomain (Server.start 32768 (49/100) (1 : UInt32))
      (.getKey ⟨Uuid.fill 1,0,metadata⟩,yields 1) := by
    refine ⟨?_,?_,?_,?_⟩
    · intro r hr
      cases hr
    · intro r hr
      cases hr
      change 2 ≤ metadata.data.length
      omega
    · change 24 + metadata.data.length < 2^32
      omega
    · change 16 + metadata.data.length < 2^32
      omega
  refine ⟨metadata,hdomain,?_⟩
  intro memory h
  have hfits : ¬ FramesFit (Server.start 32768 (49/100) (1 : UInt32))
      (.getKey ⟨Uuid.fill 1,0,metadata⟩,yields 1) := by
    rintro ⟨hq,-⟩
    change 8 + (24 + metadata.data.length) < 2^31 at hq
    omega
  have hnone : remoteRun ansiPrng (Server.start 32768 (49/100) 1)
      [(.getKey ⟨Uuid.fill 1,0,metadata⟩,yields 1,memory)] = none := by
    rw [remoteRun,remoteServe_eq ansiPrng hdomain,if_neg hfits]
    rfl
  rw [hnone] at h
  exact Option.some_ne_none _ h.symm

end Plain

end EtsiQkd004
