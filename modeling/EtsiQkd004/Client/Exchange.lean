import EtsiQkd004.Client.Remote
import EtsiQkd004.Server.KeySpace
import EtsiQkd004.Socket.Transfer

/-! The client's calls against the accept loop, over the records of the connection and in the
company of any other clients. -/
namespace EtsiQkd004
open WireCodec Registry OpenSsl

/-- What a call finds in memory: under the buffers of its four receives and behind the payloads
that the two ends receive. -/
structure CallMemory where
  serverHeader : ℕ → UInt8
  serverPayload : ℕ → UInt8
  serverTail : Bytes
  clientHeader : ℕ → UInt8
  clientPayload : ℕ → UInt8
  clientTail : Bytes

variable {σ : Type} (libc : Prng σ) (env : Env) (memory : CallMemory)

/-- The session in which a client sends a frame. -/
def clientSession [OpenSsl] (request : Frame) : Session where
  sslAccept := 1
  records := sslRecords request.sent
  record_le := records_le _
  headerStack := memory.serverHeader
  payloadStack := memory.serverPayload
  tail := memory.serverTail
  env := env

/-- `client_perform_request`, with the accept loop at the other end of the connection. The client
exits where its receives do not return; the loop goes on. -/
def clientExchange [OpenSsl] (request : Frame) : OptionT (StateM (Process σ)) Bytes := fun p =>
  let y := (socketServerInit libc).step p (clientSession env memory request)
  ((recvFrame memory.clientHeader memory.clientPayload (sslRecords y.1)).map Prod.snd,y.2)

/-- A call: a frame that is built without overrun, the exchange, and the decoder of the
response. -/
def exchangeCall [OpenSsl] {β : Type} (request : Option Frame) (fromStream : Decoder UInt8 β) :
    OptionT (StateM (Process σ)) β := fun p =>
  match request with
  | none => (none,p)
  | some f =>
    if f.Overrun then (none,p)
    else
      let y := clientExchange libc env memory f p
      (y.1.bind fun data => (fromStream.run (data ++ memory.clientTail)).map Prod.fst,y.2)

/-- A call through the struct wrapper linked against the client. -/
def exchangeServe [OpenSsl] : Request × Env × CallMemory → OptionT (StateM (Process σ)) Response
  | (.openConnect r,env,memory) => do
    let response ← qkdOpenConnectStruct (callsOver (exchangeCall libc env memory)) r
    pure (.openConnect response)
  | (.getKey r,env,memory) => do
    let response ← qkdGetKeyStruct (callsOver (exchangeCall libc env memory)) r
    pure (.getKey response)
  | (.close r,env,memory) => do
    let response ← qkdCloseStruct (callsOver (exchangeCall libc env memory)) r
    pure (.close response)

/-- What follows a program that has returned. -/
lemma exchange_bind {α β τ : Type} {x : OptionT (StateM τ) α} {p p' : τ} {a : α}
    (h : x p = (some a,p')) (f : α → OptionT (StateM τ) β) : (x >>= f) p = f a p' := by
  have hrun : (x >>= f) p = (match (x p).1 with
      | some a => f a
      | none => pure none : StateM τ (Option β)) (x p).2 := rfl
  rw [hrun,h]

/-- What is made of the value that a program returns, if it does. -/
lemma exchange_map {α β τ : Type} (x : OptionT (StateM τ) α) (g : α → β) (p : τ) :
    (do
      let a ← x
      pure (g a) : OptionT (StateM τ) β) p = ((x p).1.map g,(x p).2) := by
  have hrun : (do
      let a ← x
      pure (g a) : OptionT (StateM τ) β) p = (match (x p).1 with
      | some a => pure (some (g a))
      | none => pure none : StateM τ (Option β)) (x p).2 := rfl
  rw [hrun]
  cases (x p).1 with
  | none => rfl
  | some a => rfl

/-- What fills in the fields of a response one by one returns it. -/
lemma exchange_same {α τ : Type} (x : OptionT (StateM τ) α) {g : α → α} (hg : ∀ a, g a = a) (p : τ) :
    (do
      let a ← x
      pure (g a) : OptionT (StateM τ) α) p = x p := by
  obtain rfl : g=id := funext hg
  rw [exchange_map,Option.map_id]
  rfl

lemma Response.toStream_ne_nil (p : Response) : p.toStream≠[] := by
  apply List.ne_nil_of_length_pos
  cases p with
  | openConnect p =>
    rw [Response.toStream,qkdOpenConnectResponseToStream_length]
    omega
  | getKey p =>
    rw [Response.toStream,qkdGetKeyResponseToStream_length]
    omega
  | close p =>
    rw [Response.toStream,qkdCloseResponseToStream_length]
    omega

/-- A request in one record is made out by the server. -/
lemma clientSession_call [OpenSsl] {q : Request} {f : Frame} (hf : q.frame = some f)
    (hq : 8 + q.toStream.length ≤ 16384) : (clientSession env memory f).call = some (q,env) := by
  have hf := Request.frame_eq hf
  subst hf
  have haccept : (1 : Int32) ≠ -1 := by decide
  exact call_of_frame haccept rfl hq

section Call
variable [OpenSsl] {libc env memory} {s s' : Server σ} {q : Request} {p : Response} {f f' : Frame}
  (hserve : serve libc s (q,env) = (p,s')) (hf : q.frame = some f) (hf' : p.frame = some f')
  (hq : 8 + q.toStream.length ≤ 16384) (hp : 8 + p.toStream.length ≤ 16384)
include hserve hf hf' hq hp

/-- The payload of the response reaches the client. -/
lemma clientExchange_eq :
    clientExchange libc env memory f ⟨.listening,s⟩ = (some p.toStream,⟨.listening,s'⟩) := by
  have hstep := step_call libc (clientSession_call env memory hf hq) s
  have hframe := Response.frame_eq hf'
  subst hframe
  have hover : ¬ (messageFrame p.service p.toStream).Overrun := by
    rw [messageFrame_overrun_iff]
    omega
  rw [hserve,hf',respond,if_neg hover,afterServlet] at hstep
  rw [clientExchange]
  simp only [hstep,recvFrame_short p.service p.toStream_ne_nil hp,Option.map_some]

/-- The client decodes the response the server encoded. -/
lemma exchangeCall_eq {β : Type} {e : β → Bytes} {fromStream : Decoder UInt8 β}
    (hexact : Exact e fromStream) {b : β} (hb : p.toStream = e b) :
    exchangeCall libc env memory q.frame fromStream ⟨.listening,s⟩ =
      (some b,⟨.listening,s'⟩) := by
  have hover : ¬ f.Overrun := by
    rw [Request.frame_eq hf,messageFrame_overrun_iff]
    omega
  have hdecode := hexact.decode_encode b memory.clientTail
  rw [← hb] at hdecode
  simp only [hf,exchangeCall,if_neg hover,clientExchange_eq hserve hf hf' hq hp,Option.bind_some,
    hdecode,Option.map_some]

end Call

/-- Both frames of the call fit into one record. -/
structure OneRecord (s : Server σ) (i : Request × Env) : Prop where
  mimetype : ∀ r, i.1 = .openConnect r → r.qos.metadataMimetype.chars.length ≤ 255
  request : 8 + requestSize i.1 ≤ 16384
  response : 8 + responseSize s i ≤ 16384

/-- A call to a loop that is listening does what the handlers do. -/
lemma exchangeServe_eq [OpenSsl] {s : Server σ} {q : Request} {env : Env} (h : OneRecord s (q,env))
    (memory : CallMemory) :
    exchangeServe libc (q,env,memory) ⟨.listening,s⟩ =
      (some (serve libc s (q,env)).1,⟨.listening,(serve libc s (q,env)).2⟩) := by
  obtain ⟨f,hf⟩ : ∃ f, q.frame = some f := by
    cases q with
    | openConnect r => exact openConnectRequestFrame_isSome (h.mimetype r rfl)
    | getKey r => exact ⟨_,rfl⟩
    | close r => exact ⟨_,rfl⟩
  obtain ⟨f',hf'⟩ := responseFrame_isSome libc s env h.mimetype
  have hq : 8 + q.toStream.length ≤ 16384 := requestSize_eq q ▸ h.request
  have hp : 8 + (serve libc s (q,env)).1.toStream.length ≤ 16384 :=
    responseSize_eq libc s (q,env) ▸ h.response
  cases q with
  | openConnect r =>
    have hcall : exchangeCall libc env memory (openConnectRequestFrame r)
        qkdOpenConnectResponseFromStream ⟨.listening,s⟩ = _ :=
      exchangeCall_eq rfl hf hf' hq hp qkdOpenConnectResponse_exact rfl
    rw [exchangeServe]
    exact exchange_bind (exchange_bind hcall _) _
  | getKey r =>
    have hcall : exchangeCall libc env memory (some (getKeyRequestFrame r))
        qkdGetKeyResponseFromStream ⟨.listening,s⟩ = _ :=
      exchangeCall_eq rfl hf hf' hq hp qkdGetKeyResponse_exact rfl
    rw [exchangeServe]
    exact exchange_bind (exchange_bind hcall _) _
  | close r =>
    have hcall : exchangeCall libc env memory (some (closeRequestFrame r))
        qkdCloseResponseFromStream ⟨.listening,s⟩ = _ :=
      exchangeCall_eq rfl hf hf' hq hp qkdCloseResponse_exact rfl
    rw [exchangeServe]
    exact exchange_bind (exchange_bind hcall _) _

section Company
variable [OpenSsl]

/-- A call behind sessions of other clients. -/
def callAfter (p : Process σ) (others : List Session) (i : Request × Env × CallMemory) :
    Option Response × Process σ :=
  exchangeServe libc i ((socketServerInit libc).after p others)

/-- The others leave the loop listening, and the frames of the call fit. -/
structure Reaches (p : Process σ) (others : List Session) (i : Request × Env × CallMemory) :
    Prop where
  listening : ((socketServerInit libc).after p others).status=.listening
  fits : OneRecord ((socketServerInit libc).after p others).server (i.1,i.2.1)

/-- If the sessions of the others leave the loop listening, a call returns what the handlers
answer after the requests that were made out of these sessions. -/
lemma callAfter_eq {s : Server σ} {others : List Session} {q : Request} {env : Env}
    {memory : CallMemory} (h : Reaches libc ⟨.listening,s⟩ others (q,env,memory)) :
    callAfter libc ⟨.listening,s⟩ others (q,env,memory) =
      let x := serve libc ((server libc).after s (others.filterMap Session.call)) (q,env)
      (some x.1,⟨.listening,x.2⟩) := by
  have hfits := h.fits
  rw [after_listening libc h.listening] at hfits
  rw [callAfter,after_listening libc h.listening]
  exact exchangeServe_eq libc hfits memory

/-- Clients that make calls, each of them behind sessions of any others. -/
def company : SerialMachine (Process σ) (List Session × Request × Env × CallMemory)
    (Option Response) where
  step p x := callAfter libc p x.1 x.2

/-- What the calls return, if the client gets through all of them. -/
def responses (p : Process σ) (run : List (List Session × Request × Env × CallMemory)) :
    Option (List Response) :=
  ((company libc).trace p run).mapM Prod.snd

lemma responses_cons (p : Process σ) (x : List Session × Request × Env × CallMemory)
    (run : List (List Session × Request × Env × CallMemory)) :
    responses libc p (x::run) = ((company libc).step p x).1.bind fun response =>
      (responses libc ((company libc).step p x).2 run).map (response :: ·) := by
  rw [responses,SerialMachine.trace,List.mapM_cons]
  change ((company libc).step p x).1.bind (fun response => (responses libc _ run).bind
    fun ps => some (response::ps)) = _
  simp only [Option.map_eq_bind,Function.comp_def]

/-- What the calls are for: the handlers, called in turn with what can be made out of the
sessions of the others and with the request of the call. -/
def handlersBehind : SerialMachine (Server σ) (List Session × Request × Env × CallMemory)
    (Option Response) where
  step s x :=
    let y := serve libc ((server libc).after s (x.1.filterMap Session.call)) (x.2.1,x.2.2.1)
    (some y.1,y.2)

/-- The calls of any clients, in any company and over any memory, return what the handlers answer
as long as the frames of the calls fit into records and the others leave the loop listening. -/
theorem company_refines_handlers {s : Server σ}
    {run : List (List Session × Request × Env × CallMemory)}
    (h : (company libc).Along (fun p x => Reaches libc p x.1 x.2) ⟨.listening,s⟩ run) :
    (company libc).trace ⟨.listening,s⟩ run = (handlersBehind libc).trace s run ∧
      (company libc).after ⟨.listening,s⟩ run =
        ⟨.listening,(handlersBehind libc).after s run⟩ := by
  induction run generalizing s with
  | nil => exact ⟨rfl,rfl⟩
  | cons x run ih =>
    obtain ⟨others,q,env,memory⟩ := x
    obtain ⟨hreach,hrun⟩ := h
    have hstep : (company libc).step ⟨.listening,s⟩ (others,q,env,memory) =
        (((handlersBehind libc).step s (others,q,env,memory)).1,
          ⟨.listening,((handlersBehind libc).step s (others,q,env,memory)).2⟩) :=
      callAfter_eq libc hreach
    rw [hstep] at hrun
    obtain ⟨htrace,hafter⟩ := ih hrun
    simp only [SerialMachine.trace,SerialMachine.after_cons,hstep]
    exact ⟨by rw [htrace],hafter⟩

end Company

section Scenario

/-- Memory in which all bytes are zero. -/
def zeroed : CallMemory := ⟨fun _ => 0,fun _ => 0,[],fun _ => 0,fun _ => 0,[]⟩

/-- A small OPEN_CONNECT fits. -/
lemma oneRecord_askMimetype (s : Server σ) (env : Env) :
    OneRecord s (.openConnect (askMimetype 1),env) := by
  refine ⟨?_,?_,?_⟩
  · intro r hr
    cases hr
    decide
  · change 8 + requestSize (.openConnect (askMimetype 1)) ≤ 16384
    decide
  · rw [responseSize]
    decide

/-- So does a GET_KEY, if its key does. -/
lemma oneRecord_askKey {s : Server σ} {k : Uuid} {index : UInt32} {env : Env}
    (h : 8 + responseSize s (.getKey (askKey k index),env) ≤ 16384) :
    OneRecord s (.getKey (askKey k index),env) := by
  refine ⟨?_,?_,h⟩
  · intro r hr
    cases hr
  · change 8 + (24 + 2) ≤ 16384
    decide

end Scenario

section Plain
open PlainSsl

/-- Two clients open a stream and fetch a key of it, each behind another one that has done so. -/
theorem company_refines_handlers_two :
    let start : Process UInt32 := ⟨.listening,Server.start 32768 (49/100) 1⟩
    let run := [([turnedAway,opening],.openConnect (askMimetype 1),yields 2,zeroed),
      ([fetching (Uuid.fill 1)],.getKey (askKey (Uuid.fill 1) 7),yields 3,zeroed)]
    (company ansiPrng).trace start run =
        (handlersBehind ansiPrng).trace (Server.start 32768 (49/100) 1) run ∧
      ((company ansiPrng).after start run).server.store.map KsidInfo.currentIndex = [2] := by
  intro start run
  have h : (company ansiPrng).Along (fun p x => Reaches ansiPrng p x.1 x.2) start run :=
    ⟨⟨by decide +kernel,oneRecord_askMimetype _ _⟩,
      ⟨by decide +kernel,oneRecord_askKey (by decide +kernel)⟩,trivial⟩
  obtain ⟨htrace,hafter⟩ := company_refines_handlers ansiPrng h
  refine ⟨htrace,?_⟩
  rw [hafter]
  decide +kernel

end Plain

section Peers

/-- A pair that has an identifier is answered with it, and so is who passes it on. -/
lemma serve_second_after {s : Server σ} {r : OpenConnectRequest} {source destination : CString}
    {k : Uuid} (hdir : directory s.store (source,destination) = some k)
    (hr : r.keyStreamId=Uuid.nil ∧ r.source=source ∧ r.destination=destination ∨
      r.keyStreamId=k ∧ k≠Uuid.nil) (env : Env) (run : List (Request × Env)) :
    (serve libc ((server libc).after s run) (.openConnect r,env)).1 =
      .openConnect ⟨QkdStatusCode.successful.code,r.qos,k⟩ := by
  rcases hr with ⟨hnil,rfl,rfl⟩ | ⟨rfl,hk⟩
  · obtain ⟨e,he,rfl⟩ := Option.map_eq_some_iff.mp (directory_after libc s run _ _ hdir)
    rw [serve_found libc hnil he]
  · rw [serve_supplied libc hk]

variable [OpenSsl]

/-- A call behind a run of the handlers and sessions of other clients leaves a longer run. -/
lemma callAfter_run {t : Server σ} {run : List (Request × Env)} {others : List Session}
    {q : Request} {env : Env} {memory : CallMemory}
    (h : Reaches libc ⟨.listening,(server libc).after t run⟩ others (q,env,memory)) :
    callAfter libc ⟨.listening,(server libc).after t run⟩ others (q,env,memory) =
      (some (serve libc ((server libc).after t (run ++ others.filterMap Session.call)) (q,env)).1,
        ⟨.listening,(server libc).after t (run ++ others.filterMap Session.call ++ [(q,env)])⟩) := by
  rw [callAfter_eq libc h]
  simp only [← SerialMachine.after_append]
  rw [SerialMachine.after_append _ t _ [(q,env)]]
  rfl

/-- Two peers, over the network and in any company. The first opens a stream; the second opens one
for the same endpoints, or passes the identifier on that it was told, unless this is the nil one;
both fetch the symmetric key of the same index.
Whatever the other clients do before and between these calls: as long as the loop is listening when
a call comes, the two frames of the call fit into one record, and there is memory for the key, both
are given the same identifier and the same key. -/
theorem peers_share_keys {s : Server σ} {others₁ : List Session} {rA : OpenConnectRequest}
    {env₁ : Env} {memory₁ : CallMemory} (hA : rA.keyStreamId=Uuid.nil)
    (h₁ : Reaches libc ⟨.listening,s⟩ others₁ (.openConnect rA,env₁,memory₁)) :
    ∃ k p₁, callAfter libc ⟨.listening,s⟩ others₁ (.openConnect rA,env₁,memory₁) =
        (some (.openConnect ⟨QkdStatusCode.successful.code,rA.qos,k⟩),p₁) ∧
      ∀ others₂ rB env₂ memory₂, Reaches libc p₁ others₂ (.openConnect rB,env₂,memory₂) →
        (rB.keyStreamId=Uuid.nil ∧ rB.source=rA.source ∧ rB.destination=rA.destination ∨
          rB.keyStreamId=k ∧ k≠Uuid.nil) →
      ∃ p₂, callAfter libc p₁ others₂ (.openConnect rB,env₂,memory₂) =
          (some (.openConnect ⟨QkdStatusCode.successful.code,rB.qos,k⟩),p₂) ∧
        ∀ index others₃ metadataA env₃ memory₃,
          Reaches libc p₂ others₃ (.getKey ⟨k,index,metadataA⟩,env₃,memory₃) →
          metadataA.data[0]? = some QkdKeyInfoType.symmetric.code → env₃.allocated=true →
        ∃ key p₃, callAfter libc p₂ others₃ (.getKey ⟨k,index,metadataA⟩,env₃,memory₃) =
            (some (.getKey ⟨QkdStatusCode.successful.code,index,key,deviceMetadata s.config⟩),p₃) ∧
          ∀ others₄ metadataB env₄ memory₄,
            Reaches libc p₃ others₄ (.getKey ⟨k,index,metadataB⟩,env₄,memory₄) →
            metadataB.data[0]? = some QkdKeyInfoType.symmetric.code → env₄.allocated=true →
          (callAfter libc p₃ others₄ (.getKey ⟨k,index,metadataB⟩,env₄,memory₄)).1 =
            some (.getKey ⟨QkdStatusCode.successful.code,index,key,deviceMetadata s.config⟩) := by
  obtain ⟨k,hk,hdir⟩ := directory_answer libc
    ((server libc).after s (others₁.filterMap Session.call)) rA env₁ hA
  have hcall₁ := callAfter_eq libc h₁
  simp only [hk] at hcall₁
  have hdevice : deviceMetadata (serve libc ((server libc).after s
      (others₁.filterMap Session.call)) (.openConnect rA,env₁)).2.config =
        deviceMetadata s.config := by
    have hafter := after_device libc s (others₁.filterMap Session.call ++ [(.openConnect rA,env₁)])
    rwa [SerialMachine.after_append] at hafter
  -- from here on every state is that of a run from `t`, where the stream is registered
  generalize (serve libc ((server libc).after s (others₁.filterMap Session.call))
    (.openConnect rA,env₁)).2 = t at hdir hcall₁ hdevice
  obtain ⟨e,he⟩ : ∃ e, lookup KsidInfo.keyStreamId k t.store = some e := by
    obtain ⟨e,he,rfl⟩ := Option.map_eq_some_iff.mp hdir
    exact exists_lookup_iff.mpr (List.mem_map_of_mem (mem_of_lookup he))
  refine ⟨k,_,hcall₁,?_⟩
  intro others₂ rB env₂ memory₂ h₂ hB
  have hstart : Reaches libc ⟨.listening,(server libc).after t []⟩ others₂
      (.openConnect rB,env₂,memory₂) := h₂
  have hcall₂ := callAfter_run libc hstart
  rw [serve_second_after libc hdir hB] at hcall₂
  refine ⟨_,hcall₂,?_⟩
  intro index others₃ metadataA env₃ memory₃ h₃ htypeA halloc₃
  have hcall₃ := callAfter_run libc h₃
  rw [serve_symmetric_after libc he htypeA halloc₃,hdevice] at hcall₃
  refine ⟨_,_,hcall₃,?_⟩
  intro others₄ metadataB env₄ memory₄ h₄ htypeB halloc₄
  have hcall₄ := callAfter_run libc h₄
  rw [serve_symmetric_after libc he htypeB halloc₄,hdevice] at hcall₄
  exact congrArg Prod.fst hcall₄

end Peers

section Plain
open PlainSsl

/-- The peers meet other clients before each of their calls, who use the same stream. -/
theorem peers_share_keys_nodes :
    let start : Process UInt32 := ⟨.listening,Server.start 32768 (49/100) 1⟩
    let others := [turnedAway,opening,fetching (Uuid.fill 1)]
    let asks := (.openConnect (askMimetype 1),yields 1,zeroed)
    let fetches := (.getKey (askKey (Uuid.fill 1) 7),yields 2,zeroed)
    let p₁ := (callAfter ansiPrng start others asks).2
    let p₂ := (callAfter ansiPrng p₁ others asks).2
    let y := callAfter ansiPrng p₂ others fetches
    y.1≠none ∧ (callAfter ansiPrng y.2 others fetches).1 = y.1 := by
  intro start others asks fetches p₁ p₂ y
  have hA : (askMimetype 1).keyStreamId=Uuid.nil := rfl
  have h₁ : Reaches ansiPrng start others asks := ⟨by decide +kernel,oneRecord_askMimetype _ _⟩
  obtain ⟨k,q₁,hq₁,hB⟩ := peers_share_keys ansiPrng hA h₁
  have hk : (callAfter ansiPrng start others asks).1 =
      some (.openConnect ⟨QkdStatusCode.successful.code,(askMimetype 1).qos,Uuid.fill 1⟩) := by
    decide +kernel
  obtain rfl : p₁ = q₁ := congrArg Prod.snd hq₁
  obtain rfl : Uuid.fill 1 = k := by
    rw [hq₁] at hk
    injection hk with hk
    injection hk with hk
    exact (congrArg OpenConnectResponse.keyStreamId hk).symm
  have h₂ : Reaches ansiPrng p₁ others asks := ⟨by decide +kernel,oneRecord_askMimetype _ _⟩
  obtain ⟨q₂,hq₂,hfetch⟩ := hB others _ _ _ h₂ (Or.inl ⟨hA,rfl,rfl⟩)
  obtain rfl : p₂ = q₂ := congrArg Prod.snd hq₂
  have h₃ : Reaches ansiPrng p₂ others fetches :=
    ⟨by decide +kernel,oneRecord_askKey (by decide +kernel)⟩
  obtain ⟨key,q₃,hq₃,hagain⟩ := hfetch 7 others _ _ _ h₃ rfl rfl
  obtain rfl : y.2 = q₃ := congrArg Prod.snd hq₃
  have h₄ : Reaches ansiPrng y.2 others fetches :=
    ⟨by decide +kernel,oneRecord_askKey (by decide +kernel)⟩
  have hy : y.1 = _ := congrArg Prod.fst hq₃
  have hz := hagain others _ _ _ h₄ rfl rfl
  rw [hy]
  exact ⟨Option.some_ne_none _,hz⟩

end Plain

end EtsiQkd004
