import EtsiQkd004.Server.AcceptLoop
import EtsiQkd004.Socket.Transfer
import EtsiQkd004.Library.Forwarding

/-! The accept loop as a server in front of the handlers: whatever its clients send, it does what
the handlers do with the requests that it can make out. -/
namespace EtsiQkd004
open WireCodec Registry Chunks OpenSsl

/-- The request that a branch of the servlet decodes. -/
def requestFromStream (service : UInt8) (memory : Bytes) : Option Request :=
  if service=QkdService.openConnectRequest.code then
    (qkdOpenConnectRequestFromStream.run memory).map fun x => .openConnect x.1
  else if service=QkdService.getKeyRequest.code then
    (qkdGetKeyRequestFromStream.run memory).map fun x => .getKey x.1
  else if service=QkdService.closeRequest.code then
    (qkdCloseRequestFromStream.run memory).map fun x => .close x.1
  else none

/-- The header and the payload that the servlet gets to dispatch on. -/
def Session.received [OpenSsl] (x : Session) : Option (QkdHeader × Bytes) :=
  if x.sslAccept = -1 then none
  else (recvFrame x.headerStack x.payloadStack x.records).filter fun y =>
    y.1.service≠QkdService.closeServer.code

/-- The request that a session comes down to, if there is one. -/
def Session.call [OpenSsl] (x : Session) : Option (Request × Env) := do
  let (header,payload) ← x.received
  let q ← requestFromStream header.service (payload ++ x.tail)
  pure (q,x.env)

/-- The bytes that reach the client of a response. -/
def Response.reply [OpenSsl] (p : Response) : Bytes :=
  match respond p.frame with
  | .sent bytes => bytes
  | .finished | .readFault | .aborted | .overrun | .nullSend => []

variable {σ : Type} (libc : Prng σ)

lemma afterServlet_respond [OpenSsl] (p : Response) (s : Server σ) :
    (afterServlet (respond p.frame,s)).1 = p.reply ∧
      (afterServlet (respond p.frame,s)).2.server = s := by
  rw [Response.reply]
  cases respond p.frame with
  | sent bytes => exact ⟨rfl,rfl⟩
  | finished | readFault | aborted | overrun | nullSend => exact ⟨rfl,rfl⟩

/-- What is decoded is encoded at the start of the memory, under the service it came with. -/
lemma requestFromStream_eq {service : UInt8} {memory : Bytes} {q : Request}
    (h : requestFromStream service memory = some q) :
    service=q.service.code ∧ ∃ rest, memory = q.toStream ++ rest := by
  unfold requestFromStream at h
  split_ifs at h with hopen hget hclose
  · obtain ⟨⟨r,rest⟩,hr,rfl⟩ := Option.map_eq_some_iff.mp h
    exact ⟨hopen,rest,(qkdOpenConnectRequest_exact _ _ _).mp hr⟩
  · obtain ⟨⟨r,rest⟩,hr,rfl⟩ := Option.map_eq_some_iff.mp h
    exact ⟨hget,rest,(qkdGetKeyRequest_exact _ _ _).mp hr⟩
  · obtain ⟨⟨r,rest⟩,hr,rfl⟩ := Option.map_eq_some_iff.mp h
    exact ⟨hclose,rest,(qkdCloseRequest_exact _ _ _).mp hr⟩

/-- A request that is encoded at the start of the memory is decoded. -/
lemma requestFromStream_toStream (q : Request) (rest : Bytes) :
    requestFromStream q.service.code (q.toStream ++ rest) = some q := by
  cases q with
  | openConnect r =>
    rw [requestFromStream,if_pos (by rfl),Request.toStream,
      qkdOpenConnectRequest_exact.decode_encode r rest,Option.map_some]
  | getKey r =>
    rw [requestFromStream,if_neg (of_decide_eq_true rfl),if_pos (by rfl),Request.toStream,
      qkdGetKeyRequest_exact.decode_encode r rest,Option.map_some]
  | close r =>
    rw [requestFromStream,if_neg (of_decide_eq_true rfl),if_neg (of_decide_eq_true rfl),
      if_pos (by rfl),Request.toStream,qkdCloseRequest_exact.decode_encode r rest,Option.map_some]

/-- A branch that cannot decode its request leaves the server alone. -/
lemma branch_undecoded [OpenSsl] {α β : Type} {fromStream : Decoder UInt8 α}
    (call : α → StateM (Server σ) β) (responseFrame : β → Option Frame) {memory : Bytes}
    (h : fromStream.run memory = none) (s : Server σ) :
    branch fromStream call responseFrame memory s = (.readFault,s) := by
  rw [branch,h]
  rfl

/-- Without a request the servlet ends the process. -/
lemma afterServlet_undecoded [OpenSsl] (env : Env) {header : QkdHeader} {payload tail : Bytes}
    (hservice : header.service≠QkdService.closeServer.code)
    (h : requestFromStream header.service (payload ++ tail) = none) (s : Server σ) :
    afterServlet (qkdServlet (serverCalls libc env) header payload tail s) = ([],⟨.dead,s⟩) := by
  rw [qkdServlet,if_neg hservice]
  rw [requestFromStream] at h
  split_ifs at h ⊢ with hopen hget hclose
  · rw [branch_undecoded _ _ (Option.map_eq_none_iff.mp h)]
    rfl
  · rw [branch_undecoded _ _ (Option.map_eq_none_iff.mp h)]
    rfl
  · rw [branch_undecoded _ _ (Option.map_eq_none_iff.mp h)]
    rfl
  · rfl

lemma Session.received_iff [OpenSsl] {x : Session} {y : QkdHeader × Bytes} :
    x.received = some y ↔ x.sslAccept ≠ -1 ∧
      recvFrame x.headerStack x.payloadStack x.records = some y ∧
      y.1.service≠QkdService.closeServer.code := by
  rw [Session.received]
  split_ifs with haccept
  · simp [haccept]
  · simp [haccept,Option.filter_eq_some_iff]

/-- A header that closes the server is not dispatched on. -/
lemma call_of_closing [OpenSsl] {x : Session} {headerData : QkdBytes} {rest body : Bytes}
    {header : QkdHeader} (hheader : recvRecords 8 x.headerStack x.records = .returned headerData rest)
    (hdecode : qkdHeaderFromStream.run headerData.data = some (header,body))
    (hservice : header.service=QkdService.closeServer.code) : x.call = none := by
  have hreceived : x.received = none := by
    rw [Option.eq_none_iff_forall_ne_some]
    intro y hy
    obtain ⟨-,hframe,hne⟩ := Session.received_iff.mp hy
    obtain ⟨headerData',rest',body',-,-,hheader',hdecode',-,-⟩ := recvFrame_some hframe
    rw [hheader] at hheader'
    obtain ⟨rfl,rfl⟩ := Recv.returned.inj hheader'
    rw [hdecode] at hdecode'
    obtain ⟨rfl,-⟩ := Prod.mk.inj (Option.some.inj hdecode')
    exact hne hservice
  rw [Session.call,hreceived]
  rfl

/-- A session that gets past its two receives is left to the dispatch of the servlet. Any other
leaves the server alone, and the loop in a state that does not depend on it. -/
lemma step_received [OpenSsl] (x : Session) :
    match x.received with
    | some (header,payload) => ∀ s : Server σ, (socketServerInit libc).step ⟨.listening,s⟩ x =
        afterServlet (qkdServlet (serverCalls libc x.env) header payload x.tail s)
    | none => ∃ status, ∀ s : Server σ,
        (socketServerInit libc).step ⟨.listening,s⟩ x = ([],⟨status,s⟩) := by
  have hstep (s : Server σ) : (socketServerInit libc).step ⟨.listening,s⟩ x =
      if x.sslAccept = -1 then ([],⟨.listening,s⟩) else servletSession libc s x := rfl
  simp only [hstep,servletSession,Session.received,recvFrame]
  by_cases haccept : x.sslAccept = -1
  · simp only [if_pos haccept]
    exact ⟨_,fun _ => rfl⟩
  simp only [if_neg haccept]
  cases recvRecords 8 x.headerStack x.records with
  | exited | overread | waiting => exact ⟨_,fun _ => rfl⟩
  | returned headerData rest =>
    simp only [Recv.andThen]
    cases qkdHeaderFromStream.run headerData.data with
    | none => exact ⟨_,fun _ => rfl⟩
    | some y =>
      simp only
      cases recvRecords y.1.payloadSize.toUInt64 x.payloadStack
        (skip (x.records.flatten.length - rest.length) x.records) with
      | exited | overread | waiting =>
        simp only [Option.filter_none]
        split_ifs
        · exact ⟨_,fun _ => rfl⟩
        · exact ⟨_,fun _ => rfl⟩
      | returned payload _ =>
        by_cases hclose : y.1.service=QkdService.closeServer.code
        · simp only [Option.filter_some,hclose,ne_eq,not_true,decide_false,if_pos]
          exact ⟨_,fun _ => rfl⟩
        · simp [Option.filter_some,hclose]

/-- The request that a session comes down to is served, and the response sent if it can be. -/
lemma step_call [OpenSsl] {x : Session} {i : Request × Env} (h : x.call = some i) (s : Server σ) :
    (socketServerInit libc).step ⟨.listening,s⟩ x =
      afterServlet (respond (serve libc s i).1.frame,(serve libc s i).2) := by
  have hstep := step_received libc x
  rw [Session.call] at h
  obtain ⟨⟨header,payload⟩,hreceived,h⟩ := Option.bind_eq_some_iff.mp h
  obtain ⟨q,hq,h⟩ := Option.bind_eq_some_iff.mp h
  obtain rfl := Option.some.inj h
  obtain ⟨hservice,rest,hdecode⟩ := requestFromStream_eq hq
  rw [hreceived] at hstep
  rw [hstep s,qkdServlet_serve libc s q x.env hservice rest hdecode]

/-- A session that comes down to none sends nothing and leaves the server alone. -/
lemma step_no_call [OpenSsl] {x : Session} (h : x.call = none) :
    ∃ status, ∀ s : Server σ, (socketServerInit libc).step ⟨.listening,s⟩ x = ([],⟨status,s⟩) := by
  have hstep := step_received libc x
  rw [Session.call] at h
  cases hreceived : x.received with
  | none =>
    rw [hreceived] at hstep
    exact hstep
  | some y =>
    rw [hreceived] at hstep h
    have hq : requestFromStream y.1.service (y.2 ++ x.tail) = none := by
      cases hq : requestFromStream y.1.service (y.2 ++ x.tail) with
      | none => rfl
      | some q => simp [hq] at h
    refine ⟨.dead,fun s => ?_⟩
    rw [hstep s,afterServlet_undecoded libc x.env (Session.received_iff.mp hreceived).2.2 hq]

lemma Request.toStream_ne_nil (q : Request) : q.toStream≠[] := by
  apply List.ne_nil_of_length_pos
  rw [requestSize_eq]
  cases q with
  | openConnect r =>
    rw [requestSize]
    omega
  | getKey r =>
    rw [requestSize]
    omega
  | close r => exact Nat.zero_lt_succ _

/-- A request whose frame fits into one record is made out. -/
lemma call_of_frame [OpenSsl] {x : Session} {q : Request} (haccept : x.sslAccept ≠ -1)
    (hrecords : x.records = sslRecords (messageFrame q.service q.toStream).sent)
    (hq : 8 + q.toStream.length ≤ 16384) : x.call = some (q,x.env) := by
  have hframe : recvFrame x.headerStack x.payloadStack x.records =
      some ((messageFrame q.service q.toStream).header,q.toStream) := by
    rw [hrecords]
    exact recvFrame_short q.service q.toStream_ne_nil hq _ _
  have hreceived := Session.received_iff.mpr ⟨haccept,hframe,q.service_ne_closeServer⟩
  have hrequest : requestFromStream (messageFrame q.service q.toStream).header.service
      (q.toStream ++ x.tail) = some q := requestFromStream_toStream q x.tail
  simp only [Session.call,hreceived,Option.bind_eq_bind,Option.bind_some,hrequest,Option.pure_def]

/-- The accept loop stands in front of the handlers. -/
theorem socketServerInit_forwards [OpenSsl] :
    (socketServerInit libc).Forwards (server libc) (fun p => p.status = .listening)
      Process.server Session.call Response.reply [] where
  stopped p x hp := by
    obtain ⟨status,s⟩ := p
    cases status with
    | listening => exact absurd rfl hp
    | finished | dead => rfl
  dropped p x hp hcall := by
    obtain ⟨status,s⟩ := p
    obtain rfl : status = .listening := hp
    obtain ⟨status,hstep⟩ := step_no_call libc hcall
    rw [hstep s]
    exact ⟨rfl,rfl⟩
  passed p x i hp hcall := by
    obtain ⟨status,s⟩ := p
    obtain rfl : status = .listening := hp
    rw [step_call libc hcall]
    exact afterServlet_respond _ _

section Scenario

/-- A client that sends the bytes, over zeroed memory. -/
def sendsBytes [OpenSsl] (data : Bytes) : Session := sends (sslRecords data) (records_le data)

/-- A client whose handshake fails. -/
def turnedAway [OpenSsl] : Session := { sendsBytes [] with sslAccept := -1 }

/-- A client that opens a stream, and one that asks for a key. -/
def opening [OpenSsl] : Session :=
  sendsBytes (messageFrame .openConnectRequest (qkdOpenConnectRequestToStream (askMimetype 1))).sent
def fetching [OpenSsl] (k : Uuid) : Session :=
  sendsBytes (messageFrame .getKeyRequest (qkdGetKeyRequestToStream (askKey k 9))).sent

lemma fetching_call [OpenSsl] (k : Uuid) :
    (fetching k).call = some (.getKey (askKey k 9),yields 1) := by
  have haccept : (fetching k).sslAccept ≠ -1 := by
    change (1 : Int32) ≠ -1
    decide
  have hsize : 8 + (Request.getKey (askKey k 9)).toStream.length ≤ 16384 := by
    rw [requestSize_eq]
    change 8 + (24 + 2) ≤ 16384
    decide
  exact call_of_frame haccept rfl hsize

end Scenario

/-- Whatever the clients send, in whatever records: up to the session that ends the loop, if there
is one, the server is in the state of the handlers called with the requests made out so far, in
their order; the clients that made them get the responses; and nobody gets anything else. -/
theorem sessions_refine_calls [OpenSsl] (s : Server σ) (sessions : List Session) :
    ∃ n ≤ sessions.length,
      (((socketServerInit libc).after ⟨.listening,s⟩ sessions).status = .listening →
        n = sessions.length) ∧
      ((socketServerInit libc).after ⟨.listening,s⟩ sessions).server =
        (server libc).after s ((sessions.take n).filterMap Session.call) ∧
      SerialMachine.handedOn Session.call
          (((socketServerInit libc).trace ⟨.listening,s⟩ sessions).take n) =
        ((server libc).trace s ((sessions.take n).filterMap Session.call)).map
          (fun x => (x.1,x.2.reply)) ∧
      (∀ x ∈ ((socketServerInit libc).trace ⟨.listening,s⟩ sessions).take n,
        x.1.call = none → x.2 = []) ∧
      ∀ x ∈ ((socketServerInit libc).trace ⟨.listening,s⟩ sessions).drop n, x.2 = [] :=
  (socketServerInit_forwards libc).run ⟨.listening,s⟩ sessions

section Plain
open PlainSsl

/-- A stream is opened, and a key of it fetched. -/
theorem sessions_refine_calls_two :
    let s := Server.start 32768 (49/100) (1 : UInt32)
    let sessions := [turnedAway,opening,fetching (Uuid.fill 1)]
    (sessions.filterMap Session.call).length = 2 ∧
      ((socketServerInit ansiPrng).after ⟨.listening,s⟩ sessions).server =
        (server ansiPrng).after s (sessions.filterMap Session.call) := by
  intro s sessions
  obtain ⟨n,-,hn,hserver,-⟩ := sessions_refine_calls ansiPrng s sessions
  have halive : ((socketServerInit ansiPrng).after ⟨.listening,s⟩ sessions).status = .listening := by
    decide +kernel
  rw [hn halive,List.take_length] at hserver
  exact ⟨by decide +kernel,hserver⟩

end Plain

/-- A loop that is still listening has served all requests that could be made out. -/
lemma after_listening [OpenSsl] {s : Server σ} {sessions : List Session}
    (halive : ((socketServerInit libc).after ⟨.listening,s⟩ sessions).status = .listening) :
    (socketServerInit libc).after ⟨.listening,s⟩ sessions =
      ⟨.listening,(server libc).after s (sessions.filterMap Session.call)⟩ := by
  obtain ⟨n,-,hn,hserver,-⟩ := (socketServerInit_forwards libc).run ⟨.listening,s⟩ sessions
  rw [hn halive,List.take_length] at hserver
  exact (congrArg₂ Process.mk halive hserver :)

section Settled

/-- A request whose answer is settled: what it asks for is registered, or it asks for nothing. -/
def Settled (s : Server σ) : Request → Prop
  | .openConnect r => r.keyStreamId≠Uuid.nil ∨
      (r.source,r.destination) ∈ s.store.map KsidInfo.endpoints
  | .getKey r => r.keyStreamId ∈ s.store.map KsidInfo.keyStreamId
  | .close _ => True

/-- The two numbers that the server reports of its device never change. -/
lemma after_device (s : Server σ) (run : List (Request × Env)) :
    deviceMetadata ((server libc).after s run).config = deviceMetadata s.config := by
  refine SerialMachine.after_rel (M := server libc)
    (R := fun s t => deviceMetadata t.config = deviceMetadata s.config) (fun _ => rfl)
    (fun _ _ _ h h' => h'.trans h) ?_ s run
  rintro s ⟨q,env⟩
  cases q with
  | openConnect r =>
    by_cases hnil : r.keyStreamId=Uuid.nil
    · cases hl : lookup KsidInfo.endpoints (r.source,r.destination) s.store with
      | some e => simp only [server,serve_found libc hnil hl]
      | none =>
        simp only [server,serve_minted libc hnil hl]
        rfl
    · simp only [server,serve_supplied libc hnil]
  | getKey r =>
    cases hsearch : getKeySearch r.keyStreamId s.config.ksidInfoLinkedList with
    | none => simp only [server,serve,qkdGetKeyStruct,serverCalls,StateT.run,hsearch]
    | some x =>
      simp only [server,serve,qkdGetKeyStruct,serverCalls,StateT.run,hsearch]
      rfl
  | close r => rfl

/-- The key does not depend on the state of the generator. -/
lemma keyFor_eq_of_stream {e e' : KsidInfo} (h : e'.stream = e.stream) (r : GetKeyRequest)
    (env : Env) (prng prng' : σ) : keyFor libc e' r env prng' = keyFor libc e r env prng := by
  apply QkdBytes.eq_of_data
  rw [keyFor_data_of_stream libc h]
  simp only [keyFor_data]

/-- A settled request is answered alike whatever is served before it. -/
lemma serve_settled {s : Server σ} {q : Request} (h : Settled s q) (env : Env)
    (run : List (Request × Env)) :
    (serve libc ((server libc).after s run) (q,env)).1 = (serve libc s (q,env)).1 := by
  cases q with
  | openConnect r =>
    by_cases hnil : r.keyStreamId=Uuid.nil
    · obtain ⟨e,he⟩ := exists_lookup_iff.mpr (h.resolve_left (not_not.mpr hnil))
      have hd : directory s.store (r.source,r.destination) = some e.keyStreamId := by
        rw [directory,he,Option.map_some]
      obtain ⟨e',he',hk⟩ := Option.map_eq_some_iff.mp (directory_after libc s run _ _ hd)
      rw [serve_found libc hnil he,serve_found libc hnil he',hk]
    · rw [serve_supplied libc hnil,serve_supplied libc hnil]
  | getKey r =>
    obtain ⟨e,he⟩ := exists_lookup_iff.mpr h
    obtain ⟨e',he',hs⟩ := lookup_after libc he run
    rw [serve_delivered libc he,serve_delivered libc he',after_device,
      keyFor_eq_of_stream libc hs]
  | close r => rfl

/-- A session with a settled request, or with none, does the same whatever is served before it. -/
lemma step_settled [OpenSsl] {s : Server σ} {x : Session} (h : ∀ i, x.call = some i → Settled s i.1)
    (run : List (Request × Env)) :
    let y := (socketServerInit libc).step ⟨.listening,(server libc).after s run⟩ x
    y.1 = ((socketServerInit libc).step ⟨.listening,s⟩ x).1 ∧
      y.2.status = ((socketServerInit libc).step ⟨.listening,s⟩ x).2.status := by
  cases hcall : x.call with
  | none =>
    obtain ⟨status,hstep⟩ := step_no_call libc hcall
    rw [hstep,hstep]
    exact ⟨rfl,rfl⟩
  | some i =>
    rw [step_call libc hcall,step_call libc hcall,serve_settled libc (h i hcall)]
    cases respond (serve libc s i).1.frame with
    | sent bytes => exact ⟨rfl,rfl⟩
    | finished | readFault | aborted | overrun | nullSend => exact ⟨rfl,rfl⟩

/-- Other clients cannot change what a settled request is answered: after any sessions of theirs
that leave the loop listening, its session gets the same bytes as it would have got at once, and
leaves the loop in the same way. -/
theorem settled_undisturbed [OpenSsl] {s : Server σ} {x : Session} {q : Request} {env : Env}
    (hcall : x.call = some (q,env)) (hsettled : Settled s q) {others : List Session}
    (halive : ((socketServerInit libc).after ⟨.listening,s⟩ others).status = .listening) :
    let p := (socketServerInit libc).after ⟨.listening,s⟩ others
    ((socketServerInit libc).step p x).1 = ((socketServerInit libc).step ⟨.listening,s⟩ x).1 ∧
    ((socketServerInit libc).step p x).2.status =
      ((socketServerInit libc).step ⟨.listening,s⟩ x).2.status := by
  intro p
  have hp : p = ⟨.listening,(server libc).after s (others.filterMap Session.call)⟩ :=
    after_listening libc halive
  rw [hp]
  refine step_settled libc (fun i hi => ?_) _
  rw [hcall] at hi
  obtain rfl := Option.some.inj hi
  exact hsettled

end Settled

section Plain
open PlainSsl

/-- A key is fetched behind a client that registers another stream and one that is refused. -/
theorem settled_undisturbed_behind_two :
    let s := (server ansiPrng).after (Server.start 32768 (49/100) 1)
      [(askStream nodeB nodeA 3,yields 7)]
    let p := (socketServerInit ansiPrng).after ⟨.listening,s⟩ [opening,turnedAway]
    p.server.store.length = 2 ∧
      ((socketServerInit ansiPrng).step p (fetching (Uuid.fill 7))).1 =
        ((socketServerInit ansiPrng).step ⟨.listening,s⟩ (fetching (Uuid.fill 7))).1 := by
  intro s
  have hsettled : Settled s (.getKey (askKey (Uuid.fill 7) 9)) := by
    change Uuid.fill 7 ∈ s.store.map KsidInfo.keyStreamId
    decide +kernel
  have halive : ((socketServerInit ansiPrng).after ⟨.listening,s⟩ [opening,turnedAway]).status =
      .listening := by decide +kernel
  exact ⟨by decide +kernel,
    (settled_undisturbed ansiPrng (fetching_call (Uuid.fill 7)) hsettled halive).1⟩

end Plain

end EtsiQkd004
