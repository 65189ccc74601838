import EtsiQkd004.Server.Servlet
import EtsiQkd004.Socket.Records

/-! The accept loop: one client session after another is given to the servlet, until one of them
closes the server or ends the process. Memory does not run out here, and what is sent to a client
that has gone is lost without a signal. -/
namespace EtsiQkd004
open WireCodec Registry Chunks

/-- `server_status`, and a process that has ended in any other way than by leaving the loop. -/
inductive ServerStatus
  | listening
  | finished
  | dead
  deriving DecidableEq

structure Process (σ : Type) where
  status : ServerStatus
  server : Server σ

/-- What one client session brings: the result of the handshake, the records the client sends
before it closes the connection, and what the servlet meets in memory: under the buffers of the
two receives and behind the payload. A record has at most 2^14 bytes. -/
structure Session where
  sslAccept : Int32
  records : List Bytes
  record_le : ∀ record ∈ records, record.length ≤ 16384
  headerStack : ℕ → UInt8
  payloadStack : ℕ → UInt8
  tail : Bytes
  env : Env

/-- The session delivers a complete header with the service that closes the server. -/
def Session.closesServer (x : Session) : Bool :=
  x.sslAccept ≠ -1 &&
    match qkdHeaderFromStream.run x.records.flatten with
    | some (header,_) => header.service = QkdService.closeServer.code
    | none => false

variable {σ : Type} (libc : Prng σ)

/-- The bytes sent and the process after the servlet. -/
def afterServlet : Outcome × Server σ → Bytes × Process σ
  | (.sent bytes,s) => (bytes,⟨.listening,s⟩)
  | (.finished,s) => ([],⟨.finished,s⟩)
  | (.readFault,s) | (.aborted,s) | (.overrun,s) | (.nullSend,s) => ([],⟨.dead,s⟩)

/-- A receive that does not return ends the process. None is left waiting by a client that has
closed, as `recvRecords_ne_waiting` shows. -/
def Recv.andThen (s : Server σ) (next : QkdBytes → Bytes → Bytes × Process σ) :
    Recv → Bytes × Process σ
  | .returned msg rest => next msg rest
  | .exited | .overread | .waiting => ([],⟨.dead,s⟩)

/-- The servlet from its first receive on. -/
def servletSession [OpenSsl] (s : Server σ) (x : Session) : Bytes × Process σ :=
  (recvRecords 8 x.headerStack x.records).andThen s fun headerData rest =>
    match qkdHeaderFromStream.run headerData.data with
    | none => ([],⟨.dead,s⟩)
    | some (header,_) =>
      if header.service=QkdService.closeServer.code then ([],⟨.finished,s⟩)
      else
        let records := skip (x.records.flatten.length - rest.length) x.records
        (recvRecords header.payloadSize.toUInt64 x.payloadStack records).andThen s fun payload _ =>
          afterServlet (qkdServlet (serverCalls libc x.env) header payload.data x.tail s)

/-- The loop of `socket_server_init`. A client whose handshake fails is not served, and nobody is
once the loop has been left. -/
def socketServerInit [OpenSsl] : SerialMachine (Process σ) Session Bytes where
  step p x :=
    match p.status with
    | .listening => if x.sslAccept = -1 then ([],p) else servletSession libc p.server x
    | .finished | .dead => ([],p)

/-- A session that does no harm. Its handshake fails, or its header comes in one record and
closes the server, or the header announces a request whose payload comes in one record too, is
complete, and can be answered: with a mimetype that is not too long, in less than 2^32 bytes. -/
inductive Orderly (s : Server σ) (x : Session) : Prop
  | refused (accept : x.sslAccept = -1)
  | closing {header body}
      (header_read : qkdHeaderFromStream.run (first x.records) = some (header,body))
      (service : header.service=QkdService.closeServer.code)
  | request {header body rest} {q : Request}
      (header_read : qkdHeaderFromStream.run (first x.records) = some (header,body))
      (service : header.service=q.service.code)
      (payload : arrived header.payloadSize (first (skip 8 x.records)) = some (q.toStream ++ rest))
      (mimetype : ∀ r, q = .openConnect r → r.qos.metadataMimetype.chars.length ≤ 255)
      (response : responseSize s (q,x.env) < 2^32)

section Session
variable {s : Server σ} {x : Session} {header : QkdHeader} {body : Bytes}
  (hheader : qkdHeaderFromStream.run (first x.records) = some (header,body))
include hheader

/-- A header that is within the first record is received. -/
lemma recvRecords_header [OpenSsl] : ∃ msg,
    recvRecords 8 x.headerStack x.records = .returned msg (x.records.flatten.drop 8) ∧
      qkdHeaderFromStream.run msg.data = some (header,[]) := by
  have hfirst := (qkdHeader_exact _ _ _).mp hheader
  have hlen := qkdHeaderToStream_length header
  have h8 : (8 : UInt32).toNat ≤ (first x.records).length := by
    rw [hfirst,List.length_append,hlen]
    exact Nat.le_add_right _ _
  obtain ⟨msg,hmsg,hdata⟩ := recvRecords_one (n := 8) (by decide) (by decide) h8 (by decide)
    x.headerStack
  refine ⟨msg,hmsg,?_⟩
  rw [hdata,hfirst]
  rw [show (8 : UInt32).toNat = 8 from rfl,List.take_left' hlen]
  have hdecode := qkdHeader_exact.decode_encode header []
  rwa [List.append_nil] at hdecode

/-- Only the first record decides whether such a session closes the server. -/
lemma closesServer_eq (haccept : x.sslAccept ≠ -1) :
    x.closesServer = decide (header.service=QkdService.closeServer.code) := by
  obtain ⟨later,hlater⟩ := first_initial x.records
  have hrun := qkdHeader_exact.extend hheader later
  rw [hlater] at hrun
  simp [Session.closesServer,haccept,hrun]

lemma servletSession_closing [OpenSsl] (hservice : header.service=QkdService.closeServer.code) :
    servletSession libc s x = ([],⟨.finished,s⟩) := by
  obtain ⟨msg,hmsg,hdecode⟩ := recvRecords_header hheader
  simp only [servletSession,hmsg,Recv.andThen,hdecode,if_pos hservice]

/-- The header is followed by the receive of its payload. -/
lemma servletSession_payload [OpenSsl] (hservice : header.service≠QkdService.closeServer.code) :
    servletSession libc s x =
      (recvRecords header.payloadSize.toUInt64 x.payloadStack (skip 8 x.records)).andThen s
        fun payload _ =>
          afterServlet (qkdServlet (serverCalls libc x.env) header payload.data x.tail s) := by
  obtain ⟨msg,hmsg,hdecode⟩ := recvRecords_header hheader
  have hskip : x.records.flatten.length - (x.records.flatten.drop 8).length = 8 := by
    have hlen := congrArg List.length ((qkdHeader_exact _ _ _).mp hheader)
    have hle := (first_initial x.records).length_le
    rw [List.length_append,qkdHeaderToStream_length] at hlen
    rw [List.length_drop]
    omega
  rw [servletSession,hmsg]
  simp only [Recv.andThen,hdecode,if_neg hservice,hskip]

end Session

lemma Request.service_ne_closeServer (q : Request) :
    q.service.code ≠ QkdService.closeServer.code := by
  cases q with
  | openConnect r => exact of_decide_eq_true rfl
  | getKey r => exact of_decide_eq_true rfl
  | close r => exact of_decide_eq_true rfl

/-- A request that arrives whole is served, the response is sent and the server goes on. -/
lemma servletSession_request [OpenSsl] {s : Server σ} {x : Session} {header : QkdHeader}
    {body rest : Bytes} {q : Request}
    (hheader : qkdHeaderFromStream.run (first x.records) = some (header,body))
    (hservice : header.service=q.service.code)
    (hpayload : arrived header.payloadSize (first (skip 8 x.records)) = some (q.toStream ++ rest))
    (hmime : ∀ r, q = .openConnect r → r.qos.metadataMimetype.chars.length ≤ 255)
    (hresponse : responseSize s (q,x.env) < 2^32) :
    ∃ f, (serve libc s (q,x.env)).1.frame = some f ∧
      servletSession libc s x = (f.sent,⟨.listening,(serve libc s (q,x.env)).2⟩) := by
  have hne : header.service≠QkdService.closeServer.code := by
    rw [hservice]
    exact q.service_ne_closeServer
  have hle := first_length_le (length_le_of_mem_skip x.record_le 8)
  obtain ⟨msg,hmsg,hdata⟩ := recvRecords_arrived hpayload hle x.payloadStack
  obtain ⟨f,hf⟩ := responseFrame_isSome libc s x.env hmime
  have hover : ¬ f.Overrun := by
    rw [Response.frame_eq hf,messageFrame_overrun_iff,responseSize_eq]
    omega
  have hdecode : msg.data ++ x.tail = q.toStream ++ (rest ++ x.tail) := by
    rw [hdata,List.append_assoc]
  refine ⟨f,hf,?_⟩
  rw [servletSession_payload libc hheader hne,hmsg]
  simp only [Recv.andThen,qkdServlet_serve libc s q x.env hservice _ hdecode,hf,respond,
    if_neg hover,afterServlet]

/-- One session: only the closing one ends an orderly process, and it does so by finishing. -/
lemma step_status [OpenSsl] {s : Server σ} {x : Session} (h : Orderly s x) :
    ((socketServerInit libc).step ⟨.listening,s⟩ x).2.status =
      if x.closesServer then .finished else .listening := by
  have hstep : (socketServerInit libc).step ⟨.listening,s⟩ x =
      if x.sslAccept = -1 then ([],⟨.listening,s⟩) else servletSession libc s x := rfl
  by_cases haccept : x.sslAccept = -1
  · rw [hstep,if_pos haccept]
    simp [Session.closesServer,haccept]
  · rw [hstep,if_neg haccept]
    cases h with
    | refused accept => exact absurd accept haccept
    | closing hheader hservice =>
      rw [servletSession_closing libc hheader hservice,closesServer_eq hheader haccept,
        decide_eq_true hservice]
      rfl
    | @request header _ _ q hheader hservice hpayload hmime hresponse =>
      obtain ⟨f,-,hrun⟩ := servletSession_request libc hheader hservice hpayload hmime hresponse
      have hne : ¬ header.service=QkdService.closeServer.code := by
        rw [hservice]
        exact q.service_ne_closeServer
      rw [hrun,closesServer_eq hheader haccept,decide_eq_false hne]
      rfl

section Exactness

/-- Neither the header nor the payload of the session is split over several records: each of
them is within one, or is never complete. -/
structure Session.Whole (x : Session) : Prop where
  header : x.records.flatten.length < 8 ∨ 8 ≤ (first x.records).length
  payload : ∀ header body, qkdHeaderFromStream.run (first x.records) = some (header,body) →
    arrived header.payloadSize (first (skip 8 x.records)) = none →
      header.payloadSize=0 ∨ header.payloadSize=16384 ∨
        x.records.flatten.length < 8 + header.payloadSize.toNat

lemma exists_header {p : Bytes} (h : 8 ≤ p.length) :
    ∃ header body, qkdHeaderFromStream.run p = some (header,body) := by
  match p,h with
  | _::_::_::_::_::_::_::_::_,_ => exact ⟨_,_,rfl⟩

lemma sent_of_listening {o : Outcome × Server σ} (h : (afterServlet o).2.status = .listening) :
    ∃ bytes, o.1 = .sent bytes := by
  obtain ⟨outcome,s⟩ := o
  cases outcome with
  | sent bytes => exact ⟨bytes,rfl⟩
  | finished | readFault | aborted | overrun | nullSend => cases h

/-- Without memory to run into, what the servlet answers is a complete request. -/
lemma request_of_sent [OpenSsl] {s : Server σ} {env : Env} {header : QkdHeader}
    {payload bytes : Bytes} (h : (qkdServlet (serverCalls libc env) header payload [] s).1 = .sent bytes) :
    ∃ (q : Request) (rest : Bytes), header.service=q.service.code ∧ payload = q.toStream ++ rest := by
  have hmem : payload ++ [] = payload := List.append_nil payload
  have hfault : (qkdServlet (serverCalls libc env) header payload [] s).1 ≠ .readFault := by
    simp [h]
  by_cases hopen : header.service=QkdService.openConnectRequest.code
  · simp only [qkdServlet,hopen,hmem] at hfault
    obtain ⟨r,rest,hr⟩ := branch_decoded hfault
    exact ⟨.openConnect r,rest,hopen,(qkdOpenConnectRequest_exact _ _ _).mp hr⟩
  by_cases hget : header.service=QkdService.getKeyRequest.code
  · simp only [qkdServlet,hget,hmem] at hfault
    obtain ⟨r,rest,hr⟩ := branch_decoded hfault
    exact ⟨.getKey r,rest,hget,(qkdGetKeyRequest_exact _ _ _).mp hr⟩
  by_cases hclose : header.service=QkdService.closeRequest.code
  · simp only [qkdServlet,hclose,hmem] at hfault
    obtain ⟨r,rest,hr⟩ := branch_decoded hfault
    exact ⟨.close r,rest,hclose,(qkdCloseRequest_exact _ _ _).mp hr⟩
  · rw [qkdServlet,if_neg hopen,if_neg hget,if_neg hclose] at h
    split_ifs at h
    · cases h
    · cases h

lemma answerable_of_sent [OpenSsl] {s : Server σ} {q : Request} {env : Env} {bytes : Bytes}
    (h : respond (serve libc s (q,env)).1.frame = .sent bytes) (hlen : q.toStream.length < 2^64) :
    (∀ r, q = .openConnect r → r.qos.metadataMimetype.chars.length ≤ 255) ∧
      responseSize s (q,env) < 2^32 := by
  cases hf : (serve libc s (q,env)).1.frame with
  | none =>
    rw [hf] at h
    cases h
  | some f =>
    refine ⟨mimetype_of_frame libc hf hlen,?_⟩
    rw [hf,respond] at h
    split_ifs at h with hover
    rw [Response.frame_eq hf,messageFrame_overrun_iff,responseSize_eq] at hover
    omega

lemma returned_of_alive {s : Server σ} {next : QkdBytes → Bytes → Bytes × Process σ} {r : Recv}
    (h : (r.andThen s next).2.status ≠ .dead) : ∃ msg rest, r = .returned msg rest := by
  cases r with
  | returned msg rest => exact ⟨msg,rest,rfl⟩
  | exited | overread | waiting => exact absurd rfl h

/-- A header that is not split comes as a whole, or the process does not survive. -/
lemma header_of_alive [OpenSsl] {s : Server σ} {x : Session} (hwhole : x.Whole)
    (halive : (servletSession libc s x).2.status ≠ .dead) : 8 ≤ (first x.records).length := by
  rcases hwhole.header with hshort | hlen
  · obtain ⟨msg,rest,hmsg⟩ := returned_of_alive halive
    have hnone : arrived 8 (first x.records) = none := by
      have hle := (first_initial x.records).length_le
      rw [arrived,if_neg (by decide),if_neg]
      change ¬ 8 ≤ (first x.records).length
      omega
    exact absurd hmsg (recvRecords_short hnone (Or.inr (Or.inr hshort)) _ _ _)
  · exact hlen

/-- A payload that is not split is not received unless it comes as a whole. -/
lemma Session.Whole.payload_short [OpenSsl] {x : Session} (hwhole : x.Whole) {header : QkdHeader}
    {body : Bytes} (hheader : qkdHeaderFromStream.run (first x.records) = some (header,body))
    (hnone : arrived header.payloadSize (first (skip 8 x.records)) = none) (msg : QkdBytes)
    (rest : Bytes) :
    recvRecords header.payloadSize.toUInt64 x.payloadStack (skip 8 x.records) ≠
      .returned msg rest := by
  apply recvRecords_short hnone
  rw [flatten_skip,List.length_drop]
  have hlen := congrArg List.length ((qkdHeader_exact _ _ _).mp hheader)
  have hle := (first_initial x.records).length_le
  rw [List.length_append,qkdHeaderToStream_length] at hlen
  rcases hwhole.payload header body hheader hnone with h0 | hmax | hlt
  · exact Or.inl h0
  · exact Or.inr (Or.inl hmax)
  · exact Or.inr (Or.inr (by omega))

/-- Without memory to run into, only orderly sessions leave the process as they should. -/
lemma orderly_of_status [OpenSsl] {s : Server σ} {x : Session} (hwhole : x.Whole)
    (htail : x.tail = []) (haccept : x.sslAccept ≠ -1)
    (h : (servletSession libc s x).2.status = if x.closesServer then .finished else .listening) :
    Orderly s x := by
  have halive : (servletSession libc s x).2.status ≠ .dead := by
    rw [h]
    split_ifs
    · simp
    · simp
  obtain ⟨header,body,hheader⟩ := exists_header (header_of_alive libc hwhole halive)
  by_cases hclose : header.service=QkdService.closeServer.code
  · exact .closing hheader hclose
  rw [servletSession_payload libc hheader hclose] at h halive
  cases harrived : arrived header.payloadSize (first (skip 8 x.records)) with
  | none =>
    obtain ⟨msg,rest,hmsg⟩ := returned_of_alive halive
    exact absurd hmsg (hwhole.payload_short hheader harrived msg rest)
  | some payload =>
    have hle := first_length_le (length_le_of_mem_skip x.record_le 8)
    obtain ⟨msg,hmsg,hdata⟩ := recvRecords_arrived harrived hle x.payloadStack
    rw [hmsg,Recv.andThen,hdata,htail,closesServer_eq hheader haccept,decide_eq_false hclose] at h
    obtain ⟨bytes,hsent⟩ := sent_of_listening h
    obtain ⟨q,rest,hservice,rfl⟩ := request_of_sent libc hsent
    have hdecode : q.toStream ++ rest ++ [] = q.toStream ++ rest := List.append_nil _
    rw [qkdServlet_serve libc s q x.env hservice rest hdecode] at hsent
    have hlen : q.toStream.length < 2^64 := by
      have hlt := msg.length_lt
      rw [hdata,List.length_append] at hlt
      omega
    obtain ⟨hmime,hresponse⟩ := answerable_of_sent libc hsent hlen
    exact .request hheader hservice harrived hmime hresponse

/-- The memory behind the payload makes no difference to an orderly session. -/
lemma Orderly.withTail {s : Server σ} {x : Session} (h : Orderly s x) (tail : Bytes) :
    Orderly s { x with tail } := by
  cases h with
  | refused haccept => exact .refused haccept
  | closing hheader hservice => exact .closing hheader hservice
  | request hheader hservice hpayload hmime hresponse =>
    exact .request hheader hservice hpayload hmime hresponse

/-- For a session that is not split, whatever the state of the server: its being orderly is
exactly what it takes to leave the process as it should, over every memory behind the payload. -/
theorem orderly_iff [OpenSsl] {s : Server σ} {x : Session} (hwhole : x.Whole) :
    (∀ tail, ((socketServerInit libc).step ⟨.listening,s⟩ { x with tail }).2.status =
      if x.closesServer then .finished else .listening) ↔ Orderly s x := by
  constructor
  · intro h
    by_cases haccept : x.sslAccept = -1
    · exact .refused haccept
    have h0 := h []
    have hstep : (socketServerInit libc).step ⟨.listening,s⟩ { x with tail := [] } =
        servletSession libc s { x with tail := [] } := if_neg haccept
    rw [hstep] at h0
    have horderly := orderly_of_status libc (x := { x with tail := [] })
      ⟨hwhole.header,hwhole.payload⟩ rfl haccept h0
    exact horderly.withTail x.tail
  · intro h tail
    exact step_status libc (h.withTail tail)

end Exactness

/-- A run of sessions none of which does harm, in the state of the server that it meets: after
each of them the process is listening, or it has finished because one of them closed it. -/
theorem orderly_run [OpenSsl] {s : Server σ} {sessions : List Session}
    (h : (socketServerInit libc).Along (fun p x => p.status = .listening → Orderly p.server x)
      ⟨.listening,s⟩ sessions) {pre : List Session} (hpre : pre <+: sessions) :
    ((socketServerInit libc).after ⟨.listening,s⟩ pre).status =
      if pre.any Session.closesServer then .finished else .listening := by
  obtain ⟨post,rfl⟩ := hpre
  have hpre := (((socketServerInit libc).along_append _ _ _ _).mp h).1
  let J (hist : List (Session × Bytes)) (p : Process σ) : Prop :=
    p.status = if (hist.map Prod.fst).any Session.closesServer then .finished else .listening
  have hJ : J ((socketServerInit libc).trace ⟨.listening,s⟩ pre)
      ((socketServerInit libc).after ⟨.listening,s⟩ pre) := by
    apply hpre.trace_invariant (J := J)
    · intro hist p x horderly hp
      simp only [J,List.map_append,List.map_cons,List.map_nil,List.any_append,List.any_cons,
        List.any_nil,Bool.or_false] at hp ⊢
      cases hany : (hist.map Prod.fst).any Session.closesServer with
      | true =>
        rw [hany,if_pos rfl] at hp
        simp [socketServerInit,hp]
      | false =>
        rw [hany,if_neg (by decide)] at hp
        obtain ⟨status,server⟩ := p
        obtain rfl : status = .listening := hp
        rw [step_status libc (horderly rfl),Bool.false_or]
    · rfl
  simpa only [J,SerialMachine.trace_map_fst] using hJ

/-- A client that sends the records, over zeroed memory. -/
def sends (records : List Bytes) (record_le : ∀ record ∈ records, record.length ≤ 16384) :
    Session :=
  ⟨1,records,record_le,fun _ => 0,fun _ => 0,[],yields 1⟩

section Plain
open PlainSsl

/-- A failed handshake, an OPEN_CONNECT in one record and a header that closes the server. -/
theorem orderly_run_three_sessions :
    let frame := (messageFrame .openConnectRequest (qkdOpenConnectRequestToStream (askMimetype 1)))
    let refused : Session := { sends [] (by decide) with sslAccept := -1 }
    let opening := sends [frame.written] (by decide +kernel)
    let closing := sends [[2,1,1,0xFF,0,0,0,0]] (by decide)
    let start : Process UInt32 := ⟨.listening,Server.start 32768 (49/100) 1⟩
    ((socketServerInit ansiPrng).after start [refused,opening]).status = .listening ∧
      ((socketServerInit ansiPrng).after start [refused,opening,closing]).status = .finished := by
  intro frame refused opening closing start
  have hopen (s : Server UInt32) : Orderly s opening := by
    have hheader : qkdHeaderFromStream.run (first opening.records) =
        some (frame.header,qkdOpenConnectRequestToStream (askMimetype 1)) := by decide +kernel
    have hpayload : arrived frame.header.payloadSize (first (skip 8 opening.records)) =
        some ((Request.openConnect (askMimetype 1)).toStream ++ []) := by decide +kernel
    refine .request hheader rfl hpayload ?_ (of_decide_eq_true rfl)
    intro r hr
    cases hr
    decide
  have hclose : qkdHeaderFromStream.run (first closing.records) =
      some (⟨⟨2,1,1⟩,0xFF,0⟩,[]) := rfl
  have hrun : (socketServerInit ansiPrng).Along
      (fun p x => p.status = .listening → Orderly p.server x) start [refused,opening,closing] :=
    ⟨fun _ => .refused rfl,fun _ => hopen _,fun _ => .closing hclose rfl,trivial⟩
  exact ⟨orderly_run ansiPrng hrun ⟨[closing],rfl⟩,orderly_run ansiPrng hrun (List.prefix_refl _)⟩

/-- A client that closes at once, and one that asks for a service which does not exist. -/
theorem harmful_sessions :
    let silent := sends [] (by decide)
    let unknown := sends [[2,1,1,0x42,0,0,0,1,7]] (by decide)
    let start : Process UInt32 := ⟨.listening,Server.start 32768 (49/100) 1⟩
    ((socketServerInit ansiPrng).after start [silent]).status = .dead ∧
      silent.closesServer = false ∧
      ((socketServerInit ansiPrng).after start [unknown]).status = .dead ∧
      unknown.closesServer = false := by
  decide +kernel

end Plain

end EtsiQkd004
