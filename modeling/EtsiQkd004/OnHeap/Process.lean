import EtsiQkd004.OnHeap.Servlet

/-! The accept loop over the heap. It sends what the loop over lists sends, whatever its clients
do, and the number of its live blocks is known after every run. -/
namespace EtsiQkd004.OnHeap
open Heaps WireCodec Registry Chunks

variable {σ : Type} (libc : Prng σ) (A : Allocator)

/-- The process with its heap, and whether it has misused it. -/
structure Process (σ : Type) where
  status : ServerStatus
  server : ServerCell σ
  heap : Heap Block
  faulted : Bool

/-- The process of `main`, with nothing on its heap. -/
def Process.start (keyRate : Int32) (qber : ℚ) (prng : σ) : Process σ :=
  ⟨.listening,⟨keyRate,qber,0,prng⟩,Heap.empty,false⟩

/-- A program that does not return ends the process. -/
def afterServlet (p : Process σ) :
    Except Stop ((Outcome × ServerCell σ) × Heap Block) → Bytes × Process σ
  | .error .fault => ([],{ p with status := .dead, faulted := true })
  | .error .exited => ([],{ p with status := .dead })
  | .ok ((.sent bytes,s),heap) => (bytes,{ p with status := .listening, server := s, heap })
  | .ok ((.finished,s),heap) => ([],{ p with status := .finished, server := s, heap })
  | .ok ((.readFault,s),heap) | .ok ((.aborted,s),heap) | .ok ((.overrun,s),heap)
  | .ok ((.nullSend,s),heap) => ([],{ p with status := .dead, server := s, heap })

def servletSession [OpenSsl] (p : Process σ) (x : Session) : Bytes × Process σ :=
  match recvRecords 8 x.headerStack x.records with
  | .exited | .overread | .waiting => ([],{ p with status := .dead })
  | .returned headerData rest =>
    let records := skip (x.records.flatten.length - rest.length) x.records
    let recvPayload (header : QkdHeader) :=
      recvRecords header.payloadSize.toUInt64 x.payloadStack records
    afterServlet p (qkdServlet libc A x.env headerData.data recvPayload x.tail p.server p.heap)

def socketServerInit [OpenSsl] : SerialMachine (Process σ) Session Bytes where
  step p x :=
    match p.status with
    | .listening => if x.sslAccept = -1 then ([],p) else servletSession libc A p x
    | .finished | .dead => ([],p)

/-- The process over the heap is the process `p`, and has faulted only if `faulted`. Beside the
blocks of its list it has blocks with the contents `lost`. -/
structure Agrees (P : Process σ) (p : EtsiQkd004.Process σ) (faulted : Bool)
    (lost : Multiset Block) : Prop where
  status : P.status=p.status
  safe : P.faulted=faulted
  memory : p.status≠.dead → ∃ list leak, Represents P.server p.server list ∧
    P.heap.owned = list + leak ∧ leak.map Prod.snd = lost

/-- What a session of a listening process leaves behind. -/
def lostBy [OpenSsl] (s : Server σ) (x : Session) : Multiset Block :=
  match x.call with
  | none => 0
  | some i => leftBehind i.1 (serve libc s i).1

lemma agrees_dead {P : Process σ} {p : EtsiQkd004.Process σ} (hP : P.status = .dead)
    (hp : p.status = .dead) (lost : Multiset Block) : Agrees P p P.faulted lost :=
  ⟨hP.trans hp.symm,rfl,fun h => absurd hp h⟩

section Payload
variable {P : Process σ} {m : ServerCell σ} {heap : Heap Block} {list leak : Blocks Block}
  (howned : heap.owned = list + leak) (env : Env) {header : QkdHeader} {payload tail : Bytes}
include howned

lemma serveReceived_undecoded [OpenSsl]
    (hq : requestFromStream header.service (payload ++ tail) = none) :
    ∃ P', afterServlet P (serveReceived libc A env header payload tail m heap) = ([],P') ∧
      P'.status = .dead ∧ P'.faulted=P.faulted := by
  obtain ⟨p,_,heap',hmalloc,rfl,hheap⟩ := Spec.malloc A (.bytes payload) heap leak howned
  have hrun : serveReceived libc A env header payload tail m heap =
      dispatch libc A env header p tail m heap' := by
    change (malloc A (Block.bytes payload) heap).bind
      (fun x => dispatch libc A env header x.1 tail m x.2) = _
    rw [hmalloc]
    rfl
  rw [hrun]
  rcases dispatch_undecoded libc A env m list hq with hexits | hspec
  · rw [hexits heap' leak hheap]
    exact ⟨_,rfl,rfl,rfl⟩
  · obtain ⟨⟨o,m'⟩,own,heap'',hrun',ho,-⟩ := hspec heap' leak hheap
    obtain rfl : o = .nullSend := ho
    rw [hrun']
    exact ⟨_,rfl,rfl,rfl⟩

lemma serveReceived_served [OpenSsl] {s : Server σ} (hrep : Represents m s list) {q : Request}
    (hq : requestFromStream header.service (payload ++ tail) = some q) :
    let y := afterServlet P (serveReceived libc A env header payload tail m heap)
    let x := serve libc s (q,env)
    y.1 = (EtsiQkd004.afterServlet (respond x.1.frame,x.2)).1 ∧
      Agrees y.2 (EtsiQkd004.afterServlet (respond x.1.frame,x.2)).2 P.faulted
        (leak.map Prod.snd + leftBehind q x.1) := by
  have hspec : Spec (serveReceived libc A env header payload tail m) list (Serves libc env s q) :=
    (Spec.malloc A _).andThen fun p => spec_dispatch libc A env hrep hq
  obtain ⟨⟨o,m'⟩,own,heap',hrun,⟨ho,hsent⟩,howned'⟩ := hspec heap leak howned
  intro y x
  obtain rfl : o = respond x.1.frame := ho
  simp only [y]
  rw [hrun]
  cases hframe : x.1.frame with
  | none =>
    simp only [respond]
    exact ⟨rfl,agrees_dead rfl rfl _⟩
  | some f =>
    by_cases hover : f.Overrun
    · simp only [respond,if_pos hover]
      exact ⟨rfl,agrees_dead rfl rfl _⟩
    · have hbytes : respond (some f) = .sent f.sent := by rw [respond,if_neg hover]
      obtain ⟨list',leak',hrep',rfl,hlost⟩ := hsent f.sent (by rw [hframe,hbytes])
      rw [hbytes]
      refine ⟨rfl,rfl,rfl,fun _ => ⟨list',leak' + leak,hrep',?_,?_⟩⟩
      · exact howned'.trans (add_assoc _ _ _)
      · rw [Multiset.map_add,hlost,add_comm]

end Payload

section Header
variable {m : ServerCell σ} {heap : Heap Block} {own : Blocks Block} (howned : heap.owned = own)
  (env : Env) {headerData : Bytes} (recvPayload : QkdHeader → Recv) (tail : Bytes)
include howned

/-- The block of a header that is too short stays, as the process does not. -/
lemma qkdServlet_header_short [OpenSsl] (h : qkdHeaderFromStream.run headerData = none) :
    qkdServlet libc A env headerData recvPayload tail m heap = .error .exited := by
  have howned' : heap.owned = own + 0 := by rw [howned,add_zero]
  exact (exits_header A h own).bind heap 0 howned'

/-- The block of the header has been freed before the payload is received. -/
lemma qkdServlet_header [OpenSsl] {header : QkdHeader} {rest : Bytes}
    (h : qkdHeaderFromStream.run headerData = some (header,rest)) :
    ∃ heap', heap'.owned = own ∧ qkdServlet libc A env headerData recvPayload tail m heap =
      if header.service=QkdService.closeServer.code then .ok ((.finished,m),heap')
      else match recvPayload header with
        | .exited | .overread | .waiting => .error .exited
        | .returned msg _ => serveReceived libc A env header msg.data tail m heap' := by
  have howned' : heap.owned = own + 0 := by rw [howned,add_zero]
  obtain ⟨header,_,heap',hrun,⟨rfl,rfl⟩,hheap⟩ := reads_header A h own heap 0 howned'
  refine ⟨heap',by rw [hheap,add_zero],?_⟩
  unfold qkdServlet
  change (headerOf A headerData heap).bind _ = _
  rw [hrun]
  dsimp only [Except.bind]
  split_ifs with hclose
  · rfl
  · cases recvPayload header with
    | exited | overread | waiting => rfl
    | returned msg _ => rfl

end Header

/-- One session of a listening process. -/
lemma servletSession_agrees [OpenSsl] {P : Process σ} {s : Server σ} {list leak : Blocks Block}
    (hrep : Represents P.server s list) (howned : P.heap.owned = list + leak) {x : Session}
    (haccept : x.sslAccept ≠ -1) :
    (servletSession libc A P x).1 = (EtsiQkd004.servletSession libc s x).1 ∧
      Agrees (servletSession libc A P x).2 (EtsiQkd004.servletSession libc s x).2 P.faulted
        (leak.map Prod.snd + lostBy libc s x) := by
  rw [servletSession,EtsiQkd004.servletSession]
  cases hheader : recvRecords 8 x.headerStack x.records with
  | exited | overread | waiting => exact ⟨rfl,agrees_dead rfl rfl _⟩
  | returned headerData rest =>
    simp only [Recv.andThen]
    cases hdecode : qkdHeaderFromStream.run headerData.data with
    | none =>
      rw [qkdServlet_header_short libc A howned _ _ _ hdecode]
      exact ⟨rfl,agrees_dead rfl rfl _⟩
    | some y =>
      obtain ⟨heap,hheap,hrun⟩ := qkdServlet_header libc A (m := P.server) howned x.env
        (fun header => recvRecords header.payloadSize.toUInt64 x.payloadStack
          (skip (x.records.flatten.length - rest.length) x.records)) x.tail hdecode
      rw [hrun]
      by_cases hclose : y.1.service=QkdService.closeServer.code
      · have hcall := call_of_closing hheader hdecode hclose
        simp only [if_pos hclose,lostBy,hcall]
        exact ⟨rfl,rfl,rfl,fun _ => ⟨list,leak,hrep,hheap,(add_zero _).symm⟩⟩
      simp only [if_neg hclose]
      cases hpayload : recvRecords y.1.payloadSize.toUInt64 x.payloadStack
          (skip (x.records.flatten.length - rest.length) x.records) with
      | exited | overread | waiting => exact ⟨rfl,agrees_dead rfl rfl _⟩
      | returned payload rest' =>
        have hreceived : x.received = some (y.1,payload.data) := by
          refine Session.received_iff.mpr ⟨haccept,?_,hclose⟩
          simp only [recvFrame,hheader,hdecode,hpayload]
        simp only
        cases hq : requestFromStream y.1.service (payload.data ++ x.tail) with
        | none =>
          obtain ⟨P',hP',hdead,hsafe⟩ := serveReceived_undecoded libc A (P := P) (m := P.server) hheap
            x.env hq
          rw [hP',afterServlet_undecoded libc x.env hclose hq,← hsafe]
          exact ⟨rfl,agrees_dead hdead rfl _⟩
        | some q =>
          obtain ⟨hservice,rest,hdecode⟩ := requestFromStream_eq hq
          have hcall : x.call = some (q,x.env) := by
            simp [Session.call,hreceived,hq]
          rw [qkdServlet_serve libc s q x.env hservice rest hdecode]
          simp only [lostBy,hcall]
          exact serveReceived_served libc A hheap x.env hrep hq

lemma represents_start (keyRate : Int32) (qber : ℚ) (prng : σ) :
    Represents (Process.start keyRate qber prng).server (Server.start keyRate qber prng) 0 :=
  ⟨rfl,rfl,rfl,rfl,rfl⟩

/-- One session. -/
lemma step_agrees [OpenSsl] {P : Process σ} {p : EtsiQkd004.Process σ} {faulted : Bool}
    {lost : Multiset Block} (h : Agrees P p faulted lost) (x : Session) :
    ((socketServerInit libc A).step P x).1 = ((EtsiQkd004.socketServerInit libc).step p x).1 ∧
      Agrees ((socketServerInit libc A).step P x).2 ((EtsiQkd004.socketServerInit libc).step p x).2
        faulted (if p.status=.listening then lost + lostBy libc p.server x else lost) := by
  obtain ⟨status,s⟩ := p
  obtain ⟨hstatus,rfl,hmemory⟩ := h
  simp only [socketServerInit,EtsiQkd004.socketServerInit,hstatus]
  cases status with
  | listening =>
    obtain ⟨list,leak,hrep,howned,rfl⟩ := hmemory (of_decide_eq_true rfl)
    by_cases haccept : x.sslAccept = -1
    · have hcall : x.call = none := by simp [Session.call,Session.received,haccept]
      simp only [if_pos haccept,if_pos,lostBy,hcall,add_zero]
      exact ⟨trivial,hstatus,rfl,fun _ => ⟨list,leak,hrep,howned,rfl⟩⟩
    · simp only [if_neg haccept,if_pos]
      exact servletSession_agrees libc A hrep howned haccept
  | finished => exact ⟨rfl,hstatus,rfl,hmemory⟩
  | dead => exact ⟨rfl,hstatus,rfl,hmemory⟩

/-- What a run of the handlers leaves behind. -/
def lost (s : Server σ) (run : List (Request × Env)) : Multiset Block :=
  (((server libc).trace s run).map fun x => leftBehind x.1.1 x.2).sum

/-- A response that brings a key. -/
def bringsKey : Response → Bool
  | .getKey p => p.status=QkdStatusCode.successful.code
  | .openConnect _ | .close _ => false

lemma leftBehind_card (s : Server σ) (i : Request × Env) :
    (leftBehind i.1 (serve libc s i).1).card = if bringsKey (serve libc s i).1 then 1 else 0 := by
  obtain ⟨q,env⟩ := i
  cases q with
  | openConnect r => rfl
  | getKey r =>
    simp only [serve,leftBehind,bringsKey,decide_eq_true_eq]
    split_ifs
    · rfl
    · rfl
  | close r => rfl

lemma lost_card (s : Server σ) (run : List (Request × Env)) :
    (lost libc s run).card = ((server libc).trace s run).countP fun x => bringsKey x.2 := by
  induction run generalizing s with
  | nil => rfl
  | cons i run ih =>
    have hcons : lost libc s (i::run) =
        leftBehind i.1 (serve libc s i).1 + lost libc (serve libc s i).2 run := rfl
    rw [hcons,Multiset.card_add,leftBehind_card,ih,SerialMachine.trace,List.countP_cons,Nat.add_comm]
    rfl

lemma lost_cons [OpenSsl] (s : Server σ) (x : Session) (sessions : List Session) :
    lost libc s ((x::sessions).filterMap Session.call) = lostBy libc s x +
      lost libc ((EtsiQkd004.socketServerInit libc).step ⟨.listening,s⟩ x).2.server
        (sessions.filterMap Session.call) := by
  have hforwards := socketServerInit_forwards libc
  cases hcall : x.call with
  | none =>
    rw [(hforwards.dropped ⟨.listening,s⟩ x rfl hcall).2,List.filterMap_cons_none hcall,lostBy,hcall,
      zero_add]
  | some i =>
    rw [(hforwards.passed ⟨.listening,s⟩ x i rfl hcall).2,List.filterMap_cons_some hcall,lostBy,hcall]
    rfl

/-- Any run. A process that listens has been listening all along, and has served all requests. -/
lemma run_agrees [OpenSsl] {P : Process σ} {p : EtsiQkd004.Process σ} {faulted : Bool}
    {before : Multiset Block} (h : Agrees P p faulted before) (sessions : List Session) :
    (socketServerInit libc A).trace P sessions =
        (EtsiQkd004.socketServerInit libc).trace p sessions ∧
      ∃ after, Agrees ((socketServerInit libc A).after P sessions)
          ((EtsiQkd004.socketServerInit libc).after p sessions) faulted after ∧
        (((EtsiQkd004.socketServerInit libc).after p sessions).status=.listening →
          after = before + lost libc p.server (sessions.filterMap Session.call)) := by
  induction sessions generalizing P p before with
  | nil => exact ⟨rfl,before,h,fun _ => (add_zero before).symm⟩
  | cons x sessions ih =>
    obtain ⟨hsent,hstep⟩ := step_agrees libc A h x
    obtain ⟨htrace,after,hafter,hlost⟩ := ih hstep
    refine ⟨?_,after,hafter,fun halive => ?_⟩
    · rw [SerialMachine.trace,SerialMachine.trace,hsent,htrace]
    · have hlistening : p.status=.listening := by
        by_contra hstopped
        obtain ⟨hsame,-⟩ := (socketServerInit_forwards libc).after_stopped hstopped (x::sessions)
        rw [hsame] at halive
        exact hstopped halive
      obtain ⟨_,s⟩ := p
      obtain rfl := hlistening
      rw [hlost halive,lost_cons,if_pos rfl,add_assoc]

section Plain
open PlainSsl

end Plain

/-- The heap of a process that is still listening: four blocks for every stream, and the metadata
of every request for a key that was delivered, which are never freed. -/
theorem heap_after_sessions [OpenSsl] {P : Process σ} {s : Server σ} {list leak : Blocks Block}
    (hlistening : P.status=.listening) (hrep : Represents P.server s list)
    (howned : P.heap.owned = list + leak) {sessions : List Session}
    (halive : ((socketServerInit libc A).after P sessions).status=.listening) :
    let P' := (socketServerInit libc A).after P sessions
    let calls := sessions.filterMap Session.call
    ∃ list' leak', Represents P'.server ((server libc).after s calls) list' ∧
      P'.heap.owned = list' + leak' ∧
      leak'.map Prod.snd = leak.map Prod.snd + lost libc s calls ∧
      P'.heap.blocks.length = 4*((server libc).after s calls).store.length + leak.card +
        ((server libc).trace s calls).countP fun x => bringsKey x.2 := by
  intro P' calls
  have h : Agrees P ⟨.listening,s⟩ P.faulted (leak.map Prod.snd) :=
    ⟨hlistening,rfl,fun _ => ⟨list,leak,hrep,howned,rfl⟩⟩
  obtain ⟨-,after,hafter,hlost⟩ := run_agrees libc A h sessions
  have halive' := hafter.status.symm.trans halive
  obtain ⟨list',leak',hrep',howned',hleak'⟩ := hafter.memory (by rw [halive']; decide)
  rw [hlost halive'] at hleak'
  rw [after_listening libc halive'] at hrep'
  refine ⟨list',leak',hrep',howned',hleak',?_⟩
  have hlist := linked_card (fun _ _ _ _ => Node.card) hrep'.linked
  have hleak := congrArg Multiset.card hleak'
  have hblocks : P'.heap.blocks.length = (list' + leak').card := congrArg Multiset.card howned'
  rw [Multiset.card_map,Multiset.card_add,Multiset.card_map,lost_card] at hleak
  rw [hblocks,Multiset.card_add,hlist,hleak,Nat.add_assoc]

section Plain
open PlainSsl

/-- One stream, and one key that was delivered of it. -/
theorem heap_after_sessions_fetching :
    ((socketServerInit ansiPrng Allocator.top).after (Process.start 32768 (49/100) 1)
      [opening,fetching (Uuid.fill 1)]).heap.blocks.length = 5 := by
  have hempty : (Heap.empty : Heap Block).owned = 0 + 0 := rfl
  have halive : ((socketServerInit ansiPrng Allocator.top).after (Process.start 32768 (49/100) 1)
      [opening,fetching (Uuid.fill 1)]).status=.listening := by decide +kernel
  obtain ⟨list,leak,-,-,-,hblocks⟩ := heap_after_sessions ansiPrng Allocator.top rfl
    (represents_start 32768 (49/100) (1 : UInt32)) hempty halive
  rw [hblocks]
  decide +kernel

end Plain

end EtsiQkd004.OnHeap
