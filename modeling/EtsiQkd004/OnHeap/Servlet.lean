import EtsiQkd004.OnHeap.Streams
import EtsiQkd004.Server.Sessions

/-! The servlet over the heap: the blocks of a request and of its response are freed once the
response has been built, except for one that every delivered key leaves behind. -/
namespace EtsiQkd004.OnHeap
open Heaps WireCodec

section Freeing

def freeQkdBytes (bytes : BytesCell) : HeapM Block Unit := free bytes.data

def freeQkdQos (qos : QosCell) : HeapM Block Unit := free qos.metadataMimetype

def freeQkdOpenConnectRequest (request : OpenConnectRequestCell) : HeapM Block Unit := do
  free request.source
  free request.destination
  freeQkdQos request.qos

def freeQkdOpenConnectResponse (response : OpenConnectResponseCell) : HeapM Block Unit :=
  freeQkdQos response.qos

/-- The metadata are not freed. -/
def freeQkdGetKeyRequest (_ : GetKeyRequestCell) : HeapM Block Unit := pure ()

def freeQkdGetKeyResponse (response : GetKeyResponseCell) : HeapM Block Unit := do
  freeQkdBytes response.keyBuffer
  freeQkdBytes response.metadata

end Freeing

section Servlet
variable {σ : Type} (libc : Prng σ) (A : Allocator) (env : Env)

/-- The bytes that an encoder copies. Of an empty field none are read. -/
def loadQkdBytes (cell : BytesCell) : HeapM Block QkdBytes :=
  if cell.size=0 then pure QkdBytes.empty
  else do
    let buffer ← loadBytes cell.data
    if h : cell.size.toNat ≤ buffer.length then
      pure ⟨cell.size,buffer.take cell.size.toNat,List.length_take_of_le h⟩
    else fault

def loadOpenConnectResponse (cell : OpenConnectResponseCell) : HeapM Block OpenConnectResponse := do
  let qos := cell.qos
  let metadataMimetype ← loadStr qos.metadataMimetype
  pure ⟨cell.status,⟨qos.keyChunkSize,qos.maxBps,qos.minBps,qos.jitter,qos.priority,qos.timeout,
    qos.ttl,metadataMimetype⟩,cell.keyStreamId⟩

def loadGetKeyResponse (cell : GetKeyResponseCell) : HeapM Block GetKeyResponse := do
  let keyBuffer ← loadQkdBytes cell.keyBuffer
  let metadata ← loadQkdBytes cell.metadata
  pure ⟨cell.status,cell.index,keyBuffer,metadata⟩

/-- The end of a branch: the response is built in a block, the blocks of the messages and the
payload are freed, and the response after it has been sent. -/
def sendResponse [OpenSsl] (frame : Option Frame) (frees : HeapM Block Unit) (payload : ℕ) :
    HeapM Block Outcome :=
  match frame with
  | none => pure .aborted
  | some f =>
    if f.Overrun then pure .overrun
    else do
      let responseBuf ← malloc A (.bytes f.written)
      frees
      free payload
      free responseBuf
      pure (.sent f.sent)

def openConnectBranch [OpenSsl] (payload : ℕ) (tail : Bytes) (s : ServerCell σ) :
    HeapM Block (Outcome × ServerCell σ) := do
  let memory ← loadBytes payload
  let request ← (qkdOpenConnectRequestFromStream A).run (memory ++ tail)
  let response ← qkdOpenConnectStruct libc A env request.1 s
  let ocResponse ← loadOpenConnectResponse response.1
  let outcome ← sendResponse A (openConnectResponseFrame ocResponse) (do
    freeQkdOpenConnectRequest request.1
    freeQkdOpenConnectResponse response.1) payload
  pure (outcome,response.2)

def getKeyBranch [OpenSsl] (payload : ℕ) (tail : Bytes) (s : ServerCell σ) :
    HeapM Block (Outcome × ServerCell σ) := do
  let memory ← loadBytes payload
  let request ← (qkdGetKeyRequestFromStream A).run (memory ++ tail)
  let response ← qkdGetKeyStruct libc A env request.1 s
  let gkResponse ← loadGetKeyResponse response.1
  let outcome ← sendResponse A (some (getKeyResponseFrame gkResponse)) (do
    freeQkdGetKeyRequest request.1
    freeQkdGetKeyResponse response.1) payload
  pure (outcome,response.2)

/-- A CLOSE has no part in memory but its identifier. -/
def closeBranch [OpenSsl] (payload : ℕ) (tail : Bytes) (s : ServerCell σ) :
    HeapM Block (Outcome × ServerCell σ) := do
  let memory ← loadBytes payload
  let _ ← (qkdCloseRequestFromStream A).run (memory ++ tail)
  let clResponse : CloseResponse := ⟨QkdStatusCode.successful.code⟩
  let outcome ← sendResponse A (some (closeResponseFrame clResponse)) (pure ()) payload
  pure (outcome,s)

/-- The dispatch of the servlet, once the payload has been received into its block. -/
def dispatch [OpenSsl] (header : QkdHeader) (payload : ℕ) (tail : Bytes) (s : ServerCell σ) :
    HeapM Block (Outcome × ServerCell σ) :=
  if header.service=QkdService.openConnectRequest.code then openConnectBranch libc A env payload tail s
  else if header.service=QkdService.getKeyRequest.code then getKeyBranch libc A env payload tail s
  else if header.service=QkdService.closeRequest.code then closeBranch A payload tail s
  else do
    free payload
    pure (.nullSend,s)

/-- The received header has a block of its own until it has been decoded. -/
def headerOf (headerData : Bytes) : HeapM Block QkdHeader := do
  let headerPtr ← malloc A (.bytes headerData)
  let headerStream ← loadBytes headerPtr
  let header ← (decode qkdHeaderFromStream).run headerStream
  free headerPtr
  pure header.1

/-- The servlet behind the receive of the payload, which has a block of its own. -/
def serveReceived [OpenSsl] (header : QkdHeader) (payload tail : Bytes) (s : ServerCell σ) :
    HeapM Block (Outcome × ServerCell σ) := do
  let payload ← malloc A (.bytes payload)
  dispatch libc A env header payload tail s

/-- `qkd_servlet` from the received header on. -/
def qkdServlet [OpenSsl] (headerData : Bytes) (recvPayload : QkdHeader → Recv) (tail : Bytes)
    (s : ServerCell σ) : HeapM Block (Outcome × ServerCell σ) := do
  let header ← headerOf A headerData
  if header.service=QkdService.closeServer.code then pure (.finished,s)
  else
    match recvPayload header with
    | .exited | .overread | .waiting => exit
    | .returned msg _ => serveReceived libc A env header msg.data tail s

end Servlet

section Messages
variable {pre : Blocks Block}

lemma eq_empty {b : QkdBytes} (h : b.size=0) : b = QkdBytes.empty := by
  apply QkdBytes.eq_of_data
  apply List.eq_nil_of_length_eq_zero
  rw [b.size_eq,h]
  rfl

lemma reads_qkdBytes {cell : BytesCell} {b : QkdBytes} {own : Blocks Block}
    (h : Holds cell b own) (hle : own ≤ pre) : Reads (loadQkdBytes cell) pre b := by
  obtain ⟨hsize,h⟩ := h
  unfold loadQkdBytes
  by_cases h0 : cell.size=0
  · have hb : b.size=0 := hsize.symm.trans h0
    rw [if_pos h0,eq_empty hb]
    exact Reads.pure _ pre
  · rw [if_neg h0]
    rcases h with ⟨-,hb,-⟩ | ⟨buffer,rfl,hdata⟩
    · exact absurd (hsize.trans hb) h0
    · apply (reads_bytes (Multiset.singleton_le.mp hle)).bind
      have hlen := congrArg List.length hdata
      rw [b.size_eq,List.length_take] at hlen
      have hle' : cell.size.toNat ≤ buffer.length := by
        rw [hsize]
        omega
      rw [dif_pos hle']
      have hb : (⟨cell.size,buffer.take cell.size.toNat,List.length_take_of_le hle'⟩ : QkdBytes) = b :=
        QkdBytes.eq_of_data (by rw [hdata,← hsize])
      rw [hb]
      exact Reads.pure b pre

lemma spec_freeQkdBytes {cell : BytesCell} {b : QkdBytes} {own : Blocks Block}
    (h : Holds cell b own) (rest : Blocks Block) :
    Spec (freeQkdBytes cell) (own + rest) (fun _ own' => own'=rest) := by
  unfold freeQkdBytes
  rcases h.2 with ⟨hp,-,rfl⟩ | ⟨buffer,rfl,-⟩
  · rw [hp,zero_add]
    exact Spec.free_null
  · exact Spec.free (Multiset.singleton_add _ _)

/-- What a branch leaves: the blocks of the messages that its calls of `free` do not reach. -/
lemma spec_sendResponse [OpenSsl] (A : Allocator) (frame : Option Frame) {frees : HeapM Block Unit}
    {payload : ℕ} {data : Bytes} {messages leak others : Blocks Block}
    (hpre : pre = messages + (payload,Block.bytes data) ::ₘ others)
    (hfrees : Spec frees messages (fun _ own => own=leak)) :
    Spec (sendResponse A frame frees payload) pre (fun o own => o = respond frame ∧
      ∀ bytes, o = .sent bytes → own = leak + others) := by
  subst hpre
  cases frame with
  | none => exact Spec.pure ⟨rfl,by simp⟩
  | some f =>
    rw [sendResponse,respond]
    by_cases hover : f.Overrun
    · simp only [if_pos hover]
      exact Spec.pure ⟨rfl,by simp⟩
    · simp only [if_neg hover]
      apply (Spec.malloc A _).andThen
      intro p
      have hpre : (p,Block.bytes f.written) ::ₘ (messages + (payload,Block.bytes data) ::ₘ others) =
          messages + (payload,Block.bytes data) ::ₘ (p,Block.bytes f.written) ::ₘ others := by
        simp only [← Multiset.singleton_add]
        abel
      apply Spec.step hfrees hpre
      rintro _ leak rfl
      have hpayload : leak + (payload,Block.bytes data) ::ₘ (p,Block.bytes f.written) ::ₘ others =
          (payload,Block.bytes data) ::ₘ (p,Block.bytes f.written) ::ₘ (leak + others) := by
        simp only [← Multiset.singleton_add]
        abel
      apply (Spec.free hpayload).andThen
      intro _
      apply (Spec.free rfl).andThen
      intro _
      exact Spec.pure ⟨rfl,fun _ _ => rfl⟩

end Messages

/-- The blocks of a served request that nothing frees. -/
def leftBehind : Request → Response → Multiset Block
  | .getKey r,.getKey p =>
    if p.status=QkdStatusCode.successful.code then {Block.bytes r.metadata.data} else 0
  | _,_ => 0

section Branches
variable {σ : Type} (libc : Prng σ) (A : Allocator) (env : Env)

/-- A branch serves the request `q`, and leaves no other blocks behind than these. -/
def Serves [OpenSsl] (s : Server σ) (q : Request) (y : Outcome × ServerCell σ)
    (own : Blocks Block) : Prop :=
  y.1 = respond (serve libc s (q,env)).1.frame ∧ ∀ bytes, y.1 = .sent bytes →
    ∃ list leak, Represents y.2 (serve libc s (q,env)).2 list ∧ own = list + leak ∧
      leak.map Prod.snd = leftBehind q (serve libc s (q,env)).1

/-- The response has a mimetype block of its own. -/
lemma spec_openConnectStruct {m : ServerCell σ} {s : Server σ} {list args : Blocks Block}
    (hrep : Represents m s list) {r : OpenConnectRequest} {ps pd pm : ℕ}
    (hs : text ps r.source ∈ args) (hd : text pd r.destination ∈ args)
    (hm : text pm r.qos.metadataMimetype ∈ args) :
    Spec (qkdOpenConnectStruct libc A env ⟨ps,pd,qosCell r.qos pm,r.keyStreamId⟩ m) (list + args)
      (fun y own => ∃ k pm' list',
        (serve libc s (.openConnect r,env)).1 =
          .openConnect ⟨QkdStatusCode.successful.code,r.qos,k⟩ ∧
        y.1 = ⟨QkdStatusCode.successful.code,qosCell r.qos pm',k⟩ ∧
        Represents y.2 (serve libc s (.openConnect r,env)).2 list' ∧
        own = list' + text pm' r.qos.metadataMimetype ::ₘ args) := by
  obtain ⟨k,hk⟩ := serve_openConnect libc s r env
  have hx : ((serverCalls libc env).qkdOpenConnect r.source r.destination r.qos r.keyStreamId 0
      s).1 = ⟨QkdStatusCode.successful.code,r.qos,k⟩ := by
    injection hk
  apply (spec_copyQos A (Multiset.mem_add.mpr (Or.inr hm))).bind
  rintro _ _ ⟨pm',rfl,rfl⟩
  rw [← Multiset.add_cons]
  apply (spec_openConnect libc A env hrep (Multiset.mem_cons_of_mem hs)
    (Multiset.mem_cons_of_mem hd) (Multiset.mem_cons_self _ _) r.keyStreamId 0).imp
  rintro ⟨_,m'⟩ _ ⟨hresponse,list',hrep',rfl⟩
  rw [hx] at hresponse
  exact ⟨k,pm',list',hk,hresponse,hrep',rfl⟩

/-- All blocks of an OPEN_CONNECT and of its response are freed. -/
lemma spec_freeOpenConnect {r : OpenConnectRequest} {status : UInt32} {k : Uuid}
    {ps pd pm pm' : ℕ} :
    Spec (do
      freeQkdOpenConnectRequest ⟨ps,pd,qosCell r.qos pm,r.keyStreamId⟩
      freeQkdOpenConnectResponse ⟨status,qosCell r.qos pm',k⟩)
      (text ps r.source ::ₘ text pd r.destination ::ₘ text pm r.qos.metadataMimetype ::ₘ
        text pm' r.qos.metadataMimetype ::ₘ 0) (fun _ own => own=0) := by
  simp only [freeQkdOpenConnectRequest,bind_assoc]
  apply (Spec.free rfl).andThen
  intro _
  apply (Spec.free rfl).andThen
  intro _
  apply (Spec.free rfl).andThen
  intro _
  exact Spec.free rfl

lemma spec_openConnectBranch [OpenSsl] {m : ServerCell σ} {s : Server σ} {list : Blocks Block}
    (hrep : Represents m s list) {p : ℕ} {payload tail rest : Bytes} {r : OpenConnectRequest}
    (hr : EtsiQkd004.qkdOpenConnectRequestFromStream.run (payload ++ tail) = some (r,rest)) :
    Spec (openConnectBranch libc A env p tail m) ((p,Block.bytes payload) ::ₘ list)
      (Serves libc env s (.openConnect r)) := by
  apply (reads_bytes (Multiset.mem_cons_self _ _)).bind
  have hdecode := decodes_openConnectRequest A ((p,Block.bytes payload) ::ₘ list) (payload ++ tail)
  rw [hr] at hdecode
  apply hdecode.bind
  rintro ⟨_,_⟩ _ ⟨-,ps,pd,pm,hcell,rfl⟩
  obtain rfl := hcell
  let args : Blocks Block := text pm r.qos.metadataMimetype ::ₘ text pd r.destination ::ₘ
    text ps r.source ::ₘ (p,Block.bytes payload) ::ₘ 0
  have hpre : text pm r.qos.metadataMimetype ::ₘ text pd r.destination ::ₘ text ps r.source ::ₘ
      (p,Block.bytes payload) ::ₘ list = list + args := by
    simp only [args,← Multiset.singleton_add]
    abel
  have hs : text ps r.source ∈ args := by simp [args]
  have hd : text pd r.destination ∈ args := by simp [args]
  have hm : text pm r.qos.metadataMimetype ∈ args := by simp [args]
  rw [hpre]
  apply (spec_openConnectStruct libc A env hrep hs hd hm).bind
  rintro ⟨_,m'⟩ _ ⟨k,pm',list',hk,hcell,hrep',rfl⟩
  obtain rfl := hcell
  have hload : Reads (loadOpenConnectResponse ⟨QkdStatusCode.successful.code,qosCell r.qos pm',k⟩)
      (list' + text pm' r.qos.metadataMimetype ::ₘ args)
      ⟨QkdStatusCode.successful.code,r.qos,k⟩ := by
    have hmem : text pm' r.qos.metadataMimetype ∈
        list' + text pm' r.qos.metadataMimetype ::ₘ args := by simp
    exact (reads_str hmem).bind (Reads.pure _ _)
  apply hload.bind
  have hsend : list' + text pm' r.qos.metadataMimetype ::ₘ args =
      (text ps r.source ::ₘ text pd r.destination ::ₘ text pm r.qos.metadataMimetype ::ₘ
        text pm' r.qos.metadataMimetype ::ₘ 0) + (p,Block.bytes payload) ::ₘ list' := by
    simp only [args,← Multiset.singleton_add]
    abel
  apply (spec_sendResponse A _ hsend spec_freeOpenConnect).bind
  rintro o own ⟨ho,hown⟩
  refine Spec.pure ⟨by rw [ho,hk]; rfl,?_⟩
  intro bytes hbytes
  refine ⟨list',0,hrep',?_,by rw [hk]; rfl⟩
  rw [hown bytes hbytes,zero_add,add_zero]

/-- The two parts of a GET_KEY response are freed. -/
lemma spec_freeGetKey {request : GetKeyRequestCell} {cell : GetKeyResponseCell} {kb md : Blocks Block}
    {key metadata : QkdBytes} (hk : Holds cell.keyBuffer key kb)
    (hm : Holds cell.metadata metadata md) :
    Spec (do
      freeQkdGetKeyRequest request
      freeQkdGetKeyResponse cell) (kb + md) (fun _ own => own=0) := by
  simp only [freeQkdGetKeyRequest,pure_bind]
  apply (spec_freeQkdBytes hk md).andThen
  intro _
  have hfree := spec_freeQkdBytes hm 0
  rwa [add_zero] at hfree

lemma reads_getKeyResponse {cell : GetKeyResponseCell} {p : GetKeyResponse} {kb md pre : Blocks Block}
    (hstatus : cell.status=p.status) (hindex : cell.index=p.index)
    (hk : Holds cell.keyBuffer p.keyBuffer kb) (hm : Holds cell.metadata p.metadata md)
    (hle : kb + md ≤ pre) : Reads (loadGetKeyResponse cell) pre p := by
  apply (reads_qkdBytes hk ((Multiset.le_add_right kb md).trans hle)).bind
  apply (reads_qkdBytes hm ((Multiset.le_add_left md kb).trans hle)).bind
  rw [hstatus,hindex]
  exact Reads.pure p pre

/-- The branch from the response on, which is in the blocks `kb` and `md`. -/
lemma spec_getKeyEnd [OpenSsl] {m' : ServerCell σ} {s s' : Server σ} {r : GetKeyRequest}
    {x : GetKeyResponse} (hserve : serve libc s (.getKey r,env) = (.getKey x,s')) {request : GetKeyRequestCell}
    {cell : GetKeyResponseCell} {kb md list pre : Blocks Block} {p : ℕ} {payload : Bytes}
    (leak : Blocks Block) (hstatus : cell.status=x.status) (hindex : cell.index=x.index)
    (hk : Holds cell.keyBuffer x.keyBuffer kb) (hm : Holds cell.metadata x.metadata md)
    (hrep : Represents m' s' list) (hleak : leak.map Prod.snd = leftBehind (.getKey r) (.getKey x))
    (hpre : pre = kb + md + (p,Block.bytes payload) ::ₘ (list + leak)) :
    Spec (do
      let gkResponse ← loadGetKeyResponse cell
      let outcome ← sendResponse A (some (getKeyResponseFrame gkResponse)) (do
        freeQkdGetKeyRequest request
        freeQkdGetKeyResponse cell) p
      pure (outcome,m')) pre (Serves libc env s (.getKey r)) := by
  have hle : kb + md ≤ pre := by
    rw [hpre]
    exact Multiset.le_add_right _ _
  apply (reads_getKeyResponse hstatus hindex hk hm hle).bind
  apply (spec_sendResponse A _ hpre (spec_freeGetKey hk hm)).bind
  rintro o own ⟨ho,hown⟩
  refine Spec.pure ⟨by rw [ho,hserve]; rfl,?_⟩
  intro bytes hbytes
  refine ⟨list,leak,by rw [hserve]; exact hrep,?_,by rw [hserve]; exact hleak⟩
  rw [hown bytes hbytes,zero_add]

lemma leftBehind_getKey (s : Server σ) (r : GetKeyRequest) :
    leftBehind (.getKey r) (serve libc s (.getKey r,env)).1 =
      if (getKeySearch r.keyStreamId s.config.ksidInfoLinkedList).isSome then
        {Block.bytes r.metadata.data} else 0 := by
  simp only [serve,EtsiQkd004.qkdGetKeyStruct,serverCalls,StateT.run]
  cases getKeySearch r.keyStreamId s.config.ksidInfoLinkedList with
  | none => rfl
  | some x => rfl

/-- A delivered key leaves the metadata of its request behind. Without one they are the metadata
of the response, and are freed with it. -/
lemma spec_getKeyBranch [OpenSsl] {m : ServerCell σ} {s : Server σ} {list : Blocks Block}
    (hrep : Represents m s list) {p : ℕ} {payload tail rest : Bytes} {r : GetKeyRequest}
    (hr : EtsiQkd004.qkdGetKeyRequestFromStream.run (payload ++ tail) = some (r,rest)) :
    Spec (getKeyBranch libc A env p tail m) ((p,Block.bytes payload) ::ₘ list)
      (Serves libc env s (.getKey r)) := by
  apply (reads_bytes (Multiset.mem_cons_self _ _)).bind
  have hdecode := decodes_getKeyRequest A ((p,Block.bytes payload) ::ₘ list) (payload ++ tail)
  rw [hr] at hdecode
  apply hdecode.bind
  rintro ⟨_,_⟩ _ ⟨-,pm,hcell,rfl⟩
  obtain rfl := hcell
  let args : Blocks Block := (pm,Block.bytes r.metadata.data) ::ₘ (p,Block.bytes payload) ::ₘ 0
  have hpre : (pm,Block.bytes r.metadata.data) ::ₘ (p,Block.bytes payload) ::ₘ list =
      list + args := by
    simp only [args,← Multiset.singleton_add]
    abel
  rw [hpre]
  apply (spec_getKey libc A env hrep (Multiset.mem_cons_self _ _) r.keyStreamId r.index 0).bind
  rintro ⟨cell,m'⟩ _ ⟨hstatus,hindex,list',kb,hrep',hkb,hmatch⟩
  cases hsearch : getKeySearch r.keyStreamId s.store with
  | none =>
    rw [hsearch] at hmatch
    obtain ⟨hcell,hmetadata,rfl⟩ := hmatch
    have hmd : Holds cell.metadata ((serverCalls libc env).qkdGetKey r.keyStreamId r.index
        QkdBytes.empty r.metadata 0 s).1.metadata {(pm,Block.bytes r.metadata.data)} := by
      rw [hmetadata,hcell]
      exact holds_data r.metadata pm
    apply spec_getKeyEnd libc A env rfl 0 hstatus hindex hkb hmd hrep'
    · exact ((leftBehind_getKey libc env s r).trans (by rw [hsearch]; rfl)).symm
    · simp only [← Multiset.singleton_add]
      abel
  | some y =>
    rw [hsearch] at hmatch
    obtain ⟨md,hmd,rfl⟩ := hmatch
    apply spec_getKeyEnd libc A env rfl {(pm,Block.bytes r.metadata.data)} hstatus hindex hkb hmd
      hrep'
    · exact ((leftBehind_getKey libc env s r).trans (by rw [hsearch]; rfl)).symm
    · simp only [← Multiset.singleton_add]
      abel

lemma spec_closeBranch [OpenSsl] {m : ServerCell σ} {s : Server σ} {list : Blocks Block}
    (hrep : Represents m s list) {p : ℕ} {payload tail rest : Bytes} {r : CloseRequest}
    (hr : EtsiQkd004.qkdCloseRequestFromStream.run (payload ++ tail) = some (r,rest)) :
    Spec (closeBranch A p tail m) ((p,Block.bytes payload) ::ₘ list)
      (Serves libc env s (.close r)) := by
  apply (reads_bytes (Multiset.mem_cons_self _ _)).bind
  have hdecode := decodes_closeRequest A ((p,Block.bytes payload) ::ₘ list) (payload ++ tail)
  rw [hr] at hdecode
  apply hdecode.bind
  rintro _ _ ⟨-,-,rfl⟩
  apply (spec_sendResponse A _ (zero_add _).symm (Spec.pure rfl)).bind
  rintro o own ⟨ho,hown⟩
  refine Spec.pure ⟨ho,?_⟩
  intro bytes hbytes
  exact ⟨list,0,hrep,by rw [hown bytes hbytes,zero_add,add_zero],rfl⟩

/-- A request that can be decoded is served. -/
lemma spec_dispatch [OpenSsl] {m : ServerCell σ} {s : Server σ} {list : Blocks Block}
    (hrep : Represents m s list) {header : QkdHeader} {p : ℕ} {payload tail : Bytes} {q : Request}
    (hq : requestFromStream header.service (payload ++ tail) = some q) :
    Spec (dispatch libc A env header p tail m) ((p,Block.bytes payload) ::ₘ list)
      (Serves libc env s q) := by
  unfold requestFromStream at hq
  unfold dispatch
  split_ifs at hq ⊢ with hopen hget hclose
  · obtain ⟨⟨r,rest⟩,hr,rfl⟩ := Option.map_eq_some_iff.mp hq
    exact spec_openConnectBranch libc A env hrep hr
  · obtain ⟨⟨r,rest⟩,hr,rfl⟩ := Option.map_eq_some_iff.mp hq
    exact spec_getKeyBranch libc A env hrep hr
  · obtain ⟨⟨r,rest⟩,hr,rfl⟩ := Option.map_eq_some_iff.mp hq
    exact spec_closeBranch libc A env hrep hr

/-- A branch whose decoder fails ends the process. -/
lemma exits_undecoded {α γ δ : Type} {d : HeapDecoder α} {v : Decoder UInt8 γ}
    {post : γ → α → Blocks Block → Prop} {next : α × Bytes → HeapM Block δ} {list : Blocks Block}
    {p : ℕ} {payload tail : Bytes} (hd : Decodes d v ((p,Block.bytes payload) ::ₘ list) post)
    (hv : v.run (payload ++ tail) = none) :
    Exits (loadBytes p >>= fun memory => d.run (memory ++ tail) >>= next)
      ((p,Block.bytes payload) ::ₘ list) := by
  apply (reads_bytes (Multiset.mem_cons_self _ _)).bind_exits
  rintro payload _ ⟨rfl,rfl⟩
  have hexits := hd (payload ++ tail)
  rw [hv] at hexits
  exact hexits.bind

/-- A request that cannot be decoded ends the process. -/
lemma dispatch_undecoded [OpenSsl] (m : ServerCell σ) {header : QkdHeader} {p : ℕ}
    {payload tail : Bytes} (list : Blocks Block) (hq : requestFromStream header.service (payload ++ tail) = none) :
    Exits (dispatch libc A env header p tail m) ((p,Block.bytes payload) ::ₘ list) ∨
      Spec (dispatch libc A env header p tail m) ((p,Block.bytes payload) ::ₘ list)
        (fun y _ => y.1 = .nullSend) := by
  unfold requestFromStream at hq
  unfold dispatch
  split_ifs at hq ⊢ with hopen hget hclose
  · exact Or.inl (exits_undecoded (decodes_openConnectRequest A _) (Option.map_eq_none_iff.mp hq))
  · exact Or.inl (exits_undecoded (decodes_getKeyRequest A _) (Option.map_eq_none_iff.mp hq))
  · exact Or.inl (exits_undecoded (decodes_closeRequest A _) (Option.map_eq_none_iff.mp hq))
  · exact Or.inr ((Spec.free rfl).andThen fun _ => Spec.pure rfl)

end Branches

section Header
variable (A : Allocator) {headerData : Bytes}

lemma reads_header {header : QkdHeader} {rest : Bytes}
    (h : qkdHeaderFromStream.run headerData = some (header,rest)) (pre : Blocks Block) :
    Reads (headerOf A headerData) pre header := by
  apply (Spec.malloc A _).andThen
  intro p
  apply (reads_bytes (Multiset.mem_cons_self _ _)).bind
  have hdecode := Decodes.decode qkdHeaderFromStream ((p,Block.bytes headerData) ::ₘ pre) headerData
  rw [h] at hdecode
  apply hdecode.bind
  rintro ⟨_,_⟩ _ ⟨-,rfl,rfl⟩
  apply (Spec.free rfl).andThen
  intro _
  exact Spec.pure ⟨rfl,rfl⟩

lemma exits_header (h : qkdHeaderFromStream.run headerData = none) (pre : Blocks Block) :
    Exits (headerOf A headerData) pre := by
  apply (Spec.malloc A _).bind_exits
  rintro p _ rfl
  apply (reads_bytes (Multiset.mem_cons_self _ _)).bind_exits
  rintro headerData _ ⟨rfl,rfl⟩
  have hdecode := Decodes.decode qkdHeaderFromStream ((p,Block.bytes headerData) ::ₘ pre) headerData
  rw [h] at hdecode
  exact Exits.bind hdecode

end Header

end EtsiQkd004.OnHeap
