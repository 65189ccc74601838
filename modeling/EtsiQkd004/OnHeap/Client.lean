import EtsiQkd004.OnHeap.Servlet
import EtsiQkd004.Client.Exchange

/-! The client's calls over the heap of the client. They return what the calls over values return,
never touch a block that is not live, and leave blocks behind that nobody can free. -/
namespace EtsiQkd004.OnHeap.Client
open Heaps WireCodec Chunks OpenSsl

section Calls
variable {σ : Type} (libc : Prng σ) (A : Allocator) (env : Env) (memory : CallMemory)

/-- The two receives of `client_perform_request`. The block of the header is not freed. -/
def receive [OpenSsl] (records : List Bytes) : HeapM Block ℕ :=
  match recvRecords 8 memory.clientHeader records with
  | .exited | .overread | .waiting => exit
  | .returned headerData rest => do
    let headerPtr ← malloc A (.bytes headerData.data)
    let headerStream ← loadBytes headerPtr
    let header ← (decode qkdHeaderFromStream).run headerStream
    match recvRecords header.1.payloadSize.toUInt64 memory.clientPayload
        (skip (records.flatten.length - rest.length) records) with
    | .exited | .overread | .waiting => exit
    | .returned payload _ => malloc A (.bytes payload.data)

/-- The request has a block of its own until the response has come. -/
def perform [OpenSsl] (request : Frame) (records : List Bytes) : HeapM Block ℕ := do
  let requestBuf ← malloc A (.bytes request.written)
  let responseData ← receive A memory records
  free requestBuf
  pure responseData

/-- What the three calls have in common. The return values are filled in by `fill`. -/
def call [OpenSsl] {β δ : Type} (request : Option Frame) (fromStream : HeapDecoder β)
    (fill : β → HeapM Block δ) (p : EtsiQkd004.Process σ) :
    HeapM Block (δ × EtsiQkd004.Process σ) :=
  match request with
  | none => exit
  | some f =>
    if f.Overrun then exit
    else do
      let y := (EtsiQkd004.socketServerInit libc).step p (clientSession env memory f)
      let responseData ← perform A memory f (sslRecords y.1)
      let responseStream ← loadBytes responseData
      let response ← fromStream.run (responseStream ++ memory.clientTail)
      let filled ← fill response.1
      free responseData
      pure (filled,y.2)

/-- The mimetype that the caller passes in is freed for the one that comes back, of which a copy is
made. -/
def qkdOpenConnect [OpenSsl] (source destination : ℕ) (qos : QosCell) (keyStreamId : Uuid)
    (p : EtsiQkd004.Process σ) : HeapM Block (OpenConnectResponseCell × EtsiQkd004.Process σ) := do
  let sourceStr ← loadStr source
  let destinationStr ← loadStr destination
  let metadataMimetype ← loadStr qos.metadataMimetype
  let request : OpenConnectRequest := ⟨sourceStr,destinationStr,
    ⟨qos.keyChunkSize,qos.maxBps,qos.minBps,qos.jitter,qos.priority,qos.timeout,qos.ttl,
      metadataMimetype⟩,keyStreamId⟩
  call libc A env memory (openConnectRequestFrame request) (qkdOpenConnectResponseFromStream A)
    (fun response => do
      let qos ← qkdCopyQos A qos response.qos
      pure ⟨response.status,qos,response.keyStreamId⟩) p

def qkdGetKey [OpenSsl] (keyStreamId : Uuid) (index : UInt32) (metadata : BytesCell)
    (p : EtsiQkd004.Process σ) : HeapM Block (GetKeyResponseCell × EtsiQkd004.Process σ) := do
  let metadata ← loadQkdBytes metadata
  call libc A env memory (some (getKeyRequestFrame ⟨keyStreamId,index,metadata⟩))
    (qkdGetKeyResponseFromStream A) pure p

def qkdClose [OpenSsl] (keyStreamId : Uuid) (p : EtsiQkd004.Process σ) :
    HeapM Block (CloseResponse × EtsiQkd004.Process σ) :=
  call libc A env memory (some (closeRequestFrame ⟨keyStreamId⟩))
    (decode qkdCloseResponseFromStream) pure p

/-- The response starts out zeroed, and the quality of service that is asked for is copied there. -/
def qkdOpenConnectStruct [OpenSsl] (request : OpenConnectRequestCell) (p : EtsiQkd004.Process σ) :
    HeapM Block (OpenConnectResponseCell × EtsiQkd004.Process σ) := do
  let qos ← qkdCopyQos A .zero request.qos
  qkdOpenConnect libc A env memory request.source request.destination qos request.keyStreamId p

def qkdGetKeyStruct [OpenSsl] (request : GetKeyRequestCell) (p : EtsiQkd004.Process σ) :
    HeapM Block (GetKeyResponseCell × EtsiQkd004.Process σ) :=
  qkdGetKey libc A env memory request.keyStreamId request.index request.metadata p

def qkdCloseStruct [OpenSsl] (request : CloseRequest) (p : EtsiQkd004.Process σ) :
    HeapM Block (CloseResponse × EtsiQkd004.Process σ) :=
  qkdClose libc A env memory request.keyStreamId p

/-- A request with its texts in memory. -/
inductive RequestCell
  | openConnect (request : OpenConnectRequestCell)
  | getKey (request : GetKeyRequestCell)
  | close (request : CloseRequest)

inductive ResponseCell
  | openConnect (response : OpenConnectResponseCell)
  | getKey (response : GetKeyResponseCell)
  | close (response : CloseResponse)

/-- A call through the struct wrapper. -/
def serve [OpenSsl] (p : EtsiQkd004.Process σ) :
    RequestCell → HeapM Block (ResponseCell × EtsiQkd004.Process σ)
  | .openConnect r => do
    let y ← qkdOpenConnectStruct libc A env memory r p
    pure (.openConnect y.1,y.2)
  | .getKey r => do
    let y ← qkdGetKeyStruct libc A env memory r p
    pure (.getKey y.1,y.2)
  | .close r => do
    let y ← qkdCloseStruct libc A env memory r p
    pure (.close y.1,y.2)

end Calls

section Receive
variable [OpenSsl] (A : Allocator) (memory : CallMemory) {pre : Blocks Block}

/-- Both receives return: the payload is in a block, and so is the header. -/
lemma spec_receive {records : List Bytes} {header : QkdHeader} {payload : Bytes}
    (h : recvFrame memory.clientHeader memory.clientPayload records = some (header,payload)) :
    Spec (receive A memory records) pre (fun p own => ∃ ph data,
      own = (p,Block.bytes payload) ::ₘ (ph,Block.bytes data) ::ₘ pre) := by
  obtain ⟨headerData,rest,body,payload,rest',hheader,hdecode,hpayload,rfl⟩ := recvFrame_some h
  rw [receive,hheader]
  apply (Spec.malloc A _).andThen
  intro ph
  apply (reads_bytes (Multiset.mem_cons_self _ _)).bind
  have hrun := Decodes.decode qkdHeaderFromStream ((ph,Block.bytes headerData.data) ::ₘ pre)
    headerData.data
  rw [hdecode] at hrun
  apply hrun.bind
  rintro ⟨_,_⟩ _ ⟨-,rfl,rfl⟩
  simp only [hpayload]
  apply (Spec.malloc A _).imp
  rintro p _ rfl
  exact ⟨ph,_,rfl⟩

lemma exits_receive {records : List Bytes}
    (h : recvFrame memory.clientHeader memory.clientPayload records = none) :
    Exits (receive A memory records) pre := by
  rw [recvFrame] at h
  rw [receive]
  cases hheader : recvRecords 8 memory.clientHeader records with
  | exited | overread | waiting => exact exits_exit pre
  | returned headerData rest =>
    rw [hheader] at h
    simp only at h
    apply (Spec.malloc A _).bind_exits
    rintro ph _ rfl
    apply (reads_bytes (Multiset.mem_cons_self _ _)).bind_exits
    rintro _ _ ⟨rfl,rfl⟩
    have hrun := Decodes.decode qkdHeaderFromStream ((ph,Block.bytes headerData.data) ::ₘ pre)
      headerData.data
    cases hdecode : qkdHeaderFromStream.run headerData.data with
    | none =>
      rw [hdecode] at hrun
      exact Exits.bind hrun
    | some y =>
      rw [hdecode] at hrun h
      apply Spec.bind_exits hrun
      rintro ⟨_,_⟩ _ ⟨-,rfl,rfl⟩
      simp only at h ⊢
      cases hpayload : recvRecords y.1.payloadSize.toUInt64 memory.clientPayload
          (skip (records.flatten.length - rest.length) records) with
      | exited | overread | waiting => exact exits_exit _
      | returned payload rest' =>
        rw [hpayload] at h
        contradiction

lemma spec_perform {records : List Bytes} {header : QkdHeader} {payload : Bytes}
    (h : recvFrame memory.clientHeader memory.clientPayload records = some (header,payload))
    (request : Frame) :
    Spec (perform A memory request records) pre (fun p own => ∃ ph data,
      own = (p,Block.bytes payload) ::ₘ (ph,Block.bytes data) ::ₘ pre) := by
  apply (Spec.malloc A _).andThen
  intro pr
  apply (spec_receive A memory h).bind
  rintro p _ ⟨ph,data,rfl⟩
  have hfree : (p,Block.bytes payload) ::ₘ (ph,Block.bytes data) ::ₘ
      (pr,Block.bytes request.written) ::ₘ pre = (pr,Block.bytes request.written) ::ₘ
        (p,Block.bytes payload) ::ₘ (ph,Block.bytes data) ::ₘ pre := by
    simp only [← Multiset.singleton_add]
    abel
  apply (Spec.free hfree).andThen
  intro _
  exact Spec.pure ⟨ph,data,rfl⟩

lemma exits_perform {records : List Bytes}
    (h : recvFrame memory.clientHeader memory.clientPayload records = none) (request : Frame) :
    Exits (perform A memory request records) pre := by
  apply (Spec.malloc A _).bind_exits
  rintro pr _ rfl
  exact (exits_receive A memory h).bind

end Receive

section Call
variable {σ : Type} (libc : Prng σ) (A : Allocator) (env : Env) (memory : CallMemory)

/-- The program `prog` of the client over the heap does what the value `x` says: it has no result
where there is none, and else it returns what is `post` of the value, with the same server. -/
def Follows {τ γ δ : Type} (prog : HeapM Block (δ × τ)) (pre : Blocks Block)
    (x : Option γ × τ) (post : γ → δ → Blocks Block → Prop) : Prop :=
  match x.1 with
  | none => Exits prog pre
  | some c => Spec prog pre fun y own => y.2=x.2 ∧ post c y.1 own

/-- A call. The block of the header is all that is left besides what `fill` returns. -/
lemma call_follows [OpenSsl] {β γ δ : Type} {d : HeapDecoder β} {v : Decoder UInt8 γ}
    {fill : β → HeapM Block δ} {pre : Blocks Block}
    {post : Blocks Block → γ → β → Blocks Block → Prop} {R : γ → δ → Blocks Block → Prop}
    (hd : ∀ extra, Decodes d v (extra + pre) (post extra))
    (hfill : ∀ extra c b own, post extra c b own → Spec (fill b) own fun y own' =>
      ∃ rest, R c y rest ∧ own' = extra + rest)
    (request : Option Frame) (p : EtsiQkd004.Process σ) :
    Follows (call libc A env memory request d fill p) pre
      (exchangeCall libc env memory request v p) fun c y own =>
        ∃ ph data rest, R c y rest ∧ own = (ph,Block.bytes data) ::ₘ rest := by
  cases request with
  | none => exact exits_exit pre
  | some f =>
    rw [exchangeCall,call]
    by_cases hover : f.Overrun
    · simp only [if_pos hover]
      exact exits_exit pre
    simp only [if_neg hover,clientExchange]
    generalize (EtsiQkd004.socketServerInit libc).step p (clientSession env memory f) = x
    cases hframe : recvFrame memory.clientHeader memory.clientPayload (sslRecords x.1) with
    | none => exact (exits_perform A memory hframe f).bind
    | some y =>
      let extra (q ph : ℕ) (data : Bytes) : Blocks Block :=
        (q,Block.bytes y.2) ::ₘ (ph,Block.bytes data) ::ₘ 0
      have hextra (q ph : ℕ) (data : Bytes) (rest : Blocks Block) : extra q ph data + rest =
          (q,Block.bytes y.2) ::ₘ (ph,Block.bytes data) ::ₘ rest := by
        simp only [extra,Multiset.cons_add,zero_add]
      have hperform : Spec _ pre _ := spec_perform A memory hframe f
      simp only [Option.map_some,Option.bind_some]
      cases hv : v.run (y.2 ++ memory.clientTail) with
      | none =>
        apply hperform.bind_exits
        rintro q _ ⟨ph,data,rfl⟩
        apply (reads_bytes (Multiset.mem_cons_self _ _)).bind_exits
        rintro _ _ ⟨rfl,rfl⟩
        have hexits := hd (extra q ph data) (y.2 ++ memory.clientTail)
        rw [hv,hextra] at hexits
        exact Exits.bind hexits
      | some z =>
        apply hperform.bind
        rintro q _ ⟨ph,data,rfl⟩
        apply (reads_bytes (Multiset.mem_cons_self _ _)).bind
        have hspec := hd (extra q ph data) (y.2 ++ memory.clientTail)
        rw [hv,hextra] at hspec
        apply Spec.bind hspec
        rintro ⟨b,_⟩ own ⟨-,hpost⟩
        apply (hfill _ z.1 b own hpost).bind
        rintro filled _ ⟨kept,hkept,rfl⟩
        apply (Spec.free (hextra q ph data kept)).andThen
        intro _
        exact Spec.pure ⟨rfl,ph,data,kept,hkept,rfl⟩

end Call

namespace Follows
variable {τ γ δ : Type} {prog : HeapM Block (δ × τ)} {pre : Blocks Block} {x : Option γ × τ}
  {post : γ → δ → Blocks Block → Prop}

lemma after {α : Type} {prog : HeapM Block α} {next : α → HeapM Block (δ × τ)}
    {mid : α → Blocks Block → Prop} (h : Spec prog pre mid)
    (hnext : ∀ a own, mid a own → Follows (next a) own x post) :
    Follows (prog >>= next) pre x post := by
  obtain ⟨o,p⟩ := x
  cases o with
  | none => exact h.bind_exits hnext
  | some c => exact h.bind hnext

lemma reads {α : Type} {prog : HeapM Block α} {v : α} {next : α → HeapM Block (δ × τ)}
    (h : Reads prog pre v) (hnext : Follows (next v) pre x post) :
    Follows (prog >>= next) pre x post := by
  apply after h
  rintro _ _ ⟨rfl,rfl⟩
  exact hnext

lemma imp {post' : γ → δ → Blocks Block → Prop} (h : Follows prog pre x post)
    (himp : ∀ c y own, post c y own → post' c y own) : Follows prog pre x post' := by
  obtain ⟨o,p⟩ := x
  cases o with
  | none => exact h
  | some c => exact Spec.imp h fun y own hy => ⟨hy.1,himp c y.1 own hy.2⟩

lemma spec {c : γ} {t : τ} (h : Follows prog pre x post) (hx : x = (some c,t)) :
    Spec prog pre fun y own => y.2=t ∧ post c y.1 own := by
  subst hx
  exact h

/-- No owned block is at null. -/
lemma ne_null {p : ℕ} {b : Block} (hmem : (p,b) ∈ pre) (h : p≠0 → Follows prog pre x post) :
    Follows prog pre x post := by
  by_cases hp : p=0
  · subst hp
    obtain ⟨o,t⟩ := x
    have hnull (heap : Heap Block) (frame : Blocks Block) (howned : heap.owned = pre + frame) : False :=
      heap.null (List.mem_map_of_mem (mem_blocks howned hmem))
    cases o with
    | none => exact fun heap frame howned => (hnull heap frame howned).elim
    | some c => exact fun heap frame howned => (hnull heap frame howned).elim
  · exact h hp

/-- A program that returns is followed by `next`, which always does. -/
lemma andThen {δ' : Type} {next : δ × τ → HeapM Block (δ' × τ)} {post' : γ → δ' → Blocks Block → Prop}
    (h : Follows prog pre x post) (hnext : ∀ c y own, post c y own →
      Spec (next (y,x.2)) own fun z own' => z.2=x.2 ∧ post' c z.1 own') :
    Follows (prog >>= next) pre x post' := by
  obtain ⟨o,p⟩ := x
  cases o with
  | none => exact Exits.bind h
  | some c =>
    apply Spec.bind h
    rintro ⟨y,_⟩ own ⟨rfl,hy⟩
    exact hnext c y own hy

lemma value {γ' : Type} {f : γ → γ'} {post' : γ' → δ → Blocks Block → Prop}
    (h : Follows prog pre x fun c => post' (f c)) : Follows prog pre (x.1.map f,x.2) post' := by
  obtain ⟨o,p⟩ := x
  cases o with
  | none => exact h
  | some c => exact h

lemma map {γ' δ' : Type} {post' : γ' → δ' → Blocks Block → Prop} {f : γ → γ'} {g : δ → δ'}
    (h : Follows prog pre x post) (hpost : ∀ c y own, post c y own → post' (f c) (g y) own) :
    Follows (do
      let y ← prog
      pure (g y.1,y.2)) pre (x.1.map f,x.2) post' :=
  value (h.andThen fun c y own hy => Spec.pure ⟨rfl,hpost c y own hy⟩)

end Follows

section Serve
variable {σ : Type} (libc : Prng σ) (A : Allocator) (env : Env) (memory : CallMemory)

/-- The request in memory, whose texts are among the blocks `args`, is the request `q`. -/
def Passes (args : Blocks Block) : Request → RequestCell → Prop
  | .openConnect r,.openConnect cell => ∃ ps pd pm,
      cell = ⟨ps,pd,qosCell r.qos pm,r.keyStreamId⟩ ∧ text ps r.source ∈ args ∧
      text pd r.destination ∈ args ∧ text pm r.qos.metadataMimetype ∈ args
  | .getKey r,.getKey cell => ∃ pm, cell = ⟨r.keyStreamId,r.index,⟨r.metadata.size,pm⟩⟩ ∧
      (pm,Block.bytes r.metadata.data) ∈ args
  | .close r,.close cell => cell=r
  | _,_ => False

/-- The response in memory, with the blocks `own`, is the response `p`. -/
def Brings : Response → ResponseCell → Blocks Block → Prop
  | .openConnect p,.openConnect cell,own => ∃ pm,
      cell = ⟨p.status,qosCell p.qos pm,p.keyStreamId⟩ ∧ own = {text pm p.qos.metadataMimetype}
  | .getKey p,.getKey cell,own => ∃ pk pm,
      cell = ⟨p.status,p.index,⟨p.keyBuffer.size,pk⟩,⟨p.metadata.size,pm⟩⟩ ∧
      own = {(pk,Block.bytes p.keyBuffer.data),(pm,Block.bytes p.metadata.data)}
  | .close p,.close cell,own => cell=p ∧ own=0
  | _,_,_ => False

/-- How many blocks a call leaves that its caller is not told of. -/
def lostBlocks : Request → ℕ
  | .openConnect _ => 2
  | .getKey _ | .close _ => 1

/-- What is in memory behind a call. -/
def Leaves (args : Blocks Block) (q : Request) (p : Response) (cell : ResponseCell)
    (own : Blocks Block) : Prop :=
  ∃ kept lost, Brings p cell kept ∧ own = args + kept + lost ∧ lost.card = lostBlocks q

lemma openConnectStruct_follows [OpenSsl] {args : Blocks Block} {r : OpenConnectRequest}
    {cell : OpenConnectRequestCell} (h : Passes args (.openConnect r) (.openConnect cell))
    (p : EtsiQkd004.Process σ) :
    Follows (qkdOpenConnectStruct libc A env memory cell p) args
      (EtsiQkd004.qkdOpenConnectStruct (callsOver (exchangeCall libc env memory)) r p)
      fun c y => Leaves args (.openConnect r) (.openConnect c) (.openConnect y) := by
  obtain ⟨ps,pd,pm,rfl,hs,hd,hm⟩ := h
  have hstruct : EtsiQkd004.qkdOpenConnectStruct (callsOver (exchangeCall libc env memory)) r p =
      exchangeCall libc env memory (openConnectRequestFrame r)
        EtsiQkd004.qkdOpenConnectResponseFromStream p :=
    exchange_same _ (fun _ => rfl) p
  rw [hstruct]
  apply Follows.after (spec_copyQos A hm)
  rintro _ _ ⟨pc,rfl,rfl⟩
  apply Follows.reads (reads_str (Multiset.mem_cons_of_mem hs))
  apply Follows.reads (reads_str (Multiset.mem_cons_of_mem hd))
  apply Follows.reads (reads_str (Multiset.mem_cons_self _ _))
  let result (c : OpenConnectResponse) (y : OpenConnectResponseCell) (rest : Blocks Block) : Prop :=
    ∃ pn pl, y = ⟨c.status,qosCell c.qos pn,c.keyStreamId⟩ ∧
      rest = text pn c.qos.metadataMimetype ::ₘ text pl c.qos.metadataMimetype ::ₘ args
  refine Follows.imp (call_follows (R := result) libc A env memory
    (fun extra => decodes_openConnectResponse A _) ?_ _ p) ?_
  · rintro extra c _ _ ⟨pl,rfl,rfl⟩
    have hpre : text pl c.qos.metadataMimetype ::ₘ (extra + text pc r.qos.metadataMimetype ::ₘ args) =
        text pc r.qos.metadataMimetype ::ₘ text pl c.qos.metadataMimetype ::ₘ (extra + args) := by
      simp only [← Multiset.singleton_add]
      abel
    apply (spec_copyQos_over A hpre (Multiset.mem_cons_self _ _)).bind
    rintro _ _ ⟨pn,rfl,rfl⟩
    refine Spec.pure ⟨_,⟨pn,pl,rfl,rfl⟩,?_⟩
    simp only [← Multiset.singleton_add]
    abel
  · rintro c _ _ ⟨ph,data,_,⟨pn,pl,rfl,rfl⟩,rfl⟩
    refine ⟨_,{text pl c.qos.metadataMimetype,(ph,Block.bytes data)},⟨pn,rfl,rfl⟩,?_,rfl⟩
    simp only [Multiset.insert_eq_cons,← Multiset.singleton_add]
    abel

lemma getKeyStruct_follows [OpenSsl] {args : Blocks Block} {r : GetKeyRequest}
    {cell : GetKeyRequestCell} (h : Passes args (.getKey r) (.getKey cell)) (p : EtsiQkd004.Process σ) :
    Follows (qkdGetKeyStruct libc A env memory cell p) args
      (EtsiQkd004.qkdGetKeyStruct (callsOver (exchangeCall libc env memory)) r p)
      fun c y => Leaves args (.getKey r) (.getKey c) (.getKey y) := by
  obtain ⟨pm,rfl,hm⟩ := h
  have hstruct : EtsiQkd004.qkdGetKeyStruct (callsOver (exchangeCall libc env memory)) r p =
      exchangeCall libc env memory (some (getKeyRequestFrame r))
        EtsiQkd004.qkdGetKeyResponseFromStream p :=
    exchange_same _ (fun _ => rfl) p
  rw [hstruct]
  apply Follows.reads (reads_qkdBytes (holds_data r.metadata pm) (Multiset.singleton_le.mpr hm))
  let result (c : GetKeyResponse) (y : GetKeyResponseCell) (rest : Blocks Block) : Prop :=
    ∃ pk pn, y = ⟨c.status,c.index,⟨c.keyBuffer.size,pk⟩,⟨c.metadata.size,pn⟩⟩ ∧
      rest = (pn,Block.bytes c.metadata.data) ::ₘ (pk,Block.bytes c.keyBuffer.data) ::ₘ args
  refine Follows.imp (call_follows (R := result) libc A env memory
    (fun extra => decodes_getKeyResponse A _) ?_ _ p) ?_
  · rintro extra c _ _ ⟨pk,pn,rfl,rfl⟩
    refine Spec.pure ⟨_,⟨pk,pn,rfl,rfl⟩,?_⟩
    simp only [← Multiset.singleton_add]
    abel
  · rintro c _ _ ⟨ph,data,_,⟨pk,pn,rfl,rfl⟩,rfl⟩
    refine ⟨_,{(ph,Block.bytes data)},⟨pk,pn,rfl,rfl⟩,?_,rfl⟩
    simp only [Multiset.insert_eq_cons,← Multiset.singleton_add]
    abel

end Serve

section Run
variable {σ : Type} (libc : Prng σ) (A : Allocator)

/-- A heap with the texts of a small OPEN_CONNECT. -/
def texts : Heap Block where
  blocks := [text 1 (askMimetype 1).source,text 2 (askMimetype 1).destination,
    text 3 (askMimetype 1).qos.metadataMimetype]
  allocated := 3
  nodup := by decide
  null := by decide

section Plain
open PlainSsl

end Plain

end Run

end EtsiQkd004.OnHeap.Client
