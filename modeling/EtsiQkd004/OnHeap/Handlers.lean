import EtsiQkd004.Server.Servlet
import EtsiQkd004.Library.Heap
import Mathlib.Tactic.Abel

/-! The handlers of the example server over the heap, where its key streams are nodes linked by
pointers and every text has a block of its own. They do what the handlers over lists do, with
the blocks of the list and of their arguments, and never touch a block that is not live. -/
namespace EtsiQkd004.OnHeap
open Heaps WireCodec Registry

/-- `qkd_qos_t` in memory. -/
structure QosCell where
  keyChunkSize : UInt32
  maxBps : UInt32
  minBps : UInt32
  jitter : UInt32
  priority : UInt32
  timeout : UInt32
  ttl : UInt32
  metadataMimetype : ℕ

/-- `qkd_bytes_t` in memory. -/
structure BytesCell where
  size : UInt32
  data : ℕ

/-- `qkd_ksid_info_t` in memory. -/
structure KsidInfoCell where
  keyStreamId : Uuid
  qos : QosCell
  source : ℕ
  destination : ℕ
  currentIndex : Int32
  ksidInfoNext : ℕ

/-- What the blocks of the server hold. -/
inductive Block
  | bytes (data : Bytes)
  | ksidInfo (node : KsidInfoCell)

/-- `server_context_data_example_t` in memory, and the generator state. -/
structure ServerCell (σ : Type) where
  keyRate : Int32
  qber : ℚ
  ksidInfoLinkedList : ℕ
  prng : σ

structure OpenConnectRequestCell where
  source : ℕ
  destination : ℕ
  qos : QosCell
  keyStreamId : Uuid

structure OpenConnectResponseCell where
  status : UInt32
  qos : QosCell
  keyStreamId : Uuid

structure GetKeyRequestCell where
  keyStreamId : Uuid
  index : UInt32
  metadata : BytesCell

structure GetKeyResponseCell where
  status : UInt32
  index : UInt32
  keyBuffer : BytesCell
  metadata : BytesCell

/-- The zeroed values of `= {}` and `calloc`. -/
def QosCell.zero : QosCell := ⟨0,0,0,0,0,0,0,0⟩
def KsidInfoCell.zero : KsidInfoCell := ⟨Uuid.nil,.zero,0,0,0,0⟩
def BytesCell.zero : BytesCell := ⟨0,0⟩

section Reading

def loadBytes (p : ℕ) : HeapM Block Bytes := do
  match ← load p with
  | .bytes data => pure data
  | .ksidInfo _ => fault

def loadKsidInfo (p : ℕ) : HeapM Block KsidInfoCell := do
  match ← load p with
  | .bytes _ => fault
  | .ksidInfo node => pure node

/-- A text, up to its NUL, which has to be within the block. -/
def loadStr (p : ℕ) : HeapM Block CString := do
  let data ← loadBytes p
  match qkdStrFromStream.run data with
  | none => fault
  | some (str,_) => pure str

/-- `strcmp` with the result 0. -/
def strcmp (p q : ℕ) : HeapM Block Bool := do
  let a ← loadStr p
  let b ← loadStr q
  pure (decide (a=b))

end Reading

section Copying
variable (A : Allocator)

/-- The source is read once for its length and, once the destination has been freed, again. -/
def qkdCopyStr (dst src : ℕ) : HeapM Block ℕ := do
  let str ← loadStr src
  if dst≠0 then free dst
  let data ← loadBytes src
  malloc A (.bytes (data.take (str.chars.length+1)))

def qkdCopyUri (dst src : ℕ) : HeapM Block ℕ := qkdCopyStr A dst src
def qkdCopyMimetype (dst src : ℕ) : HeapM Block ℕ := qkdCopyStr A dst src

def qkdCopyQos (dst src : QosCell) : HeapM Block QosCell := do
  let metadataMimetype ← qkdCopyMimetype A dst.metadataMimetype src.metadataMimetype
  pure { src with metadataMimetype }

end Copying

section Handlers
variable {σ : Type} (libc : Prng σ) (A : Allocator) (env : Env)

inductive OpenSearchCell
  | matched (keyStreamId : Uuid)
  | stopped (node : ℕ)

/-- The second comparison is made only if the first one finds no difference. -/
def sameEndpoints (node : KsidInfoCell) (source destination : ℕ) : HeapM Block Bool := do
  let same ← strcmp node.source source
  if same then strcmp node.destination destination else pure false

/-- A round of the search loop of `qkd_open_connect`. -/
def openSearchRound (source destination p : ℕ) : HeapM Block (ℕ ⊕ OpenSearchCell) :=
  if p=0 then pure (.inr (.stopped p))
  else do
    let node ← loadKsidInfo p
    let same ← sameEndpoints node source destination
    if same then pure (.inr (.matched node.keyStreamId))
    else if node.ksidInfoNext=0 then pure (.inr (.stopped p))
    else pure (.inl node.ksidInfoNext)

/-- A round of the walk to the last node. -/
def lastNodeRound (p : ℕ) : HeapM Block (ℕ ⊕ ℕ) := do
  let node ← loadKsidInfo p
  if node.ksidInfoNext≠0 then pure (.inl node.ksidInfoNext) else pure (.inr p)

/-- The node of a new key stream. -/
def newKsidInfo (source destination : ℕ) (qos : QosCell) : HeapM Block ℕ := do
  let p ← malloc A (.ksidInfo .zero)
  let node ← loadKsidInfo p
  let qos ← qkdCopyQos A node.qos qos
  let source ← qkdCopyUri A node.source source
  let destination ← qkdCopyUri A node.destination destination
  store p (.ksidInfo ⟨env.uuid,qos,source,destination,0,0⟩)
  pure p

def qkdOpenConnect (source destination : ℕ) (qos : QosCell) (keyStreamId : Uuid)
    (s : ServerCell σ) : HeapM Block (OpenConnectResponseCell × ServerCell σ) := do
  let s := { s with prng := libc.srand env.time }
  if keyStreamId=Uuid.nil then
    match ← loop (openSearchRound source destination) s.ksidInfoLinkedList with
    | .matched keyStreamId => pure (⟨QkdStatusCode.successful.code,qos,keyStreamId⟩,s)
    | .stopped node =>
      let new ← newKsidInfo A env source destination qos
      if node=0 then
        pure (⟨QkdStatusCode.successful.code,qos,env.uuid⟩,{ s with ksidInfoLinkedList := new })
      else
        let lastNode ← loop lastNodeRound node
        let cell ← loadKsidInfo lastNode
        store lastNode (.ksidInfo { cell with ksidInfoNext := new })
        pure (⟨QkdStatusCode.successful.code,qos,env.uuid⟩,s)
  else pure (⟨QkdStatusCode.successful.code,qos,keyStreamId⟩,s)

/-- A round of the lookup loop of `qkd_get_key`. -/
def getKeyRound (keyStreamId : Uuid) (p : ℕ) : HeapM Block (ℕ ⊕ ℕ) :=
  if p=0 then pure (.inr p)
  else do
    let node ← loadKsidInfo p
    if keyStreamId=node.keyStreamId then pure (.inr p) else pure (.inl node.ksidInfoNext)

/-- A byte read from a block without a bounds check. -/
def blockByte (data : Bytes) (i : ℕ) : UInt8 := data.getD i (env.beyondMetadata (i-data.length))

/-- The two generators, on the texts of the node. -/
def keyData (node : KsidInfoCell) (index : UInt32) (keyType keyRole : UInt8) (prng : σ) :
    HeapM Block (QkdBytes × σ) := do
  let keySize := node.qos.keyChunkSize.toNat
  let source ← loadStr node.source
  let destination ← loadStr node.destination
  if keyType=QkdKeyInfoType.symmetric.code then
    pure (genPseudorandomKey libc source destination keySize index env.allocated prng)
  else if keyRole=16 then
    pure (genObliviousPseudorandomKey libc source destination keySize index 1 env.allocated prng)
  else
    pure (genObliviousPseudorandomKey libc source destination keySize index 2 env.allocated prng)

/-- The block of a key, unless it could not be allocated. -/
def keyBuffer (key : QkdBytes) : HeapM Block BytesCell :=
  if env.allocated then do
    let data ← malloc A (.bytes key.data)
    pure ⟨key.size,data⟩
  else pure ⟨0,0⟩

/-- The metadata of the request stay where they are when the answer gets metadata of its own. -/
def qkdGetKey (keyStreamId : Uuid) (index : UInt32) (keyBuf metadata : BytesCell)
    (s : ServerCell σ) : HeapM Block (GetKeyResponseCell × ServerCell σ) := do
  let p ← loop (getKeyRound keyStreamId) s.ksidInfoLinkedList
  if p=0 then pure (⟨QkdStatusCode.gkPeerNotConnected.code,index,keyBuf,metadata⟩,s)
  else do
    let node ← loadKsidInfo p
    let metaValue ← loadBytes metadata.data
    let key ← keyData libc env node index (blockByte env metaValue 0) (blockByte env metaValue 1)
      s.prng
    let keyBuf ← keyBuffer A env key.1
    let info := (deviceInfo ⟨s.keyRate,s.qber,[]⟩).chars ++ [0]
    let data ← malloc A (.bytes info)
    store p (.ksidInfo { node with currentIndex := node.currentIndex+1 })
    pure (⟨QkdStatusCode.successful.code,index,keyBuf,⟨UInt32.ofNat info.length,data⟩⟩,
      { s with prng := key.2 })

def qkdOpenConnectStruct (request : OpenConnectRequestCell) (s : ServerCell σ) :
    HeapM Block (OpenConnectResponseCell × ServerCell σ) := do
  let qos ← qkdCopyQos A .zero request.qos
  qkdOpenConnect libc A env request.source request.destination qos request.keyStreamId s

/-- The response starts with the metadata pointer of the request. -/
def qkdGetKeyStruct (request : GetKeyRequestCell) (s : ServerCell σ) :
    HeapM Block (GetKeyResponseCell × ServerCell σ) :=
  qkdGetKey libc A env request.keyStreamId request.index .zero request.metadata s

end Handlers

/-- A text at its address. -/
def text (p : ℕ) (str : CString) : ℕ × Block := (p,.bytes (qkdStrToStream str))

/-- A QoS whose mimetype is at the address `p`. -/
def qosCell (qos : QkdQos) (p : ℕ) : QosCell :=
  ⟨qos.keyChunkSize,qos.maxBps,qos.minBps,qos.jitter,qos.priority,qos.timeout,qos.ttl,p⟩

/-- The node of a key stream with a link to `next`, and its texts. -/
def Node (p next : ℕ) (e : KsidInfo) (own : Blocks Block) : Prop :=
  ∃ ps pd pm, own = {(p,.ksidInfo ⟨e.keyStreamId,qosCell e.qos pm,ps,pd,e.currentIndex,next⟩),
    text ps e.source,text pd e.destination,text pm e.qos.metadataMimetype}

lemma Node.card {p next : ℕ} {e : KsidInfo} {own : Blocks Block} (h : Node p next e own) :
    own.card = 4 := by
  obtain ⟨ps,pd,pm,rfl⟩ := h
  rfl

/-- The server in memory, with its list in the blocks `own`, is the server `s`. -/
structure Represents {σ : Type} (m : ServerCell σ) (s : Server σ) (own : Blocks Block) : Prop where
  keyRate : m.keyRate=s.config.keyRate
  qber : m.qber=s.config.qber
  prng : m.prng=s.prng
  linked : Linked Node m.ksidInfoLinkedList 0 s.store own

section Reads
variable {pre : Blocks Block} {p : ℕ}

lemma reads_bytes {data : Bytes} (h : (p,Block.bytes data) ∈ pre) : Reads (loadBytes p) pre data :=
  (Reads.load h).bind (Reads.pure data pre)

lemma reads_ksidInfo {node : KsidInfoCell} (h : (p,Block.ksidInfo node) ∈ pre) :
    Reads (loadKsidInfo p) pre node :=
  (Reads.load h).bind (Reads.pure node pre)

lemma reads_str {str : CString} (h : text p str ∈ pre) : Reads (loadStr p) pre str := by
  apply (reads_bytes h).bind
  have hrun : qkdStrFromStream.run (qkdStrToStream str) = some (str,[]) := by
    have h := qkdStr_exact.decode_encode str []
    rwa [List.append_nil] at h
  rw [hrun]
  exact Reads.pure str pre

lemma reads_strcmp {q : ℕ} {a b : CString} (ha : text p a ∈ pre) (hb : text q b ∈ pre) :
    Reads (strcmp p q) pre (decide (a=b)) :=
  (reads_str ha).bind ((reads_str hb).bind (Reads.pure _ pre))

lemma reads_sameEndpoints {node : KsidInfoCell} {ps pd : ℕ} {a b source destination : CString}
    (ha : text node.source a ∈ pre) (hb : text node.destination b ∈ pre)
    (hs : text ps source ∈ pre) (hd : text pd destination ∈ pre) :
    Reads (sameEndpoints node ps pd) pre (decide (a=source ∧ b=destination)) := by
  apply (reads_strcmp ha hs).bind
  by_cases hsource : a=source
  · simp only [hsource,decide_true,if_true,true_and]
    exact reads_strcmp hb hd
  · simp only [hsource,decide_false,false_and]
    exact Reads.pure _ _

end Reads

section Copies
variable (A : Allocator) {pre : Blocks Block}

/-- The size of a text covers all of it. -/
lemma qkdStrToStream_take (str : CString) :
    (qkdStrToStream str).take (str.chars.length+1) = qkdStrToStream str :=
  List.take_of_length_le (by simp [qkdStrToStream])

/-- A copy into a destination that holds nothing yet gets a new block. -/
lemma spec_copyStr {src : ℕ} {str : CString} (h : text src str ∈ pre) :
    Spec (qkdCopyStr A 0 src) pre (fun p own => own = text p str ::ₘ pre) := by
  apply (reads_str h).bind
  rw [if_neg (not_not.mpr rfl)]
  apply (reads_bytes h).bind
  rw [qkdStrToStream_take]
  exact Spec.malloc A _

lemma spec_copyQos {qos : QkdQos} {src : ℕ} (h : text src qos.metadataMimetype ∈ pre) :
    Spec (qkdCopyQos A .zero (qosCell qos src)) pre
      (fun q own => ∃ p, q = qosCell qos p ∧ own = text p qos.metadataMimetype ::ₘ pre) := by
  apply (spec_copyStr A h).bind
  rintro p _ rfl
  exact Spec.pure ⟨p,rfl,rfl⟩

/-- A copy over another text frees that. -/
lemma spec_copyQos_over {rest : Blocks Block} {dst : QosCell} {old : CString} {qos : QkdQos}
    {src : ℕ} (hpre : pre = text dst.metadataMimetype old ::ₘ rest)
    (h : text src qos.metadataMimetype ∈ rest) :
    Spec (qkdCopyQos A dst (qosCell qos src)) pre
      (fun q own => ∃ p, q = qosCell qos p ∧ own = text p qos.metadataMimetype ::ₘ rest) := by
  subst hpre
  refine Spec.ne_null (Multiset.mem_cons_self _ _) fun hdst => ?_
  have hcopy : Spec (qkdCopyStr A dst.metadataMimetype src) (text dst.metadataMimetype old ::ₘ rest)
      (fun p own => own = text p qos.metadataMimetype ::ₘ rest) := by
    apply (reads_str (Multiset.mem_cons_of_mem h)).bind
    simp only [if_pos hdst]
    apply (Spec.free rfl).andThen
    intro _
    apply (reads_bytes h).bind
    rw [qkdStrToStream_take]
    exact Spec.malloc A _
  apply hcopy.bind
  rintro p _ rfl
  exact Spec.pure ⟨p,rfl,rfl⟩

end Copies

section Loops

/-- The list of key streams where a walk stands at `p`: the nodes passed and those to come. -/
structure Walk (head : ℕ) (l : List KsidInfo) (own : Blocks Block) (p : ℕ)
    (passed rest : List KsidInfo) : Prop where
  list : l = passed ++ rest
  blocks : ∃ own₁ own₂, Linked Node head p passed own₁ ∧ Linked Node p 0 rest own₂ ∧
    own = own₁ + own₂

lemma Walk.start {head : ℕ} {l : List KsidInfo} {own : Blocks Block}
    (h : Linked Node head 0 l own) : Walk head l own head [] l :=
  ⟨rfl,0,own,⟨rfl,rfl⟩,h,(zero_add own).symm⟩

lemma Walk.le_card {head p : ℕ} {l passed rest : List KsidInfo} {own : Blocks Block}
    (h : Walk head l own p passed rest) : rest.length ≤ own.card := by
  obtain ⟨own₁,own₂,-,h₂,rfl⟩ := h.blocks
  rw [Multiset.card_add,linked_card (fun _ _ _ _ => Node.card) h₂]
  omega

/-- A walk that has not come to the end stands at a node. -/
lemma Walk.node {head p : ℕ} {l passed rest : List KsidInfo} {own : Blocks Block}
    (h : Walk head l own p passed rest) (hp : p≠0) :
    ∃ e rest' ps pd pm next, rest = e::rest' ∧
      (p,.ksidInfo ⟨e.keyStreamId,qosCell e.qos pm,ps,pd,e.currentIndex,next⟩) ∈ own ∧
      text ps e.source ∈ own ∧ text pd e.destination ∈ own ∧
      Walk head l own next (passed ++ [e]) rest' ∧ (next=0 ↔ rest'=[]) := by
  obtain ⟨own₁,own₂,h₁,h₂,rfl⟩ := h.blocks
  cases rest with
  | nil => exact absurd h₂.1 hp
  | cons e rest =>
    obtain ⟨-,next,here,own₃,⟨ps,pd,pm,rfl⟩,h₃,rfl⟩ := h₂
    have hlast : Linked Node head next (passed ++ [e])
        (own₁ + {(p,.ksidInfo ⟨e.keyStreamId,qosCell e.qos pm,ps,pd,e.currentIndex,next⟩),
          text ps e.source,text pd e.destination,text pm e.qos.metadataMimetype}) := by
      rw [linked_append]
      exact ⟨p,_,_,h₁,⟨hp,next,_,0,⟨ps,pd,pm,rfl⟩,⟨rfl,rfl⟩,(add_zero _).symm⟩,rfl⟩
    refine ⟨e,rest,ps,pd,pm,next,rfl,by simp,by simp,by simp,⟨?_,_,own₃,hlast,h₃,?_⟩,?_⟩
    · rw [h.list,List.append_assoc]
      rfl
    · rw [add_assoc]
    · constructor
      · rintro rfl
        exact linked_null h₃
      · rintro rfl
        exact h₃.1

/-- The lookup loop stops at the node that the search over the list finds. -/
lemma spec_getKeyLoop {head : ℕ} {l : List KsidInfo} {own : Blocks Block}
    (h : Linked Node head 0 l own) (k : Uuid) :
    Spec (loop (getKeyRound k) head) own (fun p own' => own'=own ∧
      (p=0 → getKeySearch k l = none) ∧
      (p≠0 → ∃ passed e rest, getKeySearch k l = some (passed,e,rest) ∧
        Walk head l own p passed (e::rest))) := by
  let I (n p : ℕ) (own' : Blocks Block) : Prop := own'=own ∧ ∃ passed rest,
    n = rest.length ∧ Walk head l own p passed rest ∧
      getKeySearch k l = (getKeySearch k rest).map fun x => (passed ++ x.1,x.2)
  have hstart := Walk.start h
  have hI : I l.length head own := ⟨rfl,[],l,rfl,hstart,by simp⟩
  apply Spec.loop hI hstart.le_card
  rintro n p _ ⟨rfl,passed,rest,rfl,hwalk,hsearch⟩
  unfold getKeyRound
  by_cases hp : p=0
  · rw [if_pos hp]
    subst hp
    obtain ⟨-,own₂,-,h₂,-⟩ := hwalk.blocks
    obtain rfl := linked_null h₂
    exact Spec.pure ⟨rfl,fun _ => hsearch,fun hp => absurd rfl hp⟩
  · rw [if_neg hp]
    obtain ⟨e,rest,ps,pd,pm,next,rfl,hmem,-,-,hnext,-⟩ := hwalk.node hp
    apply (reads_ksidInfo hmem).bind
    by_cases hk : k=e.keyStreamId
    · rw [if_pos hk]
      rw [getKeySearch,if_pos hk] at hsearch
      refine Spec.pure ⟨rfl,fun h0 => absurd h0 hp,fun _ => ⟨passed,e,rest,?_,hwalk⟩⟩
      simpa using hsearch
    · rw [if_neg hk]
      refine Spec.pure ⟨rest.length,by simp,rfl,passed ++ [e],rest,rfl,hnext,?_⟩
      rw [hsearch,getKeySearch,if_neg hk,Option.map_map]
      congr 1
      funext x
      simp

/-- The search loop of OPEN_CONNECT ends like the search over the list. -/
lemma spec_openSearchLoop {head ps pd : ℕ} {l : List KsidInfo} {own args : Blocks Block}
    {source destination : CString} (h : Linked Node head 0 l own)
    (hs : text ps source ∈ args) (hd : text pd destination ∈ args) :
    Spec (loop (openSearchRound ps pd) head) (own + args) (fun r own' => own' = own + args ∧
      match openSearch source destination [] l with
      | .matched node => r = .matched node.keyStreamId
      | .stopped passed node => ∃ p, r = .stopped p ∧ Walk head l own p passed node ∧
          (node=[] → passed=[])) := by
  let I (n p : ℕ) (own' : Blocks Block) : Prop := own' = own + args ∧ ∃ passed rest,
    n = rest.length ∧ Walk head l own p passed rest ∧ (rest=[] → passed=[]) ∧
      openSearch source destination [] l = openSearch source destination passed rest
  have hstart := Walk.start h
  have hI : I l.length head (own + args) := ⟨rfl,[],l,rfl,hstart,fun _ => rfl,rfl⟩
  have hcard : l.length ≤ (own + args).card := by
    have hle := hstart.le_card
    rw [Multiset.card_add]
    omega
  apply Spec.loop hI hcard
  rintro n p _ ⟨rfl,passed,rest,rfl,hwalk,hempty,hsearch⟩
  unfold openSearchRound
  by_cases hp : p=0
  · rw [if_pos hp]
    subst hp
    obtain ⟨-,own₂,-,h₂,-⟩ := hwalk.blocks
    obtain rfl := linked_null h₂
    refine Spec.pure ⟨rfl,?_⟩
    rw [hsearch]
    exact ⟨0,rfl,hwalk,hempty⟩
  · rw [if_neg hp]
    obtain ⟨e,rest,ps',pd',pm,next,rfl,hmem,hsource,hdestination,hnext,hnull⟩ := hwalk.node hp
    have hargs {x : ℕ × Block} (hx : x ∈ args) : x ∈ own + args :=
      Multiset.mem_add.mpr (Or.inr hx)
    have hown {x : ℕ × Block} (hx : x ∈ own) : x ∈ own + args :=
      Multiset.mem_add.mpr (Or.inl hx)
    apply (reads_ksidInfo (hown hmem)).bind
    apply (reads_sameEndpoints (hown hsource) (hown hdestination) (hargs hs) (hargs hd)).bind
    rw [openSearch] at hsearch
    by_cases hm : e.source=source ∧ e.destination=destination
    · rw [if_pos hm] at hsearch
      rw [if_pos (decide_eq_true hm)]
      refine Spec.pure ⟨rfl,?_⟩
      rw [hsearch]
    · rw [if_neg hm] at hsearch
      rw [if_neg (by simpa using hm)]
      by_cases hlast : next=0
      · rw [if_pos (hnull.mp hlast)] at hsearch
        rw [if_pos hlast]
        refine Spec.pure ⟨rfl,?_⟩
        rw [hsearch]
        exact ⟨p,rfl,hwalk,by simp⟩
      · rw [if_neg (mt hnull.mpr hlast)] at hsearch
        rw [if_neg hlast]
        exact Spec.pure ⟨rest.length,by simp,rfl,passed ++ [e],rest,rfl,hnext,
          fun hr => absurd (hnull.mpr hr) hlast,hsearch⟩

/-- The walk to the last node, from a node of the list. -/
lemma spec_lastNodeLoop {head p : ℕ} {l passed rest : List KsidInfo} {own args : Blocks Block}
    (h : Walk head l own p passed rest) (hp : p≠0) :
    Spec (loop lastNodeRound p) (own + args) (fun q own' => own' = own + args ∧ q≠0 ∧
      ∃ init last, Walk head l own q init [last]) := by
  let I (n p : ℕ) (own' : Blocks Block) : Prop := own' = own + args ∧ p≠0 ∧ ∃ passed rest,
    n = rest.length ∧ Walk head l own p passed rest
  have hI : I rest.length p (own + args) := ⟨rfl,hp,passed,rest,rfl,h⟩
  have hcard : rest.length ≤ (own + args).card := by
    have hle := h.le_card
    rw [Multiset.card_add]
    omega
  apply Spec.loop hI hcard
  rintro n p _ ⟨rfl,hp,passed,rest,rfl,hwalk⟩
  obtain ⟨e,rest,ps,pd,pm,next,rfl,hmem,-,-,hnext,hnull⟩ := hwalk.node hp
  apply (reads_ksidInfo (Multiset.mem_add.mpr (Or.inl hmem))).bind
  by_cases hlast : next=0
  · obtain rfl := hnull.mp hlast
    rw [if_neg (not_not.mpr hlast)]
    exact Spec.pure ⟨rfl,hp,passed,e,hwalk⟩
  · rw [if_pos hlast]
    exact Spec.pure ⟨rest.length,by simp,rfl,hlast,passed ++ [e],rest,rfl,hnext⟩

end Loops

section Insertion
variable (A : Allocator) (env : Env)

lemma spec_newKsidInfo {pre : Blocks Block} {ps pd pm : ℕ} {source destination : CString}
    {qos : QkdQos} (hs : text ps source ∈ pre) (hd : text pd destination ∈ pre)
    (hm : text pm qos.metadataMimetype ∈ pre) :
    Spec (newKsidInfo A env ps pd (qosCell qos pm)) pre (fun p own => p≠0 ∧
      ∃ here, Node p 0 ⟨env.uuid,qos,source,destination,0⟩ here ∧ own = here + pre) := by
  apply (Spec.malloc A _).andThen
  intro p
  refine Spec.ne_null (Multiset.mem_cons_self _ _) fun hp => ?_
  apply (reads_ksidInfo (Multiset.mem_cons_self _ _)).bind
  apply (spec_copyQos A (Multiset.mem_cons_of_mem hm)).bind
  rintro _ _ ⟨pm',rfl,rfl⟩
  apply (spec_copyStr A (Multiset.mem_cons_of_mem (Multiset.mem_cons_of_mem hs))).andThen
  intro ps'
  apply (spec_copyStr A (Multiset.mem_cons_of_mem (Multiset.mem_cons_of_mem
    (Multiset.mem_cons_of_mem hd)))).andThen
  intro pd'
  have hpre : text pd' destination ::ₘ text ps' source ::ₘ text pm' qos.metadataMimetype ::ₘ
      (p,Block.ksidInfo KsidInfoCell.zero) ::ₘ pre = (p,Block.ksidInfo KsidInfoCell.zero) ::ₘ
        text ps' source ::ₘ text pd' destination ::ₘ text pm' qos.metadataMimetype ::ₘ pre := by
    simp only [← Multiset.singleton_add]
    abel
  apply (Spec.store hpre).andThen
  intro _
  exact Spec.pure ⟨hp,_,⟨ps',pd',pm',rfl⟩,by simp⟩

/-- A node behind the last one. -/
lemma Walk.link {head q new : ℕ} {l init : List KsidInfo} {last e : KsidInfo}
    {own here : Blocks Block} (hwalk : Walk head l own q init [last]) (hnew : new≠0)
    (he : Node new 0 e here) :
    ∃ cell rest, own = (q,Block.ksidInfo cell) ::ₘ rest ∧ Linked Node head 0 (l ++ [e])
      ((q,Block.ksidInfo { cell with ksidInfoNext := new }) ::ₘ rest + here) := by
  obtain ⟨own₁,own₂,h₁,⟨hq,next,_,own₃,⟨ps,pd,pm,rfl⟩,⟨rfl,rfl⟩,rfl⟩,rfl⟩ := hwalk.blocks
  let cell : KsidInfoCell :=
    ⟨last.keyStreamId,qosCell last.qos pm,ps,pd,last.currentIndex,0⟩
  let texts : Blocks Block :=
    {text ps last.source,text pd last.destination,text pm last.qos.metadataMimetype}
  have hlast : Node q new last ((q,Block.ksidInfo { cell with ksidInfoNext := new }) ::ₘ texts) :=
    ⟨ps,pd,pm,rfl⟩
  refine ⟨cell,own₁ + texts,?_,?_⟩
  · simp only [texts,cell,Multiset.insert_eq_cons,← Multiset.singleton_add]
    abel
  · rw [hwalk.list,List.append_assoc,linked_append]
    refine ⟨q,own₁,_,h₁,⟨hq,new,_,here,hlast,
      ⟨hnew,0,here,0,he,⟨rfl,rfl⟩,(add_zero _).symm⟩,rfl⟩,?_⟩
    simp only [← Multiset.singleton_add]
    abel

end Insertion

section OpenConnect
variable {σ : Type} (libc : Prng σ) (A : Allocator) (env : Env)

/-- OPEN_CONNECT in memory does what it does over the list, beside the blocks of its arguments. -/
theorem spec_openConnect {m : ServerCell σ} {s : Server σ} {own args : Blocks Block}
    (hrep : Represents m s own) {ps pd pm : ℕ} {source destination : CString} {qos : QkdQos}
    (hs : text ps source ∈ args) (hd : text pd destination ∈ args)
    (hm : text pm qos.metadataMimetype ∈ args) (keyStreamId : Uuid) (status : UInt32) :
    let x := (serverCalls libc env).qkdOpenConnect source destination qos keyStreamId status s
    Spec (qkdOpenConnect libc A env ps pd (qosCell qos pm) keyStreamId m) (own + args)
      (fun y own' => y.1 = ⟨x.1.status,qosCell x.1.qos pm,x.1.keyStreamId⟩ ∧
        ∃ list, Represents y.2 x.2 list ∧ own' = list + args) := by
  intro x
  simp only [x,qkdOpenConnect,serverCalls]
  by_cases hnil : keyStreamId=Uuid.nil
  · rw [if_pos hnil,if_pos hnil]
    apply (spec_openSearchLoop hrep.linked hs hd).bind
    rintro r _ ⟨rfl,hr⟩
    cases hsearch : openSearch source destination [] s.config.ksidInfoLinkedList with
    | matched node =>
      rw [hsearch] at hr
      obtain rfl := hr
      exact Spec.pure ⟨rfl,own,⟨hrep.keyRate,hrep.qber,rfl,hrep.linked⟩,rfl⟩
    | stopped passed node =>
      rw [hsearch] at hr
      obtain ⟨p,rfl,hwalk,hempty⟩ := hr
      have hargs {x : ℕ × Block} (hx : x ∈ args) : x ∈ own + args :=
        Multiset.mem_add.mpr (Or.inr hx)
      apply (spec_newKsidInfo A env (hargs hs) (hargs hd) (hargs hm)).bind
      rintro new _ ⟨hnew,here,hnode,rfl⟩
      by_cases hp : p=0
      · simp only [if_pos hp]
        subst hp
        obtain ⟨own₁,own₂,h₁,h₂,rfl⟩ := hwalk.blocks
        obtain rfl := linked_null h₂
        obtain rfl := hempty rfl
        obtain ⟨-,rfl⟩ := h₁
        obtain ⟨-,rfl⟩ := h₂
        refine Spec.pure ⟨rfl,here,⟨hrep.keyRate,hrep.qber,rfl,?_⟩,by simp⟩
        exact ⟨hnew,0,here,0,hnode,⟨rfl,rfl⟩,(add_zero _).symm⟩
      · simp only [if_neg hp]
        have hne : node≠[] := by
          obtain ⟨e,rest,-,-,-,-,rfl,-⟩ := hwalk.node hp
          exact List.cons_ne_nil _ _
        rw [show here + (own + args) = own + (here + args) by abel]
        apply (spec_lastNodeLoop hwalk hp).bind
        rintro q _ ⟨rfl,hq,init,last,hlast⟩
        obtain ⟨cell,rest,rfl,hlinked⟩ := hlast.link hnew hnode
        have hcell : (q,Block.ksidInfo cell) ∈ (q,Block.ksidInfo cell) ::ₘ rest + (here + args) := by
          simp
        apply (reads_ksidInfo hcell).bind
        apply (Spec.store (Multiset.cons_add _ _ _)).andThen
        intro _
        rw [← insertKsidInfo_eq _ hwalk.list.symm (fun hn => absurd hn hne)] at hlinked
        refine Spec.pure ⟨rfl,_,⟨hrep.keyRate,hrep.qber,rfl,hlinked⟩,?_⟩
        rw [Multiset.cons_add,Multiset.cons_add,add_assoc]
  · rw [if_neg hnil,if_neg hnil]
    exact Spec.pure ⟨rfl,own,⟨hrep.keyRate,hrep.qber,rfl,hrep.linked⟩,rfl⟩

end OpenConnect

section GetKey
variable {σ : Type} (libc : Prng σ) (A : Allocator) (env : Env)

/-- The bytes `b` in memory: none at null, or the first ones of a block. -/
def Holds (cell : BytesCell) (b : QkdBytes) (own : Blocks Block) : Prop :=
  cell.size=b.size ∧ ((cell.data=0 ∧ b.size=0 ∧ own=0) ∨
    ∃ buffer, own = {(cell.data,Block.bytes buffer)} ∧ b.data = buffer.take b.size.toNat)

lemma holds_data (b : QkdBytes) (p : ℕ) : Holds ⟨b.size,p⟩ b {(p,Block.bytes b.data)} :=
  ⟨rfl,Or.inr ⟨b.data,rfl,by rw [← b.size_eq,List.take_length]⟩⟩

/-- A node whose stream is counted up in place. -/
lemma Walk.count {head p : ℕ} {l passed rest : List KsidInfo} {e : KsidInfo} {own : Blocks Block}
    (hwalk : Walk head l own p passed (e::rest)) (hp : p≠0) :
    ∃ cell others, own = (p,Block.ksidInfo cell) ::ₘ others ∧
      cell.qos.keyChunkSize=e.qos.keyChunkSize ∧ text cell.source e.source ∈ others ∧
      text cell.destination e.destination ∈ others ∧
      Linked Node head 0 (passed ++ { e with currentIndex := e.currentIndex+1 }::rest)
        ((p,Block.ksidInfo { cell with currentIndex := cell.currentIndex+1 }) ::ₘ others) := by
  obtain ⟨own₁,own₂,h₁,⟨-,next,_,own₃,⟨ps,pd,pm,rfl⟩,h₃,rfl⟩,rfl⟩ := hwalk.blocks
  let cell : KsidInfoCell := ⟨e.keyStreamId,qosCell e.qos pm,ps,pd,e.currentIndex,next⟩
  let texts : Blocks Block :=
    {text ps e.source,text pd e.destination,text pm e.qos.metadataMimetype}
  have hnode : Node p next { e with currentIndex := e.currentIndex+1 }
      ((p,Block.ksidInfo { cell with currentIndex := cell.currentIndex+1 }) ::ₘ texts) :=
    ⟨ps,pd,pm,rfl⟩
  refine ⟨cell,own₁ + texts + own₃,?_,rfl,by simp [texts,cell],by simp [texts,cell],?_⟩
  · simp only [texts,cell,Multiset.insert_eq_cons,← Multiset.singleton_add]
    abel
  · rw [linked_append]
    refine ⟨p,own₁,_,h₁,⟨hp,next,_,own₃,hnode,h₃,rfl⟩,?_⟩
    simp only [← Multiset.singleton_add]
    abel

lemma reads_keyData {pre : Blocks Block} {cell : KsidInfoCell} {e : KsidInfo}
    (hsize : cell.qos.keyChunkSize=e.qos.keyChunkSize) (hs : text cell.source e.source ∈ pre)
    (hd : text cell.destination e.destination ∈ pre) (index : UInt32) (keyType keyRole : UInt8)
    (prng : σ) :
    Reads (keyData libc env cell index keyType keyRole prng) pre
      (EtsiQkd004.keyData libc e index keyType keyRole env.allocated prng) := by
  apply (reads_str hs).bind
  apply (reads_str hd).bind
  simp only [EtsiQkd004.keyData,hsize]
  split_ifs
  · exact Reads.pure _ pre
  · exact Reads.pure _ pre
  · exact Reads.pure _ pre

/-- Without a block the key is empty. -/
lemma keyData_unallocated {e : KsidInfo} (halloc : env.allocated=false) (index : UInt32)
    (keyType keyRole : UInt8) (prng : σ) :
    (EtsiQkd004.keyData libc e index keyType keyRole env.allocated prng).1 = QkdBytes.empty := by
  simp only [EtsiQkd004.keyData,genPseudorandomKey,genObliviousPseudorandomKey,halloc,
    Bool.false_eq_true,if_false,ite_self]

lemma spec_keyBuffer {pre : Blocks Block} {key : QkdBytes}
    (h : env.allocated=false → key = QkdBytes.empty) :
    Spec (keyBuffer A env key) pre (fun c own => ∃ kb, Holds c key kb ∧ own = kb + pre) := by
  unfold keyBuffer
  cases halloc : env.allocated with
  | true =>
    rw [if_pos rfl]
    apply (Spec.malloc A _).andThen
    intro p
    exact Spec.pure ⟨_,holds_data key p,(Multiset.singleton_add _ _).symm⟩
  | false =>
    rw [if_neg Bool.false_ne_true,h halloc]
    exact Spec.pure ⟨0,⟨rfl,Or.inl ⟨rfl,rfl,rfl⟩⟩,(zero_add pre).symm⟩

lemma holds_deviceMetadata (config : ServerContext) (p : ℕ) :
    Holds ⟨UInt32.ofNat ((deviceInfo config).chars ++ [0]).length,p⟩ (deviceMetadata config)
      {(p,Block.bytes ((deviceInfo config).chars ++ [0]))} := by
  refine ⟨rfl,Or.inr ⟨_,rfl,?_⟩⟩
  have hsize : (deviceMetadata config).size.toNat =
      ((deviceInfo config).chars ++ [0]).length % 2^32 := UInt32.toNat_ofNat'
  rw [hsize]
  rfl

/-- GET_KEY in memory does what it does over the list. A key comes in new blocks, beside those of
the request; without one, the answer has the metadata block of the request. -/
theorem spec_getKey {m : ServerCell σ} {s : Server σ} {own args : Blocks Block}
    (hrep : Represents m s own) {metadata : QkdBytes} {p : ℕ}
    (hm : (p,Block.bytes metadata.data) ∈ args) (k : Uuid) (index status : UInt32) :
    let x := (serverCalls libc env).qkdGetKey k index QkdBytes.empty metadata status s
    Spec (qkdGetKey libc A env k index .zero ⟨metadata.size,p⟩ m) (own + args)
      (fun y own' => y.1.status=x.1.status ∧ y.1.index=x.1.index ∧
        ∃ list kb, Represents y.2 x.2 list ∧ Holds y.1.keyBuffer x.1.keyBuffer kb ∧
          match getKeySearch k s.store with
          | none => y.1.metadata = ⟨metadata.size,p⟩ ∧ x.1.metadata=metadata ∧
              own' = list + args + kb
          | some _ => ∃ md, Holds y.1.metadata x.1.metadata md ∧ own' = list + args + kb + md) := by
  intro x
  simp only [x,qkdGetKey,serverCalls]
  apply ((spec_getKeyLoop hrep.linked k).frame args).bind
  rintro q _ ⟨_,⟨rfl,hnone,hsome⟩,rfl⟩
  by_cases hq : q=0
  · have hsearch : getKeySearch k s.config.ksidInfoLinkedList = none := hnone hq
    rw [if_pos hq,hsearch]
    exact Spec.pure ⟨rfl,rfl,_,0,hrep,⟨rfl,Or.inl ⟨rfl,rfl,rfl⟩⟩,rfl,rfl,(add_zero _).symm⟩
  · obtain ⟨passed,e,rest,hsearch,hwalk⟩ := hsome hq
    have hsearch : getKeySearch k s.config.ksidInfoLinkedList = some (passed,e,rest) := hsearch
    rw [if_neg hq,hsearch]
    obtain ⟨cell,others,rfl,hsize,hs,hd,hlinked⟩ := hwalk.count hq
    have hmem : (q,Block.ksidInfo cell) ∈ (q,Block.ksidInfo cell) ::ₘ others + args := by simp
    have hothers {x : ℕ × Block} (hx : x ∈ others) :
        x ∈ (q,Block.ksidInfo cell) ::ₘ others + args := by simp [hx]
    apply (reads_ksidInfo hmem).bind
    apply (reads_bytes (Multiset.mem_add.mpr (Or.inr hm))).bind
    apply (reads_keyData libc env hsize (hothers hs) (hothers hd) index _ _ m.prng).bind
    apply (spec_keyBuffer A env fun halloc => keyData_unallocated libc env halloc _ _ _ _).bind
    rintro keyBuf _ ⟨kb,hkb,rfl⟩
    apply (Spec.malloc A _).andThen
    intro data
    have hpre : (data,Block.bytes ((deviceInfo ⟨m.keyRate,m.qber,[]⟩).chars ++ [0])) ::ₘ
        (kb + ((q,Block.ksidInfo cell) ::ₘ others + args)) = (q,Block.ksidInfo cell) ::ₘ
          ((data,Block.bytes ((deviceInfo ⟨m.keyRate,m.qber,[]⟩).chars ++ [0])) ::ₘ
            (kb + (others + args))) := by
      simp only [← Multiset.singleton_add]
      abel
    apply (Spec.store hpre).andThen
    intro _
    have hmd := holds_deviceMetadata ⟨m.keyRate,m.qber,[]⟩ data
    have hdevice : deviceMetadata ⟨m.keyRate,m.qber,[]⟩ = deviceMetadata s.config := by
      rw [hrep.keyRate,hrep.qber]
      rfl
    rw [hdevice] at hmd
    rw [hrep.prng] at hkb ⊢
    refine Spec.pure ⟨rfl,rfl,_,kb,⟨hrep.keyRate,hrep.qber,rfl,hlinked⟩,hkb,_,hmd,?_⟩
    simp only [← Multiset.singleton_add]
    abel

end GetKey

end EtsiQkd004.OnHeap
