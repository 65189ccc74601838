import EtsiQkd004.OnHeap.Handlers

/-! The decoders of the messages over the heap: each text and each field of bytes is copied into
a new block, an identifier into one that is freed at once. They get as far on every stream as the
decoders that only read. -/
namespace EtsiQkd004.OnHeap
open Heaps WireCodec

/-- Decoders that allocate. A read past the end of the stream ends the process. -/
abbrev HeapDecoder (α : Type) := StateT Bytes (HeapM Block) α

section Streams
variable (A : Allocator)

/-- What is decoded without an allocation. -/
def decode {α : Type} (d : Decoder UInt8 α) : HeapDecoder α := fun stream =>
  match d.run stream with
  | none => exit
  | some x => pure x

/-- `malloc` and a `memcpy` of that many bytes. -/
def mallocCopy (data : Bytes) : HeapM Block ℕ := malloc A (.bytes data)

def qkdStrFromStream : HeapDecoder ℕ := do
  let str ← decode EtsiQkd004.qkdStrFromStream
  mallocCopy A (qkdStrToStream str)

def qkdUriFromStream : HeapDecoder ℕ := qkdStrFromStream A
def qkdMimetypeFromStream : HeapDecoder ℕ := qkdStrFromStream A

def qkdUuidFromStream : HeapDecoder ℕ := do
  let id ← decode EtsiQkd004.qkdUuidFromStream
  mallocCopy A id.bytes

/-- An identifier in a block. -/
def loadUuid (p : ℕ) : HeapM Block Uuid := do
  let data ← loadBytes p
  match EtsiQkd004.qkdUuidFromStream.run data with
  | none => fault
  | some (id,_) => pure id

/-- The identifier field of a request is copied out of the block it was decoded into. -/
def keyStreamIdFromStream : HeapDecoder Uuid := do
  let uuidPtr ← qkdUuidFromStream A
  let keyStreamId ← loadUuid uuidPtr
  (free uuidPtr : HeapM Block Unit)
  pure keyStreamId

def qkdBytesDataFromStream : HeapDecoder BytesCell := do
  let data ← decode EtsiQkd004.qkdBytesDataFromStream
  let p ← mallocCopy A data.data
  pure ⟨data.size,p⟩

def qkdKeyBufferFromStream : HeapDecoder BytesCell := qkdBytesDataFromStream A
def qkdMetadataFromStream : HeapDecoder BytesCell := qkdBytesDataFromStream A

def qkdQosFromStream : HeapDecoder QosCell := do
  let keyChunkSize ← decode qkdUint32FromStream
  let maxBps ← decode qkdUint32FromStream
  let minBps ← decode qkdUint32FromStream
  let jitter ← decode qkdUint32FromStream
  let priority ← decode qkdUint32FromStream
  let timeout ← decode qkdUint32FromStream
  let ttl ← decode qkdUint32FromStream
  let metadataMimetype ← qkdMimetypeFromStream A
  pure ⟨keyChunkSize,maxBps,minBps,jitter,priority,timeout,ttl,metadataMimetype⟩

def qkdOpenConnectRequestFromStream : HeapDecoder OpenConnectRequestCell := do
  let source ← qkdUriFromStream A
  let destination ← qkdUriFromStream A
  let qos ← qkdQosFromStream A
  let keyStreamId ← keyStreamIdFromStream A
  pure ⟨source,destination,qos,keyStreamId⟩

def qkdGetKeyRequestFromStream : HeapDecoder GetKeyRequestCell := do
  let keyStreamId ← keyStreamIdFromStream A
  let index ← decode qkdUint32FromStream
  let metadata ← qkdMetadataFromStream A
  pure ⟨keyStreamId,index,metadata⟩

def qkdCloseRequestFromStream : HeapDecoder CloseRequest := do
  let keyStreamId ← keyStreamIdFromStream A
  pure ⟨keyStreamId⟩

def qkdOpenConnectResponseFromStream : HeapDecoder OpenConnectResponseCell := do
  let status ← decode qkdUint32FromStream
  let qos ← qkdQosFromStream A
  let keyStreamId ← keyStreamIdFromStream A
  pure ⟨status,qos,keyStreamId⟩

def qkdGetKeyResponseFromStream : HeapDecoder GetKeyResponseCell := do
  let status ← decode qkdUint32FromStream
  let index ← decode qkdUint32FromStream
  let keyBuffer ← qkdKeyBufferFromStream A
  let metadata ← qkdMetadataFromStream A
  pure ⟨status,index,keyBuffer,metadata⟩

/-- From the blocks `pre` the decoder `d` gets as far as `v` does on every stream. What it returns
and owns then is `post` of the decoded value. -/
def Decodes {α γ : Type} (d : HeapDecoder α) (v : Decoder UInt8 γ) (pre : Blocks Block)
    (post : γ → α → Blocks Block → Prop) : Prop :=
  ∀ stream, match v.run stream with
    | none => Exits (d.run stream) pre
    | some (c,rest) => Spec (d.run stream) pre fun x own => x.2=rest ∧ post c x.1 own

namespace Decodes
variable {α α' γ γ' : Type} {pre : Blocks Block}

lemma bind {d : HeapDecoder α} {v : Decoder UInt8 γ} {f : α → HeapDecoder α'}
    {g : γ → Decoder UInt8 γ'} {mid : γ → α → Blocks Block → Prop}
    {post : γ' → α' → Blocks Block → Prop} (h : Decodes d v pre mid)
    (hnext : ∀ c a own, mid c a own → Decodes (f a) (g c) own post) :
    Decodes (d >>= f) (v >>= g) pre post := by
  intro stream
  have hd := h stream
  have hrun : (d >>= f).run stream = d.run stream >>= fun x => (f x.1).run x.2 := rfl
  rw [hrun,StateT.run_bind]
  cases hv : v.run stream with
  | none =>
    rw [hv] at hd
    exact hd.bind
  | some x =>
    obtain ⟨c,rest⟩ := x
    rw [hv] at hd
    simp only [Option.bind_eq_bind,Option.bind_some]
    have hrest (a : α) (own : Blocks Block) (hmid : mid c a own) := hnext c a own hmid rest
    cases hg : (g c).run rest with
    | none =>
      simp only [hg] at hrest
      apply hd.bind_exits
      rintro ⟨a,p⟩ own ⟨hp,hmid⟩
      obtain rfl : p=rest := hp
      exact hrest a own hmid
    | some y =>
      simp only [hg] at hrest
      apply hd.bind
      rintro ⟨a,p⟩ own ⟨hp,hmid⟩
      obtain rfl : p=rest := hp
      exact hrest a own hmid

lemma pure {c : γ} {a : α} {post : γ → α → Blocks Block → Prop} (h : post c a pre) :
    Decodes (Pure.pure a) (Pure.pure c) pre post :=
  fun _ => Spec.pure ⟨rfl,h⟩

lemma decode (v : Decoder UInt8 γ) (pre : Blocks Block) :
    Decodes (OnHeap.decode v) v pre fun c a own => a=c ∧ own=pre := by
  intro stream
  have hrun : (OnHeap.decode v).run stream = match v.run stream with
    | none => exit
    | some x => Pure.pure x := rfl
  rw [hrun]
  cases v.run stream with
  | none => exact fun _ _ _ => rfl
  | some x => exact Spec.pure ⟨rfl,rfl,rfl⟩

/-- Nothing more is decoded after `d`. -/
lemma andThen {d : HeapDecoder α} {v : Decoder UInt8 γ} {f : α → HeapDecoder α'}
    {mid : γ → α → Blocks Block → Prop} {post : γ → α' → Blocks Block → Prop}
    (h : Decodes d v pre mid)
    (hnext : ∀ c a own, mid c a own → Decodes (f a) (Pure.pure c) own post) :
    Decodes (d >>= f) v pre post := by
  rw [← bind_pure v]
  exact h.bind hnext

/-- A program that leaves the stream alone. -/
lemma lift {prog : HeapM Block α} {c : γ} {post : γ → α → Blocks Block → Prop}
    (h : Spec prog pre (post c)) : Decodes (liftM prog) (Pure.pure c) pre post := by
  intro stream
  have hrun : (liftM prog : HeapDecoder α).run stream =
      prog >>= fun a => Pure.pure (a,stream) := rfl
  rw [hrun]
  exact h.bind fun a own hpost => Spec.pure ⟨rfl,hpost⟩

lemma lift_bind {prog : HeapM Block α} {f : α → HeapDecoder α'} {v : Decoder UInt8 γ}
    {mid : α → Blocks Block → Prop} {post : γ → α' → Blocks Block → Prop} (h : Spec prog pre mid)
    (hnext : ∀ a own, mid a own → Decodes (f a) v own post) :
    Decodes (liftM prog >>= f) v pre post := by
  have hlift : Decodes (liftM prog) (Pure.pure () : Decoder UInt8 Unit) pre fun _ => mid := lift h
  rw [← pure_bind () fun _ => v]
  exact hlift.bind fun _ => hnext

end Decodes

lemma decodes_str (pre : Blocks Block) :
    Decodes (qkdStrFromStream A) EtsiQkd004.qkdStrFromStream pre
      fun str p own => own = text p str ::ₘ pre := by
  apply (Decodes.decode _ pre).andThen
  rintro str _ _ ⟨rfl,rfl⟩
  exact Decodes.lift (Spec.malloc A _)

lemma decodes_uuid (pre : Blocks Block) :
    Decodes (qkdUuidFromStream A) EtsiQkd004.qkdUuidFromStream pre
      fun id p own => own = (p,Block.bytes id.bytes) ::ₘ pre := by
  apply (Decodes.decode _ pre).andThen
  rintro id _ _ ⟨rfl,rfl⟩
  exact Decodes.lift (Spec.malloc A _)

lemma decodes_bytes (pre : Blocks Block) :
    Decodes (qkdBytesDataFromStream A) EtsiQkd004.qkdBytesDataFromStream pre
      fun data cell own => ∃ p, cell = ⟨data.size,p⟩ ∧ own = (p,Block.bytes data.data) ::ₘ pre := by
  apply (Decodes.decode _ pre).andThen
  rintro _ data pre ⟨rfl,rfl⟩
  apply Decodes.lift_bind (Spec.malloc A _)
  rintro p _ rfl
  exact Decodes.pure ⟨p,rfl,rfl⟩

/-- The block of the identifier is gone when its field has been filled. -/
lemma decodes_keyStreamId (pre : Blocks Block) :
    Decodes (keyStreamIdFromStream A) EtsiQkd004.qkdUuidFromStream pre
      fun c a own => a=c ∧ own=pre := by
  apply (decodes_uuid A pre).andThen
  rintro id p _ rfl
  have hload : Reads (loadUuid p) ((p,Block.bytes id.bytes) ::ₘ pre) id := by
    apply (reads_bytes (Multiset.mem_cons_self _ _)).bind
    have hrun : EtsiQkd004.qkdUuidFromStream.run id.bytes = some (id,[]) := by
      have h := qkdUuid_exact.decode_encode id []
      rwa [List.append_nil] at h
    rw [hrun]
    exact Reads.pure id _
  apply Decodes.lift_bind hload
  rintro _ _ ⟨rfl,rfl⟩
  apply Decodes.lift_bind (Spec.free rfl)
  rintro _ _ rfl
  exact Decodes.pure ⟨rfl,rfl⟩

lemma decodes_qos (pre : Blocks Block) :
    Decodes (qkdQosFromStream A) EtsiQkd004.qkdQosFromStream pre
      fun qos cell own => ∃ p, cell = qosCell qos p ∧
        own = text p qos.metadataMimetype ::ₘ pre := by
  apply (Decodes.decode _ pre).bind
  rintro keyChunkSize _ pre ⟨rfl,rfl⟩
  apply (Decodes.decode _ pre).bind
  rintro maxBps _ pre ⟨rfl,rfl⟩
  apply (Decodes.decode _ pre).bind
  rintro minBps _ pre ⟨rfl,rfl⟩
  apply (Decodes.decode _ pre).bind
  rintro jitter _ pre ⟨rfl,rfl⟩
  apply (Decodes.decode _ pre).bind
  rintro priority _ pre ⟨rfl,rfl⟩
  apply (Decodes.decode _ pre).bind
  rintro timeout _ pre ⟨rfl,rfl⟩
  apply (Decodes.decode _ pre).bind
  rintro ttl _ pre ⟨rfl,rfl⟩
  apply (decodes_str A pre).bind
  rintro metadataMimetype p _ rfl
  exact Decodes.pure ⟨p,rfl,rfl⟩

lemma decodes_openConnectRequest (pre : Blocks Block) :
    Decodes (qkdOpenConnectRequestFromStream A) EtsiQkd004.qkdOpenConnectRequestFromStream pre
      fun r cell own => ∃ ps pd pm, cell = ⟨ps,pd,qosCell r.qos pm,r.keyStreamId⟩ ∧
        own = text pm r.qos.metadataMimetype ::ₘ text pd r.destination ::ₘ
          text ps r.source ::ₘ pre := by
  apply (decodes_str A pre).bind
  rintro source ps _ rfl
  apply (decodes_str A _).bind
  rintro destination pd _ rfl
  apply (decodes_qos A _).bind
  rintro qos _ _ ⟨pm,rfl,rfl⟩
  apply (decodes_keyStreamId A _).bind
  rintro keyStreamId _ _ ⟨rfl,rfl⟩
  exact Decodes.pure ⟨ps,pd,pm,rfl,rfl⟩

lemma decodes_getKeyRequest (pre : Blocks Block) :
    Decodes (qkdGetKeyRequestFromStream A) EtsiQkd004.qkdGetKeyRequestFromStream pre
      fun r cell own => ∃ p, cell = ⟨r.keyStreamId,r.index,r.metadata.size,p⟩ ∧
        own = (p,Block.bytes r.metadata.data) ::ₘ pre := by
  apply (decodes_keyStreamId A pre).bind
  rintro keyStreamId _ pre ⟨rfl,rfl⟩
  apply (Decodes.decode _ pre).bind
  rintro index _ pre ⟨rfl,rfl⟩
  apply (decodes_bytes A pre).bind
  rintro metadata _ _ ⟨p,rfl,rfl⟩
  exact Decodes.pure ⟨p,rfl,rfl⟩

lemma decodes_closeRequest (pre : Blocks Block) :
    Decodes (qkdCloseRequestFromStream A) EtsiQkd004.qkdCloseRequestFromStream pre
      fun r cell own => cell=r ∧ own=pre := by
  apply (decodes_keyStreamId A pre).bind
  rintro keyStreamId _ pre ⟨rfl,rfl⟩
  exact Decodes.pure ⟨rfl,rfl⟩

lemma decodes_openConnectResponse (pre : Blocks Block) :
    Decodes (qkdOpenConnectResponseFromStream A) EtsiQkd004.qkdOpenConnectResponseFromStream pre
      fun p cell own => ∃ pm, cell = ⟨p.status,qosCell p.qos pm,p.keyStreamId⟩ ∧
        own = text pm p.qos.metadataMimetype ::ₘ pre := by
  apply (Decodes.decode _ pre).bind
  rintro status _ pre ⟨rfl,rfl⟩
  apply (decodes_qos A pre).bind
  rintro qos _ _ ⟨pm,rfl,rfl⟩
  apply (decodes_keyStreamId A _).bind
  rintro keyStreamId _ _ ⟨rfl,rfl⟩
  exact Decodes.pure ⟨pm,rfl,rfl⟩

lemma decodes_getKeyResponse (pre : Blocks Block) :
    Decodes (qkdGetKeyResponseFromStream A) EtsiQkd004.qkdGetKeyResponseFromStream pre
      fun p cell own => ∃ pk pm,
        cell = ⟨p.status,p.index,⟨p.keyBuffer.size,pk⟩,⟨p.metadata.size,pm⟩⟩ ∧
        own = (pm,Block.bytes p.metadata.data) ::ₘ (pk,Block.bytes p.keyBuffer.data) ::ₘ pre := by
  apply (Decodes.decode _ pre).bind
  rintro status _ pre ⟨rfl,rfl⟩
  apply (Decodes.decode _ pre).bind
  rintro index _ pre ⟨rfl,rfl⟩
  apply (decodes_bytes A pre).bind
  rintro keyBuffer _ _ ⟨pk,rfl,rfl⟩
  apply (decodes_bytes A _).bind
  rintro metadata _ _ ⟨pm,rfl,rfl⟩
  exact Decodes.pure ⟨pk,pm,rfl,rfl⟩

end Streams

end EtsiQkd004.OnHeap
