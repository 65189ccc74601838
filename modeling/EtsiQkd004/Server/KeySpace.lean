import EtsiQkd004.Server.Sessions

/-! The keys of different streams. A stream enters the seed of its keys only by one number, which
the index is added to bit by bit, so that the keys of all streams are the same but for a shift of
their indices. -/
namespace EtsiQkd004
open Registry

/-- What the seeds of a stream have in common. -/
def KsidInfo.offset (e : KsidInfo) : UInt32 := simpleHash e.source ^^^ simpleHash e.destination

/-- The index under which the stream `e'` has the key that `e` has under `index`. -/
def indexIn (e e' : KsidInfo) (index : UInt32) : UInt32 := e'.offset ^^^ (e.offset ^^^ index)

lemma keySeed_eq (e : KsidInfo) (index : UInt32) :
    keySeed e.source e.destination index = e.offset ^^^ index := by
  rw [keySeed,UInt32.zero_xor,KsidInfo.offset]

/-- No other index gives the same seed. -/
lemma keySeed_eq_iff (e e' : KsidInfo) (index index' : UInt32) :
    keySeed e'.source e'.destination index' = keySeed e.source e.destination index ↔
      index' = indexIn e e' index := by
  rw [keySeed_eq,keySeed_eq,indexIn]
  constructor
  · intro h
    rw [← h,← UInt32.xor_assoc,UInt32.xor_self,UInt32.zero_xor]
  · rintro rfl
    rw [← UInt32.xor_assoc,UInt32.xor_self,UInt32.zero_xor]

variable {σ : Type} (libc : Prng σ)

lemma drawnKey_data (e : KsidInfo) (index : UInt32) :
    (QkdBytes.ofBuffer (drawnKey libc e index)).data = drawnKey libc e index := by
  apply QkdBytes.ofBuffer_data
  rw [drawnKey_length]
  exact e.qos.keyChunkSize.toNat_lt

/-- A stream that is registered delivers the same symmetric keys ever after. -/
lemma serve_symmetric_after {s : Server σ} {e : KsidInfo} {r : GetKeyRequest}
    (he : lookup KsidInfo.keyStreamId r.keyStreamId s.store = some e)
    (htype : r.metadata.data[0]? = some QkdKeyInfoType.symmetric.code) {env : Env}
    (halloc : env.allocated=true) (run : List (Request × Env)) :
    (serve libc ((server libc).after s run) (.getKey r,env)).1 =
      .getKey ⟨QkdStatusCode.successful.code,r.index,QkdBytes.ofBuffer (drawnKey libc e r.index),
        deviceMetadata s.config⟩ := by
  obtain ⟨e',he',hs⟩ := lookup_after libc he run
  have hkey : keyFor libc e' r env ((server libc).after s run).prng =
      QkdBytes.ofBuffer (drawnKey libc e r.index) := by
    apply QkdBytes.eq_of_data
    rw [keyFor_data_of_stream libc hs,keyFor_symmetric libc htype halloc,drawnKey_data]
  rw [serve_delivered libc he',after_device,hkey]

/-- Of one length, the shifted index gives the same key. -/
lemma drawnKey_indexIn (e e' : KsidInfo) (index : UInt32) {n : ℕ}
    (hn : n ≤ e.qos.keyChunkSize.toNat) (hn' : n ≤ e'.qos.keyChunkSize.toNat) :
    (drawnKey libc e' (indexIn e e' index)).take n = (drawnKey libc e index).take n := by
  have hseed := (keySeed_eq_iff e e' index _).mpr rfl
  rw [drawnKey,drawnKey,hseed,randBytes_take libc hn,randBytes_take libc hn']

/-- The streams are not apart from each other: every symmetric key of a stream is also delivered,
up to the shorter key, to whoever asks any other stream for it, under the shifted index, where there
is memory for both keys. Neither delivery depends on what else is served before. -/
theorem key_in_other_stream {s : Server σ} {r r' : GetKeyRequest} {e e' : KsidInfo}
    (he : lookup KsidInfo.keyStreamId r.keyStreamId s.store = some e)
    (he' : lookup KsidInfo.keyStreamId r'.keyStreamId s.store = some e')
    (hindex : r'.index = indexIn e e' r.index)
    (htype : r.metadata.data[0]? = some QkdKeyInfoType.symmetric.code)
    (htype' : r'.metadata.data[0]? = some QkdKeyInfoType.symmetric.code) {env env' : Env}
    (halloc : env.allocated=true) (halloc' : env'.allocated=true) (run run' : List (Request × Env)) :
    ∃ p p' : GetKeyResponse,
      (serve libc ((server libc).after s run) (.getKey r,env)).1 = .getKey p ∧
      (serve libc ((server libc).after s run') (.getKey r',env')).1 = .getKey p' ∧
      p.status=QkdStatusCode.successful.code ∧ p'.status=QkdStatusCode.successful.code ∧
      p.keyBuffer.data.length = e.qos.keyChunkSize.toNat ∧
      p'.keyBuffer.data.length = e'.qos.keyChunkSize.toNat ∧
      let n := min e.qos.keyChunkSize.toNat e'.qos.keyChunkSize.toNat
      p'.keyBuffer.data.take n = p.keyBuffer.data.take n := by
  refine ⟨_,_,serve_symmetric_after libc he htype halloc run,
    serve_symmetric_after libc he' htype' halloc' run',rfl,rfl,?_,?_,?_⟩
  · rw [drawnKey_data,drawnKey_length]
  · rw [drawnKey_data,drawnKey_length]
  · simp only [drawnKey_data,hindex]
    exact drawnKey_indexIn libc e e' r.index (Nat.min_le_left _ _) (Nat.min_le_right _ _)

/-- Key 7 between two nodes is key 4 of a node with itself. -/
theorem key_in_other_stream_nodes :
    let s := (server ansiPrng).after (Server.start 32768 (49/100) 1)
      [(askStream nodeA nodeB 3,yields 1),(askStream nodeB nodeB 2,yields 4)]
    ∃ p p' : GetKeyResponse,
      (serve ansiPrng s (.getKey (askKey (Uuid.fill 1) 7),yields 5)).1 = .getKey p ∧
      (serve ansiPrng s (.getKey (askKey (Uuid.fill 4) 4),yields 6)).1 = .getKey p' ∧
      p'.keyBuffer.data.take 2 = p.keyBuffer.data.take 2 := by
  intro s
  let mimetype : CString := ⟨[97],by decide⟩
  let e : KsidInfo := ⟨Uuid.fill 1,⟨3,32,32,0,0,0,0,mimetype⟩,nodeA,nodeB,0⟩
  let e' : KsidInfo := ⟨Uuid.fill 4,⟨2,32,32,0,0,0,0,mimetype⟩,nodeB,nodeB,0⟩
  have he : lookup KsidInfo.keyStreamId (askKey (Uuid.fill 1) 7).keyStreamId s.store = some e := by
    decide +kernel
  have he' : lookup KsidInfo.keyStreamId (askKey (Uuid.fill 4) 4).keyStreamId s.store =
      some e' := by decide +kernel
  have hindex : (askKey (Uuid.fill 4) 4).index = indexIn e e' (askKey (Uuid.fill 1) 7).index := by
    decide +kernel
  have halloc : (yields 5).allocated=true := rfl
  have halloc' : (yields 6).allocated=true := rfl
  obtain ⟨p,p',hp,hp',-,-,-,-,hsame⟩ := key_in_other_stream ansiPrng he he' hindex rfl rfl halloc
    halloc' [] []
  exact ⟨p,p',hp,hp',hsame⟩

end EtsiQkd004
