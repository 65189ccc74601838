import EtsiQkd004.Server.Handlers

/-! The loops of the handlers as first-match lookups, and the complete list of what serving
one request can do. Every fact about runs of the server is drawn from that list. -/
namespace EtsiQkd004
open Registry

/-- The list of key streams. -/
abbrev Server.store {σ : Type} (s : Server σ) : List KsidInfo := s.config.ksidInfoLinkedList

lemma openSearch_of_lookup_some {source destination : CString} {l passed : List KsidInfo}
    {e : KsidInfo} (h : lookup KsidInfo.endpoints (source,destination) l = some e) :
    openSearch source destination passed l = .matched e := by
  induction l generalizing passed with
  | nil => simp [lookup] at h
  | cons node next ih =>
    unfold openSearch
    by_cases hm : node.source=source ∧ node.destination=destination
    · have he : node=e := by simpa [lookup,KsidInfo.endpoints,hm] using h
      rw [if_pos hm,he]
    · have hn : lookup KsidInfo.endpoints (source,destination) next = some e := by
        simpa [lookup,KsidInfo.endpoints,hm] using h
      have hne : next ≠ [] := by
        rintro rfl
        simp [lookup] at hn
      rw [if_neg hm,if_neg hne]
      exact ih hn

/-- Without a match the pointer is left inside the list, on its last node if there is one. -/
lemma openSearch_of_lookup_none {source destination : CString} {l : List KsidInfo}
    (h : lookup KsidInfo.endpoints (source,destination) l = none) (passed : List KsidInfo) :
    ∃ passed' node, openSearch source destination passed l = .stopped passed' node ∧
      passed' ++ node = passed ++ l ∧ (node=[] → l=[]) := by
  induction l generalizing passed with
  | nil => exact ⟨passed,[],rfl,rfl,fun _ => rfl⟩
  | cons node next ih =>
    have hm : ¬ (node.source=source ∧ node.destination=destination) := by
      intro hm
      simp [lookup,KsidInfo.endpoints,hm] at h
    have hn : lookup KsidInfo.endpoints (source,destination) next = none := by
      simpa [lookup,KsidInfo.endpoints,hm] using h
    unfold openSearch
    rw [if_neg hm]
    by_cases he : next=[]
    · rw [if_pos he]
      exact ⟨passed,node::next,rfl,rfl,by simp⟩
    · rw [if_neg he]
      obtain ⟨passed',ptr,hs,hp,hnil⟩ := ih hn (passed ++ [node])
      exact ⟨passed',ptr,hs,by simpa using hp,fun hptr => absurd (hnil hptr) he⟩

lemma linkLast_eq (new : KsidInfo) (l : List KsidInfo) : linkLast new l = l ++ [new] := by
  induction l with
  | nil => rfl
  | cons node next ih => simp [linkLast,ih]

/-- Wherever an unsuccessful search stopped, the new node ends up behind all others. -/
lemma insertKsidInfo_eq (new : KsidInfo) {passed node l : List KsidInfo}
    (hl : passed ++ node = l) (hnil : node=[] → l=[]) :
    insertKsidInfo new passed node = l ++ [new] := by
  unfold insertKsidInfo
  split_ifs with hn
  · rw [hnil hn]
    rfl
  · rw [linkLast_eq,← List.append_assoc,hl]

lemma getKeySearch_of_lookup_none {k : Uuid} {l : List KsidInfo}
    (h : lookup KsidInfo.keyStreamId k l = none) : getKeySearch k l = none := by
  induction l with
  | nil => rfl
  | cons node next ih =>
    have hk : ¬ k=node.keyStreamId := by
      rintro rfl
      simp [lookup] at h
    have hn : lookup KsidInfo.keyStreamId k next = none := by
      simpa [lookup,Ne.symm hk] using h
    simp [getKeySearch,hk,ih hn]

lemma getKeySearch_of_lookup_some {k : Uuid} {l : List KsidInfo} {e : KsidInfo}
    (h : lookup KsidInfo.keyStreamId k l = some e) :
    ∃ before behind, getKeySearch k l = some (before,e,behind) ∧ l = before ++ e::behind ∧
      k ∉ before.map KsidInfo.keyStreamId := by
  induction l with
  | nil => simp [lookup] at h
  | cons node next ih =>
    by_cases hk : k=node.keyStreamId
    · have he : node=e := by simpa [lookup,hk] using h
      exact ⟨[],next,by simp [getKeySearch,hk,he],by simp [he],by simp⟩
    · have hn : lookup KsidInfo.keyStreamId k next = some e := by
        simpa [lookup,Ne.symm hk] using h
      obtain ⟨before,behind,hs,hl,hb⟩ := ih hn
      exact ⟨node::before,behind,by simp [getKeySearch,hk,hs],by simp [hl],by simp [hk,hb]⟩

/-- The node registered for an OPEN_CONNECT request that finds none. -/
def registration (r : OpenConnectRequest) (env : Env) : KsidInfo :=
  ⟨env.uuid,r.qos,r.source,r.destination,0⟩

/-- The node after one more key has been taken from its stream. -/
def KsidInfo.counted (e : KsidInfo) : KsidInfo := { e with currentIndex := e.currentIndex+1 }

@[simp] theorem KsidInfo.counted_stream (e : KsidInfo) : e.counted.stream = e.stream := rfl

variable {σ : Type} (libc : Prng σ)

/-- The key a GET_KEY request gets from the stream `e`. -/
def keyFor (e : KsidInfo) (r : GetKeyRequest) (env : Env) (prng : σ) : QkdBytes :=
  (keyData libc e r.index (metadataByte r.metadata env.beyondMetadata 0)
    (metadataByte r.metadata env.beyondMetadata 1) env.allocated prng).1

/-- The bytes both generators draw for a key of the stream `e`. -/
def drawnKey (e : KsidInfo) (index : UInt32) : Bytes :=
  (randBytes libc e.qos.keyChunkSize.toNat (libc.srand (keySeed e.source e.destination index))).1

@[simp] theorem drawnKey_length (e : KsidInfo) (index : UInt32) :
    (drawnKey libc e index).length = e.qos.keyChunkSize.toNat := randBytes_length libc _ _

/-- A byte of the metadata that was received. -/
lemma metadataByte_of_getElem? {metadata : QkdBytes} {i : ℕ} {b : UInt8}
    (h : metadata.data[i]? = some b) (beyond : ℕ → UInt8) : metadataByte metadata beyond i = b := by
  rw [metadataByte,List.getD_eq_getElem?_getD,h,Option.getD_some]

/-- Only an oblivious key for anyone but the sender is masked. -/
lemma keyFor_data (e : KsidInfo) (r : GetKeyRequest) (env : Env) (prng : σ) :
    (keyFor libc e r env prng).data =
      if env.allocated then
        if metadataByte r.metadata env.beyondMetadata 0 = QkdKeyInfoType.symmetric.code ∨
          metadataByte r.metadata env.beyondMetadata 1 = 16
        then drawnKey libc e r.index else (drawnKey libc e r.index).mapIdx obliviousMask
      else [] := by
  have hlt : (drawnKey libc e r.index).length < 2^32 := by
    rw [drawnKey_length]
    exact e.qos.keyChunkSize.toNat_lt
  have hplain : (QkdBytes.ofBuffer (drawnKey libc e r.index)).data = drawnKey libc e r.index :=
    QkdBytes.ofBuffer_data hlt
  have hmasked : (QkdBytes.ofBuffer ((drawnKey libc e r.index).mapIdx obliviousMask)).data =
      (drawnKey libc e r.index).mapIdx obliviousMask :=
    QkdBytes.ofBuffer_data (by rwa [List.length_mapIdx])
  unfold drawnKey at hplain hmasked ⊢
  simp only [keyFor,keyData,genPseudorandomKey,genObliviousPseudorandomKey]
  cases env.allocated with
  | false => by_cases h0 : metadataByte r.metadata env.beyondMetadata 0 =
      QkdKeyInfoType.symmetric.code <;> simp [h0,QkdBytes.empty]
  | true =>
    by_cases h0 : metadataByte r.metadata env.beyondMetadata 0 = QkdKeyInfoType.symmetric.code
    · simpa [h0] using hplain
    · by_cases h1 : metadataByte r.metadata env.beyondMetadata 1 = 16
      · simpa [h0,h1] using hplain
      · simpa [h0,h1] using hmasked

/-- The number of bytes of a key of the stream `e`. -/
def keySize (e : KsidInfo) (env : Env) : ℕ :=
  if env.allocated then e.qos.keyChunkSize.toNat else 0

lemma keyFor_length (e : KsidInfo) (r : GetKeyRequest) (env : Env) (prng : σ) :
    (keyFor libc e r env prng).data.length = keySize e env := by
  rw [keyFor_data,keySize]
  split_ifs <;> simp

/-- Everything serving one request can do: the request and its surroundings, the response,
and the list of key streams before and after. -/
inductive Served (s : Server σ) : Request × Env → Response → List KsidInfo → Prop
  | found {r env e} (nil : r.keyStreamId=Uuid.nil)
      (hit : lookup KsidInfo.endpoints (r.source,r.destination) s.store = some e) :
      Served s (.openConnect r,env)
        (.openConnect ⟨QkdStatusCode.successful.code,r.qos,e.keyStreamId⟩) s.store
  | minted {r env} (nil : r.keyStreamId=Uuid.nil)
      (miss : lookup KsidInfo.endpoints (r.source,r.destination) s.store = none) :
      Served s (.openConnect r,env)
        (.openConnect ⟨QkdStatusCode.successful.code,r.qos,env.uuid⟩)
        (s.store ++ [registration r env])
  | supplied {r env} (nonnil : r.keyStreamId≠Uuid.nil) :
      Served s (.openConnect r,env)
        (.openConnect ⟨QkdStatusCode.successful.code,r.qos,r.keyStreamId⟩) s.store
  | delivered {r env e before behind}
      (hit : lookup KsidInfo.keyStreamId r.keyStreamId s.store = some e)
      (split : s.store = before ++ e::behind) :
      Served s (.getKey r,env)
        (.getKey ⟨QkdStatusCode.successful.code,r.index,keyFor libc e r env s.prng,
          deviceMetadata s.config⟩) (before ++ e.counted::behind)
  | notConnected {r env} (miss : lookup KsidInfo.keyStreamId r.keyStreamId s.store = none) :
      Served s (.getKey r,env)
        (.getKey ⟨QkdStatusCode.gkPeerNotConnected.code,r.index,QkdBytes.empty,r.metadata⟩) s.store
  | closed {r env} :
      Served s (.close r,env) (.close ⟨QkdStatusCode.successful.code⟩) s.store

section Equations
variable {s : Server σ} {env : Env}

lemma serve_found {r : OpenConnectRequest} {e : KsidInfo} (hnil : r.keyStreamId=Uuid.nil)
    (hl : lookup KsidInfo.endpoints (r.source,r.destination) s.store = some e) :
    serve libc s (.openConnect r,env) =
      (.openConnect ⟨QkdStatusCode.successful.code,r.qos,e.keyStreamId⟩,
        { s with prng := libc.srand env.time }) := by
  simp [serve,qkdOpenConnectStruct,serverCalls,StateT.run,hnil,openSearch_of_lookup_some hl]

lemma serve_minted {r : OpenConnectRequest} (hnil : r.keyStreamId=Uuid.nil)
    (hl : lookup KsidInfo.endpoints (r.source,r.destination) s.store = none) :
    serve libc s (.openConnect r,env) =
      (.openConnect ⟨QkdStatusCode.successful.code,r.qos,env.uuid⟩,
        { s with config.ksidInfoLinkedList := s.store ++ [registration r env],
                 prng := libc.srand env.time }) := by
  obtain ⟨passed,node,hsearch,hp,hn⟩ := openSearch_of_lookup_none hl []
  have hi := insertKsidInfo_eq (registration r env) hp hn
  rw [List.nil_append] at hi
  rw [← hi]
  simp [serve,qkdOpenConnectStruct,serverCalls,StateT.run,hnil,hsearch,registration,
    qkdCopyUri,qkdCopyStr]

lemma serve_supplied {r : OpenConnectRequest} (hnil : r.keyStreamId≠Uuid.nil) :
    serve libc s (.openConnect r,env) =
      (.openConnect ⟨QkdStatusCode.successful.code,r.qos,r.keyStreamId⟩,
        { s with prng := libc.srand env.time }) := by
  simp [serve,qkdOpenConnectStruct,serverCalls,StateT.run,hnil]

/-- Every OPEN_CONNECT is answered with success and the QoS it asked for. -/
lemma serve_openConnect (s : Server σ) (r : OpenConnectRequest) (env : Env) :
    ∃ k, (serve libc s (.openConnect r,env)).1 =
      .openConnect ⟨QkdStatusCode.successful.code,r.qos,k⟩ := by
  by_cases hnil : r.keyStreamId=Uuid.nil
  · cases hl : lookup KsidInfo.endpoints (r.source,r.destination) s.store with
    | some e => exact ⟨e.keyStreamId,by rw [serve_found libc hnil hl]⟩
    | none => exact ⟨env.uuid,by rw [serve_minted libc hnil hl]⟩
  · exact ⟨r.keyStreamId,by rw [serve_supplied libc hnil]⟩

lemma serve_notConnected {r : GetKeyRequest}
    (hl : lookup KsidInfo.keyStreamId r.keyStreamId s.store = none) :
    serve libc s (.getKey r,env) =
      (.getKey ⟨QkdStatusCode.gkPeerNotConnected.code,r.index,QkdBytes.empty,r.metadata⟩,s) := by
  simp [serve,qkdGetKeyStruct,serverCalls,StateT.run,getKeySearch_of_lookup_none hl]

/-- The response of a delivery; the state is left to `serve_served`. -/
lemma serve_delivered {r : GetKeyRequest} {e : KsidInfo}
    (hl : lookup KsidInfo.keyStreamId r.keyStreamId s.store = some e) :
    (serve libc s (.getKey r,env)).1 =
      .getKey ⟨QkdStatusCode.successful.code,r.index,keyFor libc e r env s.prng,
        deviceMetadata s.config⟩ := by
  obtain ⟨before,behind,hsearch,-,-⟩ := getKeySearch_of_lookup_some hl
  simp only [serve,qkdGetKeyStruct,serverCalls,StateT.run,hsearch]
  rfl

end Equations

theorem serve_served (s : Server σ) (i : Request × Env) :
    Served libc s i (serve libc s i).1 (serve libc s i).2.store := by
  obtain ⟨r,env⟩ := i
  cases r with
  | openConnect r =>
    by_cases hnil : r.keyStreamId=Uuid.nil
    · cases hl : lookup KsidInfo.endpoints (r.source,r.destination) s.store with
      | some e =>
        rw [serve_found libc hnil hl]
        exact .found hnil hl
      | none =>
        rw [serve_minted libc hnil hl]
        exact .minted hnil hl
    · rw [serve_supplied libc hnil]
      exact .supplied hnil
  | getKey r =>
    cases hl : lookup KsidInfo.keyStreamId r.keyStreamId s.store with
    | none =>
      rw [serve_notConnected libc hl]
      exact .notConnected hl
    | some e =>
      obtain ⟨before,behind,hsearch,hsplit,-⟩ := getKeySearch_of_lookup_some hl
      simp only [serve,qkdGetKeyStruct,serverCalls,StateT.run,hsearch]
      exact .delivered hl hsplit
  | close r => exact .closed

end EtsiQkd004
