import EtsiQkd004.Server.Determinism

/-! What a GET_KEY must have received for the memory behind it to have no part in the answer:
its metadata choose the generator of the key, and are sent back when the stream is unknown. -/
namespace EtsiQkd004
open WireCodec Registry
variable {σ : Type} (libc : Prng σ)

/-- The stream is registered, but no answer with one of its keys can be sent. -/
def Unanswerable (s : Server σ) (env : Env) (k : Uuid) : Prop :=
  ∃ e, lookup KsidInfo.keyStreamId k s.store = some e ∧
    2^31 ≤ 24 + keySize e env + (deviceMetadata s.config).data.length

/-- The metadata received behind the index decide which generator makes the key of the stream
`e`, or it makes no difference to the key. -/
def KeyCovered (e : KsidInfo) (env : Env) (index : UInt32) (rest : Bytes) : Prop :=
  (∃ size behind, rest = qkdUint32ToStream size ++ behind ∧
    (2 ≤ (behind.take size.toNat).length ∨
      (behind.take size.toNat).head? = some QkdKeyInfoType.symmetric.code)) ∨
  (env.allocated=true → (drawnKey libc e index).mapIdx obliviousMask = drawnKey libc e index)

/-- Every stream the request may name is unanswerable; or the identifier and the index have
been received and what follows them leaves nothing open. -/
def GetKeyCovered (s : Server σ) (env : Env) (payload : Bytes) : Prop :=
  (∀ k : Uuid, payload.take 16 <+: k.bytes → Unanswerable s env k) ∨
  ∃ k index rest, payload = qkdUuidToStream k ++ (qkdUint32ToStream index ++ rest) ∧
    match lookup KsidInfo.keyStreamId k s.store with
    | none => EchoCovered rest
    | some e => KeyCovered libc e env index rest

section Reading

/-- The first bytes of what is read are the first bytes received. -/
lemma take_prefix_of_read {n : ℕ} {payload tail word behind : Bytes} (hword : word.length=n)
    (h : payload ++ tail = word ++ behind) : payload.take n <+: word := by
  have ht := congrArg (List.take n) h
  rw [List.take_left' hword] at ht
  rw [← ht]
  exact List.prefix_take_iff.mpr
    ⟨(List.take_prefix _ _).trans (List.prefix_append _ _),List.length_take_le _ _⟩

/-- What can be read from a payload with identifier and index. -/
lemma readable_getKey {k : Uuid} {index : UInt32} {rest : Bytes} {r : GetKeyRequest}
    (h : Readable (qkdUuidToStream k ++ (qkdUint32ToStream index ++ rest)) (.getKey r)) :
    r.keyStreamId=k ∧ r.index=index ∧
      ∃ tail behind, rest ++ tail = qkdMetadataToStream r.metadata ++ behind := by
  obtain ⟨tail,behind,-,h⟩ := h
  simp only [Request.toStream,qkdGetKeyRequestToStream,List.append_assoc] at h
  obtain ⟨hk,h⟩ := qkdUuid_exact.append_inj h
  obtain ⟨hindex,h⟩ := qkdUint32_exact.append_inj h
  exact ⟨hk.symm,hindex.symm,tail,behind,h⟩

/-- The received part of the metadata is where the decoder puts it. -/
lemma received_part {size : UInt32} {behind tail after : Bytes} {metadata : QkdBytes}
    (h : qkdUint32ToStream size ++ behind ++ tail = qkdMetadataToStream metadata ++ after) :
    metadata.size=size ∧ behind.take size.toNat <+: metadata.data := by
  rw [qkdMetadataToStream,qkdBytesDataToStream,List.append_assoc,List.append_assoc] at h
  obtain ⟨rfl,hdata⟩ := qkdUint32_exact.append_inj h
  exact ⟨rfl,take_prefix_of_read metadata.size_eq hdata⟩

lemma metadataByte_received {m : Bytes} {metadata : QkdBytes} (h : m <+: metadata.data)
    {i : ℕ} {b : UInt8} (hb : m[i]? = some b) (beyond : ℕ → UInt8) :
    metadataByte metadata beyond i = b := by
  apply metadataByte_of_getElem?
  obtain ⟨t,ht⟩ := h
  rw [← ht,List.getElem?_append_left (List.getElem?_eq_some_iff.mp hb).1,hb]

/-- Over a padding with `b`, inside and behind the metadata, what was not received is `b`. -/
lemma metadataByte_of_padding {rest behind : Bytes} {metadata : QkdBytes} {n : ℕ}
    {b : UInt8} (h : rest ++ List.replicate n b = qkdMetadataToStream metadata ++ behind) (i : ℕ) :
    metadataByte metadata (fun _ => b) i =
      (((rest.drop 4).take metadata.size.toNat)[i]?).getD b := by
  have hdrop := congrArg (List.drop 4) h
  rw [qkdMetadataToStream,qkdBytesDataToStream,List.append_assoc,
    List.drop_left' (qkdUint32ToStream_length _)] at hdrop
  rw [metadataByte,List.getD_eq_getElem?_getD,List.getElem?_take,← metadata.size_eq]
  split_ifs with hi
  · have hget : metadata.data[i]? = (rest ++ List.replicate n b)[4+i]? := by
      rw [← List.getElem?_drop,hdrop,List.getElem?_append_left hi]
    rw [List.getElem?_drop,hget]
    by_cases hr : 4+i < rest.length
    · rw [List.getElem?_append_left hr,List.getElem?_eq_getElem hr,Option.getD_some]
    · rw [List.getElem?_append_right (not_lt.mp hr),List.getElem?_replicate,
        List.getElem?_eq_none (not_lt.mp hr)]
      split_ifs with hb
      · rfl
      · rfl
  · rw [List.getElem?_eq_none (not_lt.mp hi),Option.getD_none]

end Reading

section Answers

/-- A GET_KEY whose stream can be answered for, and whose metadata can be echoed, is answered. -/
lemma getKey_framed [OpenSsl] {s : Server σ} {env : Env} {r : GetKeyRequest}
    (hk : ¬ Unanswerable s env r.keyStreamId) (hm : 24 + r.metadata.data.length < 2^31) :
    ∃ p f, (serve libc s (.getKey r,env)).1 = .getKey p ∧ p.index=r.index ∧
      framed (.getKey p) = some f ∧
      (lookup KsidInfo.keyStreamId r.keyStreamId s.store = none → p.metadata=r.metadata) := by
  cases hl : lookup KsidInfo.keyStreamId r.keyStreamId s.store with
  | none =>
    obtain ⟨f,hf⟩ := framed_getKey_isSome (p := ⟨QkdStatusCode.gkPeerNotConnected.code,r.index,
      QkdBytes.empty,r.metadata⟩) hm
    exact ⟨_,f,by rw [serve_notConnected libc hl],rfl,hf,fun _ => rfl⟩
  | some e =>
    have hlen : 24 + (keyFor libc e r env s.prng).data.length +
        (deviceMetadata s.config).data.length < 2^31 := by
      rw [keyFor_length]
      by_contra hn
      exact hk ⟨e,hl,not_lt.mp hn⟩
    obtain ⟨f,hf⟩ := framed_getKey_isSome (p := ⟨QkdStatusCode.successful.code,r.index,
      keyFor libc e r env s.prng,deviceMetadata s.config⟩) hlen
    exact ⟨_,f,serve_delivered libc hl,rfl,hf,fun h => nomatch h⟩

end Answers

section Covered
variable {s : Server σ} {env : Env}

/-- The two answers of a stream that is found differ at most in their keys. -/
lemma keyFor_eq_of_covered {e : KsidInfo} {index : UInt32} {rest : Bytes}
    (h : KeyCovered libc e env index rest) {r₁ r₂ : GetKeyRequest} (h₁ : r₁.index=index)
    (h₂ : r₂.index=index) {tail₁ tail₂ behind₁ behind₂ : Bytes}
    (hr₁ : rest ++ tail₁ = qkdMetadataToStream r₁.metadata ++ behind₁)
    (hr₂ : rest ++ tail₂ = qkdMetadataToStream r₂.metadata ++ behind₂)
    (beyond₁ beyond₂ : ℕ → UInt8) (prng : σ) :
    keyFor libc e r₁ (env.withBeyond beyond₁) prng = keyFor libc e r₂ (env.withBeyond beyond₂) prng := by
  apply QkdBytes.eq_of_data
  rw [keyFor_data,keyFor_data,h₁,h₂]
  simp only [Env.withBeyond]
  rcases h with ⟨size,behind,rfl,hm⟩ | hmask
  · obtain ⟨-,hp₁⟩ := received_part hr₁
    obtain ⟨-,hp₂⟩ := received_part hr₂
    rcases hm with hm | hm
    · obtain ⟨b₀,hb₀⟩ : ∃ b, (behind.take size.toNat)[0]? = some b :=
        ⟨_,List.getElem?_eq_getElem (by omega)⟩
      obtain ⟨b₁,hb₁⟩ : ∃ b, (behind.take size.toNat)[1]? = some b :=
        ⟨_,List.getElem?_eq_getElem (by omega)⟩
      simp only [metadataByte_received hp₁ hb₀,metadataByte_received hp₁ hb₁,
        metadataByte_received hp₂ hb₀,metadataByte_received hp₂ hb₁]
    · rw [List.head?_eq_getElem?] at hm
      simp only [metadataByte_received hp₁ hm,metadataByte_received hp₂ hm,true_or]
  · by_cases ha : env.allocated=true
    · simp only [hmask ha,ite_self]
    · simp [ha]

/-- An unknown stream is answered with the metadata, which have been received or are too large. -/
lemma echo_determined [OpenSsl] {k : Uuid} {index : UInt32} {rest : Bytes}
    (hl : lookup KsidInfo.keyStreamId k s.store = none) (h : EchoCovered rest)
    {r₁ r₂ : GetKeyRequest}
    (h₁ : Readable (qkdUuidToStream k ++ (qkdUint32ToStream index ++ rest)) (.getKey r₁))
    (h₂ : Readable (qkdUuidToStream k ++ (qkdUint32ToStream index ++ rest)) (.getKey r₂))
    {env₁ env₂ : Env} : framed (serve libc s (.getKey r₁,env₁)).1 =
      framed (serve libc s (.getKey r₂,env₂)).1 := by
  rcases h with ⟨metadata,behind,rfl⟩ | hsize
  · obtain ⟨hk₁,hi₁,tail₁,behind₁,hr₁⟩ := readable_getKey h₁
    obtain ⟨hk₂,hi₂,tail₂,behind₂,hr₂⟩ := readable_getKey h₂
    rw [List.append_assoc] at hr₁ hr₂
    obtain ⟨hm₁,-⟩ := qkdBytesData_exact.append_inj hr₁
    obtain ⟨hm₂,-⟩ := qkdBytesData_exact.append_inj hr₂
    rw [serve_notConnected libc (hk₁ ▸ hl),serve_notConnected libc (hk₂ ▸ hl),hi₁,hi₂,← hm₁,← hm₂]
  · have hnone (r : GetKeyRequest) (env : Env)
        (hr : Readable (qkdUuidToStream k ++ (qkdUint32ToStream index ++ rest)) (.getKey r)) :
        framed (serve libc s (.getKey r,env)).1 = none := by
      obtain ⟨hk,-,tail,behind,hr⟩ := readable_getKey hr
      rw [qkdMetadataToStream,qkdBytesDataToStream,List.append_assoc] at hr
      have hlen := hsize _ (take_prefix_of_read (qkdUint32ToStream_length _) hr)
      rw [← r.metadata.size_eq] at hlen
      rw [serve_notConnected libc (hk ▸ hl)]
      apply framed_none
      rw [Response.toStream,qkdGetKeyResponseToStream_length]
      simp only
      omega
    rw [hnone r₁ env₁ h₁,hnone r₂ env₂ h₂]

/-- No key of an unanswerable stream leaves in a frame. -/
lemma framed_none_of_unanswerable [OpenSsl] {r : GetKeyRequest} (h : Unanswerable s env r.keyStreamId)
    (beyond : ℕ → UInt8) :
    framed (serve libc s (.getKey r,env.withBeyond beyond)).1 = none := by
  obtain ⟨e,hl,hlen⟩ := h
  rw [serve_delivered libc hl]
  apply framed_none
  rw [Response.toStream,qkdGetKeyResponseToStream_length,keyFor_length]
  change 2^31 ≤ 8 + (16 + keySize e env + (deviceMetadata s.config).data.length)
  omega

lemma getKey_determined [OpenSsl] {payload : Bytes} (h : GetKeyCovered libc s env payload)
    (r₁ r₂ : GetKeyRequest) (h₁ : Readable payload (.getKey r₁))
    (h₂ : Readable payload (.getKey r₂)) (beyond₁ beyond₂ : ℕ → UInt8) :
    framed (serve libc s (.getKey r₁,env.withBeyond beyond₁)).1 =
      framed (serve libc s (.getKey r₂,env.withBeyond beyond₂)).1 := by
  rcases h with hall | ⟨k,index,rest,rfl,h⟩
  · have hnone (r : GetKeyRequest) (hr : Readable payload (.getKey r)) (beyond : ℕ → UInt8) :
        framed (serve libc s (.getKey r,env.withBeyond beyond)).1 = none := by
      obtain ⟨tail,behind,-,hr⟩ := hr
      simp only [Request.toStream,qkdGetKeyRequestToStream,List.append_assoc] at hr
      apply framed_none_of_unanswerable
      exact hall _ (take_prefix_of_read r.keyStreamId.length_eq hr)
    rw [hnone r₁ h₁,hnone r₂ h₂]
  · cases hl : lookup KsidInfo.keyStreamId k s.store with
    | none =>
      rw [hl] at h
      exact echo_determined libc hl h h₁ h₂
    | some e =>
      rw [hl] at h
      obtain ⟨hk₁,hi₁,tail₁,behind₁,hr₁⟩ := readable_getKey h₁
      obtain ⟨hk₂,hi₂,tail₂,behind₂,hr₂⟩ := readable_getKey h₂
      rw [serve_delivered libc (hk₁ ▸ hl),serve_delivered libc (hk₂ ▸ hl),hi₁,hi₂,
        keyFor_eq_of_covered libc h hi₁ hi₂ hr₁ hr₂ beyond₁ beyond₂]

end Covered

section Open
variable {payload : Bytes}

lemma prefix_append_of_take_drop {n : ℕ} {x y : Bytes} (hx : x.length=n)
    (ht : payload.take n <+: x) (hd : payload.drop n <+: y) : payload <+: x ++ y := by
  by_cases hn : n ≤ payload.length
  · have he : payload.take n = x := by
      apply ht.eq_of_length
      rw [List.length_take,hx]
      omega
    rw [← List.take_append_drop n payload,he]
    exact List.prefix_append_right_inj _ |>.mpr hd
  · rw [List.take_of_length_le (by omega)] at ht
    exact ht.trans (List.prefix_append _ _)

lemma getKey_readable {r : GetKeyRequest} (h : payload <+: qkdGetKeyRequestToStream r) :
    Readable payload (.getKey r) := by
  apply readable_of_extends h
  have hm := r.metadata.length_lt
  rw [Request.toStream,qkdGetKeyRequestToStream_length]
  omega

/-- Metadata of which too little was received to choose the generator. -/
lemma undecided_part {rest tail behind : Bytes} {metadata : QkdBytes}
    (he : rest ++ tail = qkdMetadataToStream metadata ++ behind)
    (hrest : ¬ ∃ size behind, rest = qkdUint32ToStream size ++ behind ∧
      (2 ≤ (behind.take size.toNat).length ∨
        (behind.take size.toNat).head? = some QkdKeyInfoType.symmetric.code)) :
    ((rest.drop 4).take metadata.size.toNat).length < 2 ∧
      ((rest.drop 4).take metadata.size.toNat)[0]? ≠ some QkdKeyInfoType.symmetric.code := by
  by_cases hlen : rest.length < 4
  · rw [List.drop_eq_nil_of_le (by omega),List.take_nil]
    exact ⟨by decide,by simp⟩
  · have hword : rest.take 4 = qkdUint32ToStream metadata.size := by
      rw [qkdMetadataToStream,qkdBytesDataToStream,List.append_assoc] at he
      apply (take_prefix_of_read (qkdUint32ToStream_length _) he).eq_of_length
      rw [List.length_take,qkdUint32ToStream_length]
      omega
    rw [not_exists] at hrest
    have hnot := not_exists.mp (hrest metadata.size) (rest.drop 4)
    rw [← hword,List.take_append_drop,not_and,not_or,List.head?_eq_getElem?] at hnot
    obtain ⟨h2,h0⟩ := hnot rfl
    exact ⟨not_le.mp h2,h0⟩

/-- A padding with `b` is what the metadata bytes that were not received are read as. -/
lemma exists_padded_request {k : Uuid} {index : UInt32} {rest : Bytes}
    (hp : payload = qkdUuidToStream k ++ (qkdUint32ToStream index ++ rest))
    (hrest : ¬ ∃ size behind, rest = qkdUint32ToStream size ++ behind ∧
      (2 ≤ (behind.take size.toNat).length ∨
        (behind.take size.toNat).head? = some QkdKeyInfoType.symmetric.code)) {b : UInt8}
    (hb : b ≠ QkdKeyInfoType.symmetric.code) :
    ∃ r : GetKeyRequest, Readable payload (.getKey r) ∧ r.keyStreamId=k ∧ r.index=index ∧
      metadataByte r.metadata (fun _ => b) 0 ≠ QkdKeyInfoType.symmetric.code ∧
      metadataByte r.metadata (fun _ => b) 1 = b := by
  obtain ⟨n,hn,hsated⟩ := qkdGetKeyRequest_sated b
  obtain ⟨r,behind,hr⟩ := hsated payload
  have he := (qkdGetKeyRequest_exact _ _ _).mp hr
  have hread : Readable payload (.getKey r) := ⟨_,behind,by rw [List.length_replicate]; exact hn,he⟩
  rw [hp] at he
  simp only [qkdGetKeyRequestToStream,List.append_assoc] at he
  obtain ⟨hk,he⟩ := qkdUuid_exact.append_inj he
  obtain ⟨hi,he⟩ := qkdUint32_exact.append_inj he
  obtain ⟨hlen,hzero⟩ := undecided_part he hrest
  refine ⟨r,hread,hk.symm,hi.symm,?_,?_⟩
  · rw [metadataByte_of_padding he]
    cases h0 : ((rest.drop 4).take r.metadata.size.toNat)[0]? with
    | none => exact hb
    | some x =>
      intro hx
      exact hzero (by rw [h0]; exact congrArg some hx)
  · rw [metadataByte_of_padding he,List.getElem?_eq_none (by omega)]
    rfl

variable [OpenSsl] {s : Server σ} {env : Env}
  (h : ∀ r₁ r₂, Readable payload (.getKey r₁) → Readable payload (.getKey r₂) →
    ∀ beyond₁ beyond₂, framed (serve libc s (.getKey r₁,env.withBeyond beyond₁)).1 =
      framed (serve libc s (.getKey r₂,env.withBeyond beyond₂)).1)
include h

/-- Requests that can be read are answered alike, if one of them is answered. -/
lemma answers_eq {r₁ r₂ : GetKeyRequest} (h₁ : Readable payload (.getKey r₁))
    (h₂ : Readable payload (.getKey r₂)) (beyond₁ beyond₂ : ℕ → UInt8) {p₁ p₂ : GetKeyResponse}
    {f : Bytes} (hp₁ : (serve libc s (.getKey r₁,env.withBeyond beyond₁)).1 = .getKey p₁)
    (hp₂ : (serve libc s (.getKey r₂,env.withBeyond beyond₂)).1 = .getKey p₂)
    (hf : framed (.getKey p₁) = some f) : p₁=p₂ := by
  have he := h r₁ r₂ h₁ h₂ beyond₁ beyond₂
  rw [hp₁,hp₂] at he
  exact framed_getKey_inj hf (he ▸ hf)

/-- An index that was not received shows in the answer. -/
lemma index_received {k : Uuid} (hk : payload.take 16 <+: k.bytes)
    (hanswer : ¬ Unanswerable s env k) : 20 ≤ payload.length := by
  by_contra hlen
  have hdrop : (payload.drop 16).length ≤ 3 := by
    rw [List.length_drop]
    omega
  have hr (b : UInt8) : ∃ r : GetKeyRequest, r.keyStreamId=k ∧ r.metadata=QkdBytes.empty ∧
      qkdUint32ToStream r.index = payload.drop 16 ++
        (List.replicate (3-(payload.drop 16).length) 0 ++ [b]) ∧ Readable payload (.getKey r) := by
    obtain ⟨n,hn⟩ := exists_word (w := payload.drop 16 ++
      (List.replicate (3-(payload.drop 16).length) 0 ++ [b])) (by simp at hdrop ⊢; omega)
    refine ⟨⟨k,n,QkdBytes.empty⟩,rfl,rfl,hn,getKey_readable ?_⟩
    have hp : payload <+: qkdUuidToStream k ++ qkdUint32ToStream n := by
      refine prefix_append_of_take_drop (qkdUuidToStream_length k) hk ?_
      rw [hn]
      exact List.prefix_append _ _
    exact hp.trans (List.prefix_append _ _)
  obtain ⟨r₁,hk₁,hm₁,hi₁,hr₁⟩ := hr 0
  obtain ⟨r₂,hk₂,hm₂,hi₂,hr₂⟩ := hr 1
  obtain ⟨p₁,f₁,hp₁,hpi₁,hf₁,-⟩ := getKey_framed libc (hk₁ ▸ hanswer) (by rw [hm₁]; decide)
  obtain ⟨p₂,-,hp₂,hpi₂,-,-⟩ := getKey_framed libc (hk₂ ▸ hanswer) (by rw [hm₂]; decide)
  have hp := answers_eq libc h hr₁ hr₂ env.beyondMetadata env.beyondMetadata hp₁ hp₂ hf₁
  rw [← hpi₁,hp,hpi₂,hi₂] at hi₁
  exact absurd (List.append_cancel_left (List.append_cancel_left hi₁)) (by decide)

/-- Metadata that were not received show in the answer for an unknown stream. -/
lemma echoCovered_of_agree {k : Uuid} {index : UInt32} {rest : Bytes}
    (hp : payload = qkdUuidToStream k ++ (qkdUint32ToStream index ++ rest))
    (hl : lookup KsidInfo.keyStreamId k s.store = none) : EchoCovered rest := by
  by_contra hn
  obtain ⟨m₁,m₂,hm,hr₁,hr₂,hl₁,hl₂⟩ := completedTwice_of_not_echoCovered hn
  have hread (m : QkdBytes) (hr : rest <+: qkdMetadataToStream m) :
      Readable payload (.getKey ⟨k,index,m⟩) := by
    apply getKey_readable
    rw [hp,qkdGetKeyRequestToStream,List.append_assoc]
    simpa only [List.prefix_append_right_inj] using hr
  have hanswer : ¬ Unanswerable s env k := by
    rintro ⟨e,he,-⟩
    rw [hl] at he
    contradiction
  obtain ⟨p₁,f₁,hp₁,-,hf₁,he₁⟩ := getKey_framed libc (r := ⟨k,index,m₁⟩) hanswer hl₁
  obtain ⟨p₂,-,hp₂,-,-,he₂⟩ := getKey_framed libc (r := ⟨k,index,m₂⟩) hanswer hl₂
  have he := answers_eq libc h (hread m₁ hr₁) (hread m₂ hr₂) env.beyondMetadata
    env.beyondMetadata hp₁ hp₂ hf₁
  exact hm ((he₁ hl).symm.trans ((congrArg GetKeyResponse.metadata he).trans (he₂ hl)))

/-- Metadata that were not received choose the generator. -/
lemma keyCovered_of_agree {k : Uuid} {index : UInt32} {rest : Bytes}
    (hp : payload = qkdUuidToStream k ++ (qkdUint32ToStream index ++ rest)) {e : KsidInfo}
    (hl : lookup KsidInfo.keyStreamId k s.store = some e) (hanswer : ¬ Unanswerable s env k) :
    KeyCovered libc e env index rest := by
  by_contra hn
  rw [KeyCovered,not_or,Classical.not_imp] at hn
  obtain ⟨hreceived,halloc,hmask⟩ := hn
  obtain ⟨r₁,hr₁,hk₁,hi₁,-,hone₁⟩ :=
    exists_padded_request hp hreceived (b := 16) (by decide)
  obtain ⟨r₂,hr₂,hk₂,hi₂,hzero₂,hone₂⟩ :=
    exists_padded_request hp hreceived (b := 1) (by decide)
  obtain ⟨f,hf⟩ : ∃ f, framed (.getKey ⟨QkdStatusCode.successful.code,r₁.index,
      keyFor libc e r₁ (env.withBeyond fun _ => 16) s.prng,deviceMetadata s.config⟩) = some f := by
    apply framed_getKey_isSome
    rw [keyFor_length]
    by_contra hlen
    exact hanswer ⟨e,hl,not_lt.mp hlen⟩
  have he := answers_eq libc h hr₁ hr₂ (fun _ => 16) (fun _ => 1)
    (serve_delivered libc (hk₁ ▸ hl)) (serve_delivered libc (hk₂ ▸ hl)) hf
  have hkey := congrArg (fun p : GetKeyResponse => p.keyBuffer.data) he
  simp only [keyFor_data,Env.withBeyond,halloc,if_true,hone₁,hone₂,hzero₂,hi₁,hi₂,or_true,
    false_or] at hkey
  exact hmask hkey.symm

lemma getKey_covered : GetKeyCovered libc s env payload := by
  by_cases hall : ∀ k : Uuid, payload.take 16 <+: k.bytes → Unanswerable s env k
  · exact Or.inl hall
  · refine Or.inr ?_
    rw [not_forall] at hall
    obtain ⟨k,hk⟩ := hall
    rw [Classical.not_imp] at hk
    obtain ⟨hk,hanswer⟩ := hk
    have hlen := index_received libc h hk hanswer
    have hid : payload.take 16 = qkdUuidToStream k := by
      apply hk.eq_of_length
      rw [List.length_take,k.length_eq]
      omega
    obtain ⟨index,hindex⟩ := exists_word (w := (payload.drop 16).take 4)
      (by rw [List.length_take,List.length_drop]; omega)
    have hp : payload = qkdUuidToStream k ++ (qkdUint32ToStream index ++ payload.drop 20) := by
      have hdrop : payload.drop 20 = (payload.drop 16).drop 4 := by rw [List.drop_drop]
      rw [hindex,hdrop,List.take_append_drop,← hid,List.take_append_drop]
    refine ⟨k,index,payload.drop 20,hp,?_⟩
    cases hl : lookup KsidInfo.keyStreamId k s.store with
    | none => exact echoCovered_of_agree libc h hp hl
    | some e => exact keyCovered_of_agree libc h hp hl hanswer

end Open

/-- For every list of key streams and every received payload: when, for each of the three
services, it is the same over any memory behind the payload and behind the decoded metadata
whether a response frame is sent and which. -/
theorem response_determined_iff [OpenSsl] (s : Server σ) (env : Env) (header : QkdHeader)
    (payload : QkdBytes) :
    (header.service=QkdService.openConnectRequest.code →
      (Determined libc s env header payload.data ↔ OpenConnectCovered payload.data)) ∧
    (header.service=QkdService.getKeyRequest.code →
      (Determined libc s env header payload.data ↔ GetKeyCovered libc s env payload.data)) ∧
    (header.service=QkdService.closeRequest.code →
      Determined libc s env header payload.data) := by
  refine ⟨?_,?_,fun hs => close_determined libc hs⟩
  · intro hs
    rw [determined_openConnect_iff libc hs]
    constructor
    · exact openConnect_covered libc payload.length_lt
    · exact openConnect_determined libc payload.length_lt
  · intro hs
    rw [determined_getKey_iff libc hs]
    constructor
    · exact getKey_covered libc
    · exact getKey_determined libc

section Plain
open PlainSsl

/-- A GET_KEY for an unknown stream whose metadata claim one byte that was not sent: the byte
behind the payload is sent back. -/
theorem metadata_beyond_payload :
    ¬ Determined ansiPrng (Server.start 32768 (49/100) 1) (yields 1)
      ⟨qkd004Version,QkdService.getKeyRequest.code,24⟩
      (List.replicate 16 7 ++ [0,0,0,0] ++ [0,0,0,1]) := by
  intro h
  have he := h [0] [1] (by decide) (by decide) (fun _ => 0) (fun _ => 0)
    (by decide +kernel) (by decide +kernel)
  revert he
  decide +kernel

end Plain

end EtsiQkd004
