import EtsiQkd004.Wire.Sizes
import EtsiQkd004.Wire.Grammar

/-! What a decoder makes of a payload that ends too early: every payload is read as some
message when enough memory follows it. -/
namespace EtsiQkd004
open WireCodec HostWord

section Sated

lemma qkdUint32_sated (z : UInt8) : SatedBy z 4 qkdUint32FromStream := by
  intro p
  obtain ⟨w,rest,h⟩ := block_sated z (Nat.le_refl 4) p
  have hw := (block_exact 4).encode_decode h
  obtain ⟨w,hlen⟩ := w
  obtain ⟨b₀,b₁,b₂,b₃,rfl⟩ := List.length_eq_four.mp hlen
  refine ⟨byteSwap (ofBytes b₀ b₁ b₂ b₃),rest,(qkdUint32_exact _ _ _).mpr ?_⟩
  rw [qkdUint32ToStream,htonl,byteSwap_byteSwap,← (ofBytes_eq_iff b₀ b₁ b₂ b₃ _).mp rfl,← hw]

lemma qkdUuid_sated (z : UInt8) : SatedBy z 16 qkdUuidFromStream :=
  SatedBy.bind (block_exact 16) (block_sated z (Nat.le_refl 16)) fun _ => SatedBy.pure z _

lemma qkdStr_sated : SatedBy 0 1 qkdStrFromStream :=
  SatedBy.bind (terminated_exact 0) (terminated_sated 0) fun _ => SatedBy.pure 0 _

/-- Whatever size is read, it is below 2^32. -/
lemma qkdBytesData_sated (z : UInt8) {n : ℕ} (hn : 2^32 ≤ n) :
    SatedBy z (4 + n) qkdBytesDataFromStream := by
  change SatedBy z (4 + (n + 0)) _
  refine SatedBy.bind qkdUint32_exact (qkdUint32_sated z) fun size => ?_
  have hsize : size.toNat ≤ n := Nat.le_trans (Nat.le_of_lt size.toNat_lt) hn
  exact SatedBy.bind (block_exact size.toNat) (block_sated z hsize) fun _ => SatedBy.pure z _

lemma qkdQos_sated : SatedBy 0 29 qkdQosFromStream := by
  have hword := qkdUint32_sated 0
  change SatedBy 0 (4 + (4 + (4 + (4 + (4 + (4 + (4 + (1 + 0)))))))) _
  refine SatedBy.bind qkdUint32_exact hword fun _ => ?_
  refine SatedBy.bind qkdUint32_exact hword fun _ => ?_
  refine SatedBy.bind qkdUint32_exact hword fun _ => ?_
  refine SatedBy.bind qkdUint32_exact hword fun _ => ?_
  refine SatedBy.bind qkdUint32_exact hword fun _ => ?_
  refine SatedBy.bind qkdUint32_exact hword fun _ => ?_
  refine SatedBy.bind qkdUint32_exact hword fun _ => ?_
  exact SatedBy.bind qkdStr_exact qkdStr_sated fun _ => SatedBy.pure 0 _

lemma qkdOpenConnectRequest_sated : SatedBy 0 47 qkdOpenConnectRequestFromStream := by
  change SatedBy 0 (1 + (1 + (29 + (16 + 0)))) _
  refine SatedBy.bind qkdStr_exact qkdStr_sated fun _ => ?_
  refine SatedBy.bind qkdStr_exact qkdStr_sated fun _ => ?_
  refine SatedBy.bind qkdQos_exact qkdQos_sated fun _ => ?_
  exact SatedBy.bind qkdUuid_exact (qkdUuid_sated 0) fun _ => SatedBy.pure 0 _

lemma qkdGetKeyRequest_sated (z : UInt8) :
    ∃ n, n < 2^63 ∧ SatedBy z n qkdGetKeyRequestFromStream := by
  refine ⟨16 + (4 + (4 + 2^32 + 0)),by omega,?_⟩
  refine SatedBy.bind qkdUuid_exact (qkdUuid_sated z) fun _ => ?_
  refine SatedBy.bind qkdUint32_exact (qkdUint32_sated z) fun _ => ?_
  refine SatedBy.bind qkdBytesData_exact (qkdBytesData_sated z (Nat.le_refl _)) fun _ => ?_
  exact SatedBy.pure z _

end Sated

/-- The seven numbers of a QoS on the wire. -/
def qosWords (qos : QkdQos) : Bytes :=
  qkdUint32ToStream qos.keyChunkSize ++
  qkdUint32ToStream qos.maxBps ++
  qkdUint32ToStream qos.minBps ++
  qkdUint32ToStream qos.jitter ++
  qkdUint32ToStream qos.priority ++
  qkdUint32ToStream qos.timeout ++
  qkdUint32ToStream qos.ttl

lemma qkdQosToStream_eq (qos : QkdQos) :
    qkdQosToStream qos = qosWords qos ++ (qos.metadataMimetype.chars ++ [0]) := rfl

lemma qosWords_length (qos : QkdQos) : (qosWords qos).length = 28 := rfl

section OpenConnect

/-- A payload that ends too early is the beginning of a request that goes on with zeros. -/
lemma openConnectRequest_completion {payload : Bytes}
    (h : ¬ ∃ r rest, payload = qkdOpenConnectRequestToStream r ++ rest) :
    ∃ r k, k ≤ 46 ∧ qkdOpenConnectRequestToStream r = payload ++ List.replicate (k+1) 0 := by
  obtain ⟨r,rest,hr⟩ := qkdOpenConnectRequest_sated payload
  have he := qkdOpenConnectRequest_exact.encode_decode hr
  rcases List.append_eq_append_iff.mp he with ⟨c,hc,-⟩ | ⟨c,hc,hz⟩
  · exact absurd ⟨r,c,hc⟩ h
  · obtain ⟨hlen,hall,-⟩ := List.append_eq_replicate_iff.mp hz.symm
    cases c with
    | nil => exact absurd ⟨r,[],by simp [hc]⟩ h
    | cons b c =>
      rw [List.length_cons] at hlen hall
      exact ⟨r,c.length,by omega,by rw [hc,hall]⟩

/-- The request with another last byte of its identifier. -/
def OpenConnectRequest.withLastByte (r : OpenConnectRequest) (b : UInt8) : OpenConnectRequest :=
  { r with keyStreamId := ⟨r.keyStreamId.bytes.dropLast ++ [b],by simp [r.keyStreamId.length_eq]⟩ }

lemma withLastByte_toStream {r : OpenConnectRequest} {payload : Bytes} {k : ℕ}
    (h : qkdOpenConnectRequestToStream r = payload ++ List.replicate (k+1) 0) (b : UInt8) :
    qkdOpenConnectRequestToStream (r.withLastByte b) = payload ++ (List.replicate k 0 ++ [b]) := by
  have hne : r.keyStreamId.bytes ≠ [] := by
    intro h0
    have hl := r.keyStreamId.length_eq
    rw [h0] at hl
    exact absurd hl (by decide)
  have hd := congrArg List.dropLast h
  rw [qkdOpenConnectRequestToStream,qkdUuidToStream,List.dropLast_append_of_ne_nil hne,
    List.dropLast_append_of_ne_nil (by simp),List.dropLast_replicate] at hd
  rw [← List.append_assoc,← Nat.add_sub_cancel (n := k) (m := 1),← hd]
  simp [qkdOpenConnectRequestToStream,qkdUuidToStream,OpenConnectRequest.withLastByte]

/-- The two URIs, the seven numbers and more characters of a mimetype than the size function
allows have been received. -/
def MimetypeTooLong (payload : Bytes) : Prop :=
  ∃ source destination words mimetype, words.length=28 ∧ mimetype.length=256 ∧ 0 ∉ mimetype ∧
    qkdUriToStream source ++ (qkdUriToStream destination ++ (words ++ mimetype)) <+: payload

/-- A string that starts with NUL-free bytes is at least as long as they are. -/
lemma length_le_of_append_eq {m x a y : Bytes} (h : m ++ x = a ++ 0::y) (hm : 0 ∉ m) :
    m.length ≤ a.length := by
  by_contra hlt
  have hlt : a.length < m.length := by omega
  have h0 : (m ++ x)[a.length]? = some 0 := by simp [h]
  rw [List.getElem?_append_left hlt] at h0
  exact hm (List.mem_of_getElem? h0)

lemma mimetype_of_tooLong {payload tail rest : Bytes} {r : OpenConnectRequest}
    (h : MimetypeTooLong payload)
    (hr : payload ++ tail = qkdOpenConnectRequestToStream r ++ rest) :
    256 ≤ r.qos.metadataMimetype.chars.length := by
  obtain ⟨source,destination,words,mimetype,hwords,hlen,hnul,c,rfl⟩ := h
  simp only [qkdOpenConnectRequestToStream,qkdUriToStream,qkdQosToStream_eq,
    List.append_assoc] at hr
  obtain ⟨-,hr⟩ := qkdStr_exact.append_inj hr
  obtain ⟨-,hr⟩ := qkdStr_exact.append_inj hr
  obtain ⟨-,hr⟩ := List.append_inj hr (by rw [hwords,qosWords_length])
  rw [← hlen]
  exact length_le_of_append_eq hr hnul

/-- What does not end in `z` cannot reach into a padding of copies of `z`. -/
lemma prefix_of_append_replicate {x y p : Bytes} {z : UInt8} {k : ℕ}
    (h : x ++ y = p ++ List.replicate k z) (hz : ∀ b ∈ x.getLast?, b ≠ z) : x <+: p := by
  rcases List.append_eq_append_iff.mp h with ⟨c,rfl,-⟩ | ⟨c,rfl,hc⟩
  · exact List.prefix_append _ _
  · obtain ⟨-,hc,-⟩ := List.append_eq_replicate_iff.mp hc.symm
    cases hn : c.length with
    | zero => simp [List.length_eq_zero_iff.mp hn]
    | succ n =>
      rw [hc,hn] at hz
      exact absurd rfl (hz z (by simp [List.replicate_succ',List.getLast?_append]))

lemma tooLong_of_completion {payload : Bytes} {r : OpenConnectRequest} {k : ℕ}
    (h : qkdOpenConnectRequestToStream r = payload ++ List.replicate k 0)
    (hm : 256 ≤ r.qos.metadataMimetype.chars.length) : MimetypeTooLong payload := by
  have hnul : 0 ∉ r.qos.metadataMimetype.chars.take 256 :=
    fun h0 => r.qos.metadataMimetype.noNul (List.mem_of_mem_take h0)
  refine ⟨r.source,r.destination,qosWords r.qos,r.qos.metadataMimetype.chars.take 256,
    qosWords_length _,by simp [hm],hnul,?_⟩
  apply prefix_of_append_replicate (k := k) (z := 0)
    (y := r.qos.metadataMimetype.chars.drop 256 ++ ([0] ++ qkdUuidToStream r.keyStreamId))
  · rw [← h]
    simp only [qkdOpenConnectRequestToStream,qkdQosToStream_eq,List.append_assoc]
    rw [← List.append_assoc (List.take 256 _),List.take_append_drop]
  · intro b hb
    have hne : r.qos.metadataMimetype.chars.take 256 ≠ [] := by
      intro h0
      have hlen := congrArg List.length h0
      rw [List.length_take,List.length_nil] at hlen
      omega
    obtain ⟨l,hl⟩ := Option.isSome_iff_exists.mp (List.getLast?_isSome.mpr hne)
    simp only [List.getLast?_append,hl,Option.some_or,Option.mem_def,Option.some.injEq] at hb
    rw [← hb]
    rintro rfl
    exact hnul (List.mem_of_getLast? hl)

end OpenConnect

section Words

/-- The bytes of a word in network order. -/
lemma qkdUint32ToStream_eq (n : UInt32) :
    qkdUint32ToStream n = [byteAt n 3,byteAt n 2,byteAt n 1,byteAt n 0] := by
  obtain ⟨h₀,h₁,h₂,h₃⟩ := byteAt_ofBytes (byteAt n 3) (byteAt n 2) (byteAt n 1) (byteAt n 0)
  rw [qkdUint32ToStream,htonl,byteSwap,image,h₀,h₁,h₂,h₃]

/-- Any four bytes are a word. -/
lemma exists_word {w : Bytes} (hw : w.length=4) : ∃ n, qkdUint32ToStream n = w := by
  obtain ⟨n,rest,h⟩ := qkdUint32_sated 0 w
  have he := qkdUint32_exact.encode_decode h
  exact ⟨n,(List.append_inj he (by rw [qkdUint32ToStream_length,hw])).1⟩

/-- A word with another last byte. -/
lemma exists_word_withLastByte (n : UInt32) {b : ℕ} (hb : b < 256) :
    ∃ n' : UInt32, n'.toNat = n.toNat/256*256 + b ∧
      (qkdUint32ToStream n').take 3 = (qkdUint32ToStream n).take 3 := by
  have hn := n.toNat_lt
  have hn' : (UInt32.ofNat (n.toNat/256*256 + b)).toNat = n.toNat/256*256 + b := by
    rw [UInt32.toNat_ofNat',Nat.mod_eq_of_lt]
    omega
  refine ⟨UInt32.ofNat (n.toNat/256*256 + b),hn',?_⟩
  have hbyte (i : ℕ) : byteAt (UInt32.ofNat (n.toNat/256*256 + b)) (i+1) = byteAt n (i+1) := by
    have hdiv : (n.toNat/256*256 + b)/256 = n.toNat/256 := by omega
    rw [byteAt,byteAt,hn',Nat.pow_succ',← Nat.div_div_eq_div_mul,← Nat.div_div_eq_div_mul,hdiv]
  simp only [qkdUint32ToStream_eq,List.take_succ_cons,List.take_zero,hbyte]

end Words

section Metadata

/-- What was received behind the index of a GET_KEY leaves nothing open of the metadata that
are echoed: they are complete, or every size they can have is too large for an answer. -/
def EchoCovered (rest : Bytes) : Prop :=
  (∃ metadata behind, rest = qkdMetadataToStream metadata ++ behind) ∨
    ∀ size, rest.take 4 <+: qkdUint32ToStream size → 2^31 ≤ 24 + size.toNat

/-- Two metadata that can be echoed start with what was received. -/
def CompletedTwice (rest : Bytes) : Prop :=
  ∃ m₁ m₂ : QkdBytes, m₁≠m₂ ∧ rest <+: qkdMetadataToStream m₁ ∧ rest <+: qkdMetadataToStream m₂ ∧
    24 + m₁.data.length < 2^31 ∧ 24 + m₂.data.length < 2^31

/-- As long as the size itself is incomplete, its last byte is free. -/
lemma completedTwice_of_size {rest : Bytes} {size : UInt32} (hlen : rest.length < 4)
    (hsize : rest <+: qkdUint32ToStream size) (hlt : 24 + size.toNat < 2^31) :
    CompletedTwice rest := by
  have hfree (b : ℕ) (hb : b < 256) : ∃ m : QkdBytes, m.data.length = size.toNat/256*256 + b ∧
      rest <+: qkdMetadataToStream m := by
    obtain ⟨n,hn,htake⟩ := exists_word_withLastByte size hb
    refine ⟨⟨n,List.replicate n.toNat 0,by simp⟩,by simp [hn],?_⟩
    have hrest : rest <+: (qkdUint32ToStream n).take 3 := by
      rw [htake]
      exact List.prefix_take_iff.mpr ⟨hsize,by omega⟩
    exact (hrest.trans (List.take_prefix _ _)).trans (List.prefix_append _ _)
  obtain ⟨m₁,hm₁,hr₁⟩ := hfree 0 (by decide)
  obtain ⟨m₂,hm₂,hr₂⟩ := hfree 1 (by decide)
  refine ⟨m₁,m₂,?_,hr₁,hr₂,by omega,by omega⟩
  rintro rfl
  omega

/-- Behind a complete size, the last byte of incomplete data is free. -/
lemma completedTwice_of_data {size : UInt32} {data : Bytes} (hlen : data.length < size.toNat)
    (hlt : 24 + size.toNat < 2^31) : CompletedTwice (qkdUint32ToStream size ++ data) := by
  let padding (b : UInt8) : Bytes := List.replicate (size.toNat-1-data.length) 0 ++ [b]
  have hpadding (b : UInt8) : (data ++ padding b).length = size.toNat := by
    simp only [padding,List.length_append,List.length_replicate,List.length_singleton]
    omega
  let m (b : UInt8) : QkdBytes := ⟨size,data ++ padding b,hpadding b⟩
  have hm (b : UInt8) : qkdUint32ToStream size ++ data <+: qkdMetadataToStream (m b) :=
    ⟨padding b,List.append_assoc _ _ _⟩
  have hl (b : UInt8) : 24 + (m b).data.length < 2^31 := (hpadding b).symm ▸ hlt
  refine ⟨m 0,m 1,?_,hm 0,hm 1,hl 0,hl 1⟩
  intro he
  have hd := congrArg (fun x : QkdBytes => x.data.getLast?) he
  simp [m,padding] at hd

/-- Metadata that were not received completely can be completed in two ways. -/
lemma completedTwice_of_not_echoCovered {rest : Bytes} (h : ¬ EchoCovered rest) :
    CompletedTwice rest := by
  rw [EchoCovered,not_or] at h
  obtain ⟨hpart,hsize⟩ := h
  rw [not_forall] at hsize
  obtain ⟨size,hsize⟩ := hsize
  rw [Classical.not_imp,Nat.not_le] at hsize
  obtain ⟨hsize,hlt⟩ := hsize
  by_cases hlen : rest.length < 4
  · rw [List.take_of_length_le (by omega)] at hsize
    exact completedTwice_of_size hlen hsize hlt
  · have hword : rest.take 4 = qkdUint32ToStream size := by
      apply hsize.eq_of_length
      rw [List.length_take,qkdUint32ToStream_length]
      omega
    have hrest : rest = qkdUint32ToStream size ++ rest.drop 4 := by
      rw [← hword,List.take_append_drop]
    have hshort : (rest.drop 4).length < size.toNat := by
      by_contra hge
      apply hpart
      refine ⟨⟨size,(rest.drop 4).take size.toNat,by rw [List.length_take]; omega⟩,
        (rest.drop 4).drop size.toNat,?_⟩
      rw [qkdMetadataToStream,qkdBytesDataToStream,List.append_assoc,List.take_append_drop,← hrest]
    rw [hrest]
    exact completedTwice_of_data hshort hlt

end Metadata
end EtsiQkd004
