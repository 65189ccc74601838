import EtsiQkd004.Socket.Records
import EtsiQkd004.Socket.Framing

/-! A frame on its way: it is written into records of at most 2^14 bytes, and received in two
receives, of its header and of its payload. -/
namespace EtsiQkd004
open WireCodec Chunks OpenSsl

section Frames
variable [OpenSsl]

/-- The two receives that both ends make. -/
def recvFrame (headerStack payloadStack : ℕ → UInt8) (records : List Bytes) :
    Option (QkdHeader × Bytes) :=
  match recvRecords 8 headerStack records with
  | .exited | .overread | .waiting => none
  | .returned headerData rest =>
    match qkdHeaderFromStream.run headerData.data with
    | none => none
    | some (header,_) =>
      let records := skip (records.flatten.length - rest.length) records
      match recvRecords header.payloadSize.toUInt64 payloadStack records with
      | .exited | .overread | .waiting => none
      | .returned payload _ => some (header,payload.data)

/-- A header at the start of the first record is followed by the receive of its payload. -/
lemma recvFrame_eq {records : List Bytes} {header : QkdHeader} {body : Bytes}
    (h : first records = qkdHeaderToStream header ++ body) (headerStack payloadStack : ℕ → UInt8) :
    recvFrame headerStack payloadStack records =
      match recvRecords header.payloadSize.toUInt64 payloadStack (skip 8 records) with
      | .exited | .overread | .waiting => none
      | .returned payload _ => some (header,payload.data) := by
  have hlen := qkdHeaderToStream_length header
  have h8 : (8 : UInt32).toNat ≤ (first records).length := by
    rw [h,List.length_append,hlen]
    exact Nat.le_add_right _ _
  obtain ⟨msg,hmsg,hdata⟩ := recvRecords_one (n := 8) (by decide) (by decide) h8 (by decide)
    headerStack
  have hdecode : qkdHeaderFromStream.run msg.data = some (header,[]) := by
    have hexact := qkdHeader_exact.decode_encode header []
    rw [List.append_nil] at hexact
    rw [hdata,h,show (8 : UInt32).toNat = 8 from rfl,List.take_left' hlen,hexact]
  have hskip : records.flatten.length - (records.flatten.drop 8).length = 8 := by
    have hle := (first_initial records).length_le
    change 8 ≤ (first records).length at h8
    rw [List.length_drop]
    omega
  change recvRecords 8 headerStack records = .returned msg (records.flatten.drop 8) at hmsg
  rw [recvFrame,hmsg]
  simp only [hdecode,hskip]

/-- The two receives, taken apart. -/
lemma recvFrame_some {headerStack payloadStack : ℕ → UInt8} {records : List Bytes}
    {x : QkdHeader × Bytes} (h : recvFrame headerStack payloadStack records = some x) :
    ∃ headerData rest body payload rest',
      recvRecords 8 headerStack records = .returned headerData rest ∧
      qkdHeaderFromStream.run headerData.data = some (x.1,body) ∧
      recvRecords x.1.payloadSize.toUInt64 payloadStack
        (skip (records.flatten.length - rest.length) records) = .returned payload rest' ∧
      x.2 = payload.data := by
  rw [recvFrame] at h
  cases hheader : recvRecords 8 headerStack records with
  | exited | overread | waiting =>
    rw [hheader] at h
    contradiction
  | returned headerData rest =>
    rw [hheader] at h
    simp only at h
    cases hdecode : qkdHeaderFromStream.run headerData.data with
    | none =>
      rw [hdecode] at h
      contradiction
    | some y =>
      rw [hdecode] at h
      simp only at h
      cases hpayload : recvRecords y.1.payloadSize.toUInt64 payloadStack
          (skip (records.flatten.length - rest.length) records) with
      | exited | overread | waiting =>
        rw [hpayload] at h
        contradiction
      | returned payload rest' =>
        rw [hpayload] at h
        obtain rfl := Option.some.inj h
        exact ⟨headerData,rest,y.2,payload,rest',rfl,hdecode,hpayload,rfl⟩

section Sent
variable (service : QkdService) {payload : Bytes}

lemma sslRecords_frame (h : 8 + payload.length < 2^31) :
    ∃ later, sslRecords (messageFrame service payload).sent =
      (qkdHeaderToStream (messageFrame service payload).header ++ payload.take 16376)::later := by
  have hlen := qkdHeaderToStream_length (messageFrame service payload).header
  have hw : (messageFrame service payload).sent =
      qkdHeaderToStream (messageFrame service payload).header ++ payload := by
    rw [messageFrame_sent service h]
    rfl
  have hne : (messageFrame service payload).sent ≠ [] := by
    intro h0
    rw [hw] at h0
    rw [(List.append_eq_nil_iff.mp h0).1] at hlen
    cases hlen
  obtain ⟨later,hlater⟩ := records_first hne
  refine ⟨later,?_⟩
  rw [hlater,hw,List.take_append,hlen,List.take_of_length_le (by omega)]

/-- The receive of the payload gets what the first record has left, and the further ones. -/
lemma recvFrame_sent (hne : payload≠[]) (h : 8 + payload.length < 2^31) :
    ∃ records, first records = payload.take 16376 ∧ records.flatten = payload ∧
      ∀ headerStack payloadStack,
        recvFrame headerStack payloadStack (sslRecords (messageFrame service payload).sent) =
          match recvRecords (messageFrame service payload).header.payloadSize.toUInt64 payloadStack
            records with
          | .exited | .overread | .waiting => none
          | .returned received _ => some ((messageFrame service payload).header,received.data) := by
  obtain ⟨later,hrecords⟩ := sslRecords_frame service h
  have hlen := qkdHeaderToStream_length (messageFrame service payload).header
  have hne' : payload.take 16376 ≠ [] := by simpa using hne
  have hskip : skip 8 (sslRecords (messageFrame service payload).sent) =
      payload.take 16376::later := by
    rw [hrecords,← hlen,skip_append hne']
  have hflatten : (skip 8 (sslRecords (messageFrame service payload).sent)).flatten = payload := by
    rw [flatten_skip,records_flatten,messageFrame_sent service h]
    exact List.drop_left' hlen
  have hfirst : first (sslRecords (messageFrame service payload).sent) =
      qkdHeaderToStream (messageFrame service payload).header ++ payload.take 16376 := by
    rw [hrecords,first_cons (by simp [hne])]
  refine ⟨_,?_,hflatten,recvFrame_eq hfirst⟩
  rw [hskip,first_cons hne']

/-- A frame of at most 2^14 bytes is received, whatever is in memory. -/
lemma recvFrame_short (hne : payload≠[]) (h : 8 + payload.length ≤ 16384)
    (headerStack payloadStack : ℕ → UInt8) :
    recvFrame headerStack payloadStack (sslRecords (messageFrame service payload).sent) =
      some ((messageFrame service payload).header,payload) := by
  obtain ⟨records,hfirst,-,hrecv⟩ := recvFrame_sent service hne (by omega)
  have hsize := messageFrame_payloadSize service payload
  have hpos := List.length_pos_iff.mpr hne
  rw [List.take_of_length_le (by omega)] at hfirst
  rw [Nat.mod_eq_of_lt (by omega)] at hsize
  have harrived : arrived (messageFrame service payload).header.payloadSize (first records) =
      some payload := by
    have hn : ¬ ((messageFrame service payload).header.payloadSize=0 ∨
        (messageFrame service payload).header.payloadSize=16384) := by
      rintro (h0 | hmax)
      · rw [h0,UInt32.toNat_zero] at hsize
        omega
      · rw [hmax] at hsize
        change 16384 = payload.length at hsize
        omega
    rw [arrived,if_neg hn,hfirst,if_pos (Nat.le_of_eq hsize),
      List.take_of_length_le (Nat.le_of_eq hsize.symm)]
  obtain ⟨msg,hmsg,hdata⟩ := recvRecords_arrived harrived (by rw [hfirst]; omega) payloadStack
  rw [hrecv,hmsg]
  simp only [hdata]

/-- Of a frame whose size is no positive `int` nothing is received. -/
lemma recvFrame_refused (h : 2^31 ≤ 8 + payload.length) (headerStack payloadStack : ℕ → UInt8) :
    recvFrame headerStack payloadStack (sslRecords (messageFrame service payload).sent) ≠
      some ((messageFrame service payload).header,payload) := by
  intro hrecv
  obtain ⟨msg,rest,-,received,-,hmsg,-,-,hpayload⟩ := recvFrame_some hrecv
  have hlt : payload.length < 2^32 := by
    rw [show payload = received.data from hpayload]
    exact received.length_lt
  have hshort := messageFrame_sent_short service h hlt
  have hlen : (sslRecords (messageFrame service payload).sent).flatten.length < 8 := by
    rwa [records_flatten]
  have hnone : arrived 8 (first (sslRecords (messageFrame service payload).sent)) = none := by
    have hle := (first_initial (sslRecords (messageFrame service payload).sent)).length_le
    rw [arrived,if_neg (by decide),if_neg]
    change ¬ 8 ≤ _
    omega
  exact recvRecords_short hnone (Or.inr (Or.inr hlen)) headerStack msg rest hmsg

/-- Of a frame of more than 2^14 bytes some byte is not what was sent, in some memory. -/
lemma recvFrame_long (h : 16384 < 8 + payload.length) (hlt : 8 + payload.length < 2^31) :
    ∃ stack, recvFrame stack stack (sslRecords (messageFrame service payload).sent) ≠
      some ((messageFrame service payload).header,payload) := by
  have hne : payload≠[] := by
    rintro rfl
    change 16384 < 8 at h
    omega
  obtain ⟨records,hfirst,hflatten,hrecv⟩ := recvFrame_sent service hne hlt
  have hsize := messageFrame_payloadSize service payload
  rw [Nat.mod_eq_of_lt (by omega)] at hsize
  have hlen : (first records).length = 16376 := by
    rw [hfirst,List.length_take]
    omega
  by_cases hmax : (messageFrame service payload).header.payloadSize=16384
  · -- the loop is left after one read, of what the first record has left
    refine ⟨fun _ => 0,fun hsome => ?_⟩
    have hrecord : first records ≠ [] := by
      intro h0
      rw [h0] at hlen
      cases hlen
    obtain ⟨msg,hmsg,hdata⟩ := recvRecords_any (Or.inr hmax) hrecord (fun _ => 0)
    rw [hrecv,hmsg] at hsome
    have hpayload := congrArg (fun x => x.2.length) (Option.some.inj hsome)
    simp only [hdata,List.length_take,hlen] at hpayload
    omega
  · have h0 : (messageFrame service payload).header.payloadSize≠0 := by
      intro h0
      rw [h0,UInt32.toNat_zero] at hsize
      omega
    refine ⟨fun _ => payload.getLast hne + 1,fun hsome => ?_⟩
    obtain ⟨msg,hmsg,hlast⟩ := recvRecords_last h0 hmax (by omega) (by rw [hflatten]; omega)
      (by omega) (fun _ => payload.getLast hne + 1)
    rw [hrecv,hmsg] at hsome
    have hdata : msg.data = payload := congrArg Prod.snd (Option.some.inj hsome)
    rw [hdata,hsize,← List.getLast?_eq_getElem?,List.getLast?_eq_some_getLast hne] at hlast
    have hbyte := Option.some.inj hlast
    grind

lemma recvFrame_empty (headerStack payloadStack : ℕ → UInt8) :
    recvFrame headerStack payloadStack (sslRecords (messageFrame service []).sent) = none := by
  have hfits : 8 + ([] : Bytes).length < 2^31 := by decide
  obtain ⟨later,hrecords⟩ := sslRecords_frame service hfits
  have hlen := qkdHeaderToStream_length (messageFrame service []).header
  have hheader : qkdHeaderToStream (messageFrame service []).header ++ List.take 16376 [] ≠ [] := by
    intro h
    have h8 := congrArg List.length h
    rw [List.length_append,hlen] at h8
    cases h8
  have hfirst : first (sslRecords (messageFrame service []).sent) =
      qkdHeaderToStream (messageFrame service []).header ++ List.take 16376 [] := by
    rw [hrecords,first_cons hheader]
  have hnone : first (skip 8 (sslRecords (messageFrame service []).sent)) = [] := by
    have hflatten : (skip 8 (sslRecords (messageFrame service []).sent)).flatten = [] := by
      rw [flatten_skip,records_flatten,messageFrame_sent service hfits]
      rfl
    have hinitial := first_initial (skip 8 (sslRecords (messageFrame service []).sent))
    rw [hflatten] at hinitial
    exact List.prefix_nil.mp hinitial
  have hshort := recvRecords_short (n := (messageFrame service []).header.payloadSize)
    (by rw [hnone]; rfl) (Or.inl rfl) payloadStack
  rw [recvFrame_eq hfirst]
  cases hmsg : recvRecords (messageFrame service []).header.payloadSize.toUInt64 payloadStack
      (skip 8 (sslRecords (messageFrame service []).sent)) with
  | exited | overread | waiting => rfl
  | returned msg rest => exact absurd hmsg (hshort msg rest)

/-- A frame that is sent is received as it was sent, whatever is on the stacks of the receiver,
exactly if it fits into one record and has a payload. -/
theorem frame_received_iff :
    (∀ headerStack payloadStack,
      recvFrame headerStack payloadStack (sslRecords (messageFrame service payload).sent) =
        some ((messageFrame service payload).header,payload)) ↔
      payload≠[] ∧ 8 + payload.length ≤ 16384 := by
  constructor
  · intro h
    refine ⟨?_,?_⟩
    · rintro rfl
      have hempty := h (fun _ => 0) (fun _ => 0)
      rw [recvFrame_empty] at hempty
      contradiction
    · by_contra hlong
      by_cases hlt : 8 + payload.length < 2^31
      · obtain ⟨stack,hwrong⟩ := recvFrame_long service (not_le.mp hlong) hlt
        exact hwrong (h stack stack)
      · exact recvFrame_refused service (not_lt.mp hlt) (fun _ => 0) (fun _ => 0) (h _ _)
  · rintro ⟨hne,hle⟩
    exact recvFrame_short service hne hle

end Sent
end Frames

section Plain
open PlainSsl

/-- The sixteen bytes of a CLOSE. -/
theorem frame_received_close :
    let f := messageFrame .closeRequest (List.replicate 16 7)
    ∀ headerStack payloadStack, recvFrame headerStack payloadStack (sslRecords f.sent) =
      some (f.header,List.replicate 16 7) :=
  (frame_received_iff .closeRequest).mpr ⟨by decide,by decide⟩

end Plain

end EtsiQkd004
