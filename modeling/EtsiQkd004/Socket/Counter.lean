import EtsiQkd004.Socket.Receive

/-! How much a receive takes from the stream: the boundary it keeps when all reads succeed, and
its counter of received bytes when some of them fail. -/
namespace EtsiQkd004
open Overlay

section Boundary

/-- The call takes the `n` bytes of the payload from the stream and no others, and returns as
many. -/
def TakesExactly (n : UInt32) (stack : ℕ → UInt8) (reads : List Int32) (stream : Bytes) : Prop :=
  ∃ msg, socketSslRecv n.toUInt64 stack reads stream = .returned msg (stream.drop n.toNat) ∧
    msg.size=n

lemma toUInt64_pos {n : UInt32} (h : n≠0) : 0 < n.toUInt64 := by
  rw [UInt64.lt_iff_toNat_lt,UInt32.toNat_toUInt64]
  exact Nat.pos_of_ne_zero fun h0 => h (UInt32.toNat_inj.mp h0)

lemma toUInt64_ne_zero {n : UInt32} (h : n≠0) : n.toUInt64≠0 :=
  fun h0 => absurd (h0 ▸ toUInt64_pos h) (by decide)

lemma toUInt64_ne_max {n : UInt32} (h : n≠16384) : n.toUInt64≠ssl3RtMaxPlainLength := by
  intro hn
  apply h
  apply UInt32.toNat_inj.mp
  rw [← UInt32.toNat_toUInt64,hn]
  rfl

lemma takesExactly_of_split {n : UInt32} {reads : List Int32} (hn : n≠0) (hmax : n≠16384)
    (hsplit : IsSplit n.toUInt64 0 reads) (more : List Int32) (stack : ℕ → UInt8)
    (stream : Bytes) : TakesExactly n stack (reads ++ more) stream := by
  have hlen := overlays_split_length hsplit stack stream
  have hrecv := socketSslRecv_split (toUInt64_pos hn) (toUInt64_ne_max hmax) hsplit more stack
    stream
  rw [UInt32.toNat_toUInt64] at hlen hrecv
  refine ⟨_,hrecv,?_⟩
  apply UInt32.toNat_inj.mp
  rw [QkdBytes.ofBuffer,UInt32.toNat_ofNat',hlen,Nat.mod_eq_of_lt n.toNat_lt]

/-- Asked for no particular number of bytes, a receive returns what the first read gives. -/
lemma socketSslRecv_any {len : Int32} (hpos : 0 < len.toInt) (hle : len.toInt ≤ 16384)
    {stream : Bytes} (hstream : len.toInt.toNat ≤ stream.length) (more : List Int32)
    (stack : ℕ → UInt8) :
    ∃ msg, socketSslRecv 0 stack (len::more) stream =
        .returned msg (stream.drop len.toInt.toNat) ∧
      msg.data = stream.take len.toInt.toNat := by
  have hsize := sizeOfInt_toNat hpos
  have hfits : 0 + sizeOfInt len ≤ ssl3RtMaxPlainLength := by
    rw [UInt64.zero_add,UInt64.le_iff_toNat_le,hsize]
    change len.toInt.toNat ≤ 16384
    omega
  have htake : (stream.take len.toInt.toNat).length = len.toInt.toNat := by
    rw [List.length_take]
    omega
  have hdata : (overlay (stream.take len.toInt.toNat)
      ((List.range ssl3RtMaxPlainLength.toNat).map stack)).take (0 + sizeOfInt len).toNat =
        stream.take len.toInt.toNat := by
    rw [UInt64.zero_add,hsize,overlay,List.take_left' htake]
  have hlt : 0 < ssl3RtMaxPlainLength := by decide
  refine ⟨QkdBytes.ofBuffer (stream.take len.toInt.toNat),?_,QkdBytes.ofBuffer_data (by omega)⟩
  rw [socketSslRecv,if_pos rfl,recvLoop,if_pos hlt,if_neg (sizeOfInt_ne_zero hpos)]
  simp only [if_true,recvReturn,if_pos hfits,hdata]

/-- A receive that is asked for no bytes at all takes some. -/
lemma not_takesExactly_zero (stack : ℕ → UInt8) (reads : List Int32) (stream : Bytes) :
    ¬ TakesExactly 0 stack reads stream := by
  rintro ⟨msg,hmsg,hsize⟩
  have hlt : 0 < ssl3RtMaxPlainLength := by decide
  change recvLoop ssl3RtMaxPlainLength reads stream
    ((List.range ssl3RtMaxPlainLength.toNat).map stack) 0 = _ at hmsg
  cases reads with
  | nil =>
    rw [recvLoop,if_pos hlt] at hmsg
    cases hmsg
  | cons len reads =>
    rw [recvLoop,if_pos hlt] at hmsg
    by_cases hlen : sizeOfInt len=0
    · rw [if_pos hlen] at hmsg
      cases hmsg
    simp only [if_neg hlen,if_true,recvReturn,UInt64.zero_add] at hmsg
    split_ifs at hmsg with hfits
    obtain ⟨rfl,-⟩ := Recv.returned.inj hmsg
    have hne : (sizeOfInt len).toNat ≠ 0 := fun h0 => hlen (UInt64.toNat_inj.mp h0)
    have hle : (sizeOfInt len).toNat ≤ 16384 := UInt64.le_iff_toNat_le.mp hfits
    have hbuf : 16384 ≤ (overlay (stream.take len.toInt.toNat)
        ((List.range ssl3RtMaxPlainLength.toNat).map stack)).length := by
      rw [overlay,List.length_append,List.length_drop,List.length_map,List.length_range]
      change 16384 ≤ _ + (16384 - _)
      omega
    have hzero := congrArg UInt32.toNat hsize
    rw [QkdBytes.ofBuffer,UInt32.toNat_ofNat',List.length_take,Nat.min_eq_left (by omega),
      UInt32.toNat_zero] at hzero
    omega

/-- A receive of 2^14 bytes is left after the first read. -/
lemma takesExactly_max_iff {len : Int32} {reads : List Int32}
    (hsplit : IsSplit ssl3RtMaxPlainLength 0 (len::reads)) {stream : Bytes}
    (hstream : 16384 ≤ stream.length) (more : List Int32) (stack : ℕ → UInt8) :
    TakesExactly 16384 stack (len::reads ++ more) stream ↔ reads=[] := by
  obtain ⟨hsum,hcounts⟩ := hsplit.sum_counts
  simp only [counts,List.map_cons,List.sum_cons,List.forall_mem_cons] at hsum hcounts
  change 0 + _ = 16384 at hsum
  have hpos : 0 < len.toInt := by omega
  have hlen : len.toInt.toNat ≤ stream.length := by omega
  obtain ⟨msg,hmsg,hdata⟩ := socketSslRecv_any hpos (by omega) hlen (reads ++ more) stack
  have hmax : socketSslRecv (16384 : UInt32).toUInt64 stack (len::reads ++ more) stream =
      .returned msg (stream.drop len.toInt.toNat) := hmsg
  have hmsgsize : msg.size.toNat = len.toInt.toNat := by
    rw [← QkdBytes.size_eq,hdata,List.length_take]
    omega
  constructor
  · rintro ⟨msg',hmsg',hsize⟩
    obtain ⟨rfl,-⟩ := Recv.returned.inj (hmax.symm.trans hmsg')
    rw [hsize] at hmsgsize
    change 16384 = _ at hmsgsize
    cases reads with
    | nil => rfl
    | cons len' reads =>
      have hpos : 0 < len'.toInt.toNat := hcounts.2 _ List.mem_cons_self
      rw [List.map_cons,List.sum_cons] at hsum
      omega
  · rintro rfl
    have hall : len.toInt.toNat = 16384 := by simpa using hsum
    rw [hall] at hmax hmsgsize
    exact ⟨msg,hmax,UInt32.toNat_inj.mp hmsgsize⟩

/-- Whether a receive keeps to the boundary of the payload, over any reads that split it. -/
lemma takesExactly_iff {n : UInt32} {reads : List Int32} (hsplit : IsSplit n.toUInt64 0 reads)
    {stream : Bytes} (hstream : n.toNat ≤ stream.length) (more : List Int32) (stack : ℕ → UInt8) :
    TakesExactly n stack (reads ++ more) stream ↔ n≠0 ∧ (n=16384 → reads.length=1) := by
  by_cases hn : n=0
  · subst hn
    simp [not_takesExactly_zero]
  by_cases hmax : n=16384
  · subst hmax
    cases hsplit with
    | read hlt hpos hle hnext =>
      rw [takesExactly_max_iff (.read hlt hpos hle hnext) hstream]
      simp
  · simp [takesExactly_of_split hn hmax hsplit,hn,hmax]

end Boundary

section FailedReads

/-- The values `buf_len` takes in the loop of `recvLoop`, one after each iteration. -/
def bufLens (bufferMaxSize : UInt64) : List Int32 → UInt64 → List UInt64
  | [],_ => []
  | len::reads,bufLen =>
    if bufLen < bufferMaxSize then
      if sizeOfInt len=0 then []
      else
        let bufLen := bufLen + sizeOfInt len
        if bufferMaxSize=ssl3RtMaxPlainLength then [bufLen]
        else bufLen::bufLens bufferMaxSize reads bufLen
    else []

/-- The reads are those that the loop makes from `bufLen` on, or the first of them: each returns
a positive count up to what was asked, or -1. -/
inductive IsResults (n : UInt64) : UInt64 → List Int32 → Prop
  | nil {bufLen} : IsResults n bufLen []
  | read {bufLen len reads} (lt : bufLen < n)
      (result : (0 < len.toInt ∧ len.toInt ≤ (asked n bufLen).toInt) ∨ len = -1)
      (single : n=ssl3RtMaxPlainLength → reads=[])
      (next : IsResults n (bufLen + sizeOfInt len) reads) : IsResults n bufLen (len::reads)

/-- The counter is always the number of bytes received so far, and no more than were asked for;
and the call does not return more bytes than it received. -/
structure CounterIntact (n : UInt64) (stack : ℕ → UInt8) (reads : List Int32) (stream : Bytes) :
    Prop where
  counter : ∀ i bufLen, (bufLens n reads 0)[i]? = some bufLen →
    bufLen.toNat = (counts (reads.take (i+1))).sum ∧ bufLen ≤ n
  returned : ∀ msg rest, socketSslRecv n stack reads stream = .returned msg rest →
    msg.size.toNat ≤ (counts reads).sum

/-- One iteration of the loop. -/
lemma bufLens_cons {n bufLen : UInt64} {len : Int32} {reads : List Int32} (hlt : bufLen < n)
    (hlen : sizeOfInt len ≠ 0) (hsingle : n=ssl3RtMaxPlainLength → reads=[]) :
    bufLens n (len::reads) bufLen =
      (bufLen + sizeOfInt len)::bufLens n reads (bufLen + sizeOfInt len) := by
  rw [bufLens,if_pos hlt,if_neg hlen]
  by_cases hmax : n=ssl3RtMaxPlainLength
  · rw [if_pos hmax,hsingle hmax]
    rfl
  · rw [if_neg hmax]

/-- As long as no read fails, the counter follows what is received. -/
lemma bufLens_of_positive {n got : UInt64} {reads : List Int32} (h : IsResults n got reads)
    (hfail : -1 ∉ reads) (i : ℕ) {bufLen : UInt64} (hi : (bufLens n reads got)[i]? = some bufLen) :
    bufLen.toNat = got.toNat + (counts (reads.take (i+1))).sum ∧ bufLen ≤ n := by
  induction h generalizing i with
  | nil => simp [bufLens] at hi
  | @read got len reads hlt hresult hsingle _ ih =>
    rw [List.mem_cons,not_or] at hfail
    obtain ⟨hpos,hle⟩ := hresult.resolve_right (Ne.symm hfail.1)
    obtain ⟨hadd,hbound⟩ := read_bounds hlt hpos hle
    rw [bufLens_cons hlt (sizeOfInt_ne_zero hpos) hsingle] at hi
    cases i with
    | zero =>
      rw [List.getElem?_cons_zero,Option.some.injEq] at hi
      subst hi
      rw [UInt64.le_iff_toNat_le,hadd]
      exact ⟨by simp [counts],hbound⟩
    | succ i =>
      rw [List.getElem?_cons_succ] at hi
      obtain ⟨hsum,hn⟩ := ih hfail.2 i hi
      rw [hadd] at hsum
      simp only [counts,List.take_succ_cons,List.map_cons,List.sum_cons] at hsum ⊢
      exact ⟨by omega,hn⟩

lemma recvReturn_size {n bufLen : UInt64} {buf rest rest' : Bytes} {msg : QkdBytes}
    (h : recvReturn n buf bufLen rest = .returned msg rest') : msg.size.toNat ≤ bufLen.toNat := by
  rw [recvReturn] at h
  split_ifs at h
  cases h
  rw [← QkdBytes.size_eq,QkdBytes.ofBuffer,List.length_take,List.length_take]
  omega

/-- As long as no read fails, no more is returned than is received. -/
lemma recvLoop_size {n got : UInt64} {reads : List Int32} (h : IsResults n got reads)
    (hfail : -1 ∉ reads) {stream buf rest : Bytes} {msg : QkdBytes}
    (hr : recvLoop n reads stream buf got = .returned msg rest) :
    msg.size.toNat ≤ got.toNat + (counts reads).sum := by
  induction h generalizing stream buf with
  | nil =>
    rw [recvLoop] at hr
    split_ifs at hr
    exact recvReturn_size hr
  | @read got len reads hlt hresult hsingle _ ih =>
    rw [List.mem_cons,not_or] at hfail
    obtain ⟨hpos,hle⟩ := hresult.resolve_right (Ne.symm hfail.1)
    obtain ⟨hadd,-⟩ := read_bounds hlt hpos hle
    rw [recvLoop,if_pos hlt,if_neg (sizeOfInt_ne_zero hpos)] at hr
    simp only [counts,List.map_cons,List.sum_cons] at ih ⊢
    by_cases hmax : n=ssl3RtMaxPlainLength
    · simp only [if_pos hmax] at hr
      have hsize := recvReturn_size hr
      omega
    · simp only [if_neg hmax] at hr
      have hsize := ih hfail.2 hr
      omega

/-- A read that fails is counted, as one byte less. -/
lemma exists_bufLens_ne {n got : UInt64} {reads : List Int32} (h : IsResults n got reads)
    (hfail : -1 ∈ reads) :
    ∃ (i : ℕ) (bufLen : UInt64), (bufLens n reads got)[i]? = some bufLen ∧
      bufLen.toNat ≠ got.toNat + (counts (reads.take (i+1))).sum := by
  induction h with
  | nil => cases hfail
  | @read got len reads hlt hresult hsingle _ ih =>
    rcases hresult with ⟨hpos,hle⟩ | rfl
    · have hne : -1 ≠ len := by
        rintro rfl
        exact absurd hpos (by decide)
      obtain ⟨i,bufLen,hi,hsum⟩ := ih (List.mem_of_ne_of_mem hne hfail)
      obtain ⟨hadd,-⟩ := read_bounds hlt hpos hle
      refine ⟨i+1,bufLen,?_,?_⟩
      · rw [bufLens_cons hlt (sizeOfInt_ne_zero hpos) hsingle,List.getElem?_cons_succ,hi]
      · simp only [counts,List.take_succ_cons,List.map_cons,List.sum_cons] at hsum ⊢
        rw [hadd] at hsum
        omega
    · refine ⟨0,got + sizeOfInt (-1),?_,?_⟩
      · rw [bufLens_cons hlt (by decide) hsingle]
        rfl
      · have hminus : (sizeOfInt (-1)).toNat = 2^64-1 := by decide
        have hgot := got.toNat_lt
        have hnone : (counts (((-1 : Int32)::reads).take (0+1))).sum = 0 := rfl
        rw [UInt64.toNat_add,hminus,hnone]
        omega

/-- For every length and all results the reads of a call can have: the counter is intact
exactly when none of the reads failed. -/
theorem counter_intact_iff {n : UInt64} {reads : List Int32} (hn : 0 < n)
    (hreads : IsResults n 0 reads) (stack : ℕ → UInt8) (stream : Bytes) :
    CounterIntact n stack reads stream ↔ -1 ∉ reads := by
  constructor
  · intro h hfail
    obtain ⟨i,bufLen,hi,hsum⟩ := exists_bufLens_ne hreads hfail
    apply hsum
    rw [(h.counter i bufLen hi).1,UInt64.toNat_zero,Nat.zero_add]
  · intro hfail
    refine ⟨?_,?_⟩
    · intro i bufLen hi
      obtain ⟨hsum,hle⟩ := bufLens_of_positive hreads hfail i hi
      rw [UInt64.toNat_zero,Nat.zero_add] at hsum
      exact ⟨hsum,hle⟩
    · intro msg rest hr
      have hne : n≠0 := by
        rintro rfl
        exact absurd hn (by decide)
      rw [socketSslRecv,if_neg hne] at hr
      have hsize := recvLoop_size hreads hfail hr
      rwa [UInt64.toNat_zero,Nat.zero_add] at hsize

theorem counter_intact_two_reads :
    IsResults 3 0 [2,1] ∧ CounterIntact 3 (fun _ => 0) [2,1] [10,20,30] := by
  have hreads : IsResults 3 0 [2,1] :=
    .read (by decide) (.inl (by decide)) (by decide)
      (.read (by decide) (.inl (by decide)) (by decide) .nil)
  exact ⟨hreads,(counter_intact_iff (by decide) hreads _ _).mpr (by decide)⟩

/-- The first read fails: the counter is at once far beyond the buffer, and the call copies as
many bytes from it. -/
theorem failed_read_counted :
    IsResults 3 0 [-1] ∧ bufLens 3 [-1] 0 = [18446744073709551615] ∧
    socketSslRecv 3 (fun _ => 0) [-1] [10,20,30] = .overread ∧
    ¬ CounterIntact 3 (fun _ => 0) [-1] [10,20,30] := by
  have hlens : bufLens 3 [-1] 0 = [18446744073709551615] := by decide +kernel
  refine ⟨.read (by decide) (.inr rfl) (by decide) .nil,hlens,by decide +kernel,?_⟩
  intro h
  have hsum := (h.counter 0 18446744073709551615 (by rw [hlens]; rfl)).1
  exact absurd hsum (by decide)

end FailedReads
end EtsiQkd004
