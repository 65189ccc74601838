import EtsiQkd004.Models
import EtsiQkd004.Library.Overlay

/-! The receive loop over the results of `SSL_read`. Every read is made into the start of the
buffer, whatever has been received before it. -/
namespace EtsiQkd004
open Overlay

/-- `SSL3_RT_MAX_PLAIN_LENGTH` -/
def ssl3RtMaxPlainLength : UInt64 := 16384

/-- An `int` converted to `size_t`. -/
def sizeOfInt (len : Int32) : UInt64 := UInt64.ofInt len.toInt

/-- The number of bytes a read is asked for, a `size_t` difference converted to `int`. -/
def asked (bufferMaxSize bufLen : UInt64) : Int32 := Int32.ofNat (bufferMaxSize - bufLen).toNat

/-- How a receive ends, for the reads it is given: with a message and the bytes still to come,
with `exit` once the peer has closed, with a copy of more bytes than the buffer has, or not
before further reads. -/
inductive Recv
  | returned (msg : QkdBytes) (rest : Bytes)
  | exited
  | overread
  | waiting
  deriving DecidableEq

/-- The message is a copy of the first `bufLen` bytes of the buffer. -/
def recvReturn (bufferMaxSize : UInt64) (buf : Bytes) (bufLen : UInt64) (rest : Bytes) : Recv :=
  if bufLen ≤ bufferMaxSize then .returned (QkdBytes.ofBuffer (buf.take bufLen.toNat)) rest
  else .overread

/-- The loop, given the results of the reads still to be made and the bytes still to come. A
positive result `len` has written the next `len` bytes at `buf`; a negative one is only
reported before it is added like any other. -/
def recvLoop (bufferMaxSize : UInt64) : List Int32 → Bytes → Bytes → UInt64 → Recv
  | [],stream,buf,bufLen =>
    if bufLen < bufferMaxSize then .waiting else recvReturn bufferMaxSize buf bufLen stream
  | len::reads,stream,buf,bufLen =>
    if bufLen < bufferMaxSize then
      if sizeOfInt len=0 then .exited
      else
        let buf := overlay (stream.take len.toInt.toNat) buf
        let stream := stream.drop len.toInt.toNat
        let bufLen := bufLen + sizeOfInt len
        if bufferMaxSize=ssl3RtMaxPlainLength then recvReturn bufferMaxSize buf bufLen stream
        else recvLoop bufferMaxSize reads stream buf bufLen
    else recvReturn bufferMaxSize buf bufLen stream

/-- `stack` is the memory in which the buffer is laid out, without initialising it. -/
def socketSslRecv (bufferMaxSize : UInt64) (stack : ℕ → UInt8) (reads : List Int32)
    (stream : Bytes) : Recv :=
  let bufferMaxSize := if bufferMaxSize=0 then ssl3RtMaxPlainLength else bufferMaxSize
  recvLoop bufferMaxSize reads stream ((List.range bufferMaxSize.toNat).map stack) 0

/-- The reads split the `n - got` bytes still to be received: each returns a positive count up
to what was asked, until nothing is missing. -/
inductive IsSplit (n : UInt64) : UInt64 → List Int32 → Prop
  | done : IsSplit n n []
  | read {got len reads} (lt : got < n) (pos : 0 < len.toInt)
      (le : len.toInt ≤ (asked n got).toInt) (next : IsSplit n (got + sizeOfInt len) reads) :
      IsSplit n got (len::reads)

/-- The counts of a list of positive results. -/
def counts (reads : List Int32) : List ℕ := reads.map fun len => len.toInt.toNat

section Conversions

lemma sizeOfInt_toNat {len : Int32} (h : 0 < len.toInt) :
    (sizeOfInt len).toNat = len.toInt.toNat := by
  have hlt := len.toInt_lt
  simp only [sizeOfInt,UInt64.ofInt,UInt64.toNat_ofNat']
  omega

lemma sizeOfInt_ne_zero {len : Int32} (h : 0 < len.toInt) : sizeOfInt len ≠ 0 := by
  intro h0
  have hsize := sizeOfInt_toNat h
  rw [h0,UInt64.toNat_zero] at hsize
  omega

/-- The conversion to `int` can only lower what is asked for. -/
lemma asked_le (n got : UInt64) : (asked n got).toInt ≤ ((n - got).toNat : Int) := by
  rw [asked,Int32.toInt_ofNat']
  simp only [Int.bmod,Int32.size]
  split
  · omega
  · omega

/-- One read of a split, in natural numbers. -/
lemma read_bounds {n got : UInt64} {len : Int32} (hlt : got < n) (hpos : 0 < len.toInt)
    (hle : len.toInt ≤ (asked n got).toInt) :
    (got + sizeOfInt len).toNat = got.toNat + len.toInt.toNat ∧
      got.toNat + len.toInt.toNat ≤ n.toNat := by
  have ha := asked_le n got
  have hg := UInt64.lt_iff_toNat_lt.mp hlt
  rw [UInt64.toNat_sub_of_le _ _ (UInt64.le_of_lt hlt)] at ha
  have hn := n.toNat_lt
  rw [UInt64.toNat_add,sizeOfInt_toNat hpos]
  omega

end Conversions

/-- The counts of a split are positive and add up to what was missing. -/
lemma IsSplit.sum_counts {n got : UInt64} {reads : List Int32} (h : IsSplit n got reads) :
    got.toNat + (counts reads).sum = n.toNat ∧ ∀ c ∈ counts reads, 0 < c := by
  induction h with
  | done => simp [counts]
  | @read got len reads hlt hpos hle _ ih =>
    obtain ⟨hadd,-⟩ := read_bounds hlt hpos hle
    simp only [counts,List.map_cons,List.sum_cons,List.forall_mem_cons] at ih ⊢
    rw [hadd] at ih
    refine ⟨by omega,by omega,ih.2⟩

/-- Over a split, the loop keeps going to its end and leaves every read at the front. It does
not come to the results of any further reads. -/
lemma recvLoop_split {n got : UInt64} {reads : List Int32} (h : IsSplit n got reads)
    (hmax : n≠ssl3RtMaxPlainLength) (more : List Int32) (stream buf : Bytes) :
    recvLoop n (reads ++ more) stream buf got =
      .returned (QkdBytes.ofBuffer ((overlays (counts reads) stream buf).take n.toNat))
        (stream.drop (counts reads).sum) := by
  induction h generalizing stream buf with
  | done =>
    cases more with
    | nil => simp [recvLoop,recvReturn,counts,overlays]
    | cons len more => simp [recvLoop,recvReturn,counts,overlays]
  | @read got len reads hlt hpos hle _ ih =>
    rw [List.cons_append,recvLoop,if_pos hlt,if_neg (sizeOfInt_ne_zero hpos)]
    simp only [if_neg hmax,ih,List.drop_drop]
    rfl

/-- The call returns the first `n` bytes of the stream and leaves the others unread. -/
def Reassembles (n : UInt64) (stack : ℕ → UInt8) (reads : List Int32) (stream : Bytes) : Prop :=
  ∃ msg, socketSslRecv n stack reads stream = .returned msg (stream.drop n.toNat) ∧
    msg.data = stream.take n.toNat

/-- Every byte position holds what the stream has there: what the last read that reached the
position wrote to it, or else what was in memory before. -/
def Undisturbed (n : UInt64) (stack : ℕ → UInt8) (reads : List Int32) (stream : Bytes) : Prop :=
  ∀ i < n.toNat, (source (counts reads) i).elim (some (stack i)) (fun j => stream[j]?) = stream[i]?

section Split
variable {n : UInt64} {reads : List Int32} (hn : 0 < n) (hmax : n≠ssl3RtMaxPlainLength)
  (hsplit : IsSplit n 0 reads)
include hsplit

lemma overlays_split_length (stack : ℕ → UInt8) (stream : Bytes) :
    (overlays (counts reads) stream ((List.range n.toNat).map stack)).length = n.toNat := by
  obtain ⟨hsum,-⟩ := hsplit.sum_counts
  rw [UInt64.toNat_zero] at hsum
  rw [overlays_length,List.length_map,List.length_range]
  rw [List.length_map,List.length_range]
  omega

include hn hmax

/-- What a receive over a split returns. -/
lemma socketSslRecv_split (more : List Int32) (stack : ℕ → UInt8) (stream : Bytes) :
    socketSslRecv n stack (reads ++ more) stream =
      .returned (QkdBytes.ofBuffer
        (overlays (counts reads) stream ((List.range n.toNat).map stack)))
        (stream.drop n.toNat) := by
  have hne : n≠0 := by
    rintro rfl
    exact absurd hn (by decide)
  obtain ⟨hsum,-⟩ := hsplit.sum_counts
  rw [UInt64.toNat_zero,Nat.zero_add] at hsum
  have hlen := overlays_split_length hsplit stack stream
  rw [socketSslRecv,if_neg hne,recvLoop_split hsplit hmax,hsum,
    List.take_of_length_le (Nat.le_of_eq hlen)]

/-- Reads that are not made do not matter. -/
lemma reassembles_append (more : List Int32) (stack : ℕ → UInt8) (stream : Bytes) :
    Reassembles n stack (reads ++ more) stream ↔ Reassembles n stack reads stream := by
  have h := socketSslRecv_split hn hmax hsplit [] stack stream
  rw [List.append_nil] at h
  rw [Reassembles,Reassembles,socketSslRecv_split hn hmax hsplit more,h]

/-- The message is right exactly when its length fits the 32-bit size field and every byte
position is undisturbed. -/
lemma reassembles_iff {stream : Bytes} (hstream : n.toNat ≤ stream.length) (stack : ℕ → UInt8) :
    Reassembles n stack reads stream ↔ n.toNat < 2^32 ∧ Undisturbed n stack reads stream := by
  have hlen := overlays_split_length hsplit stack stream
  obtain ⟨hsum,-⟩ := hsplit.sum_counts
  rw [UInt64.toNat_zero,Nat.zero_add] at hsum
  have hget (i : ℕ) (hi : i < n.toNat) :
      (overlays (counts reads) stream ((List.range n.toNat).map stack))[i]? =
        (source (counts reads) i).elim (some (stack i)) (fun j => stream[j]?) := by
    rw [overlays_getElem? (by omega)]
    simp [hi]
  have hbuf : overlays (counts reads) stream ((List.range n.toNat).map stack) =
      stream.take n.toNat ↔ Undisturbed n stack reads stream := by
    constructor
    · intro h i hi
      rw [← hget i hi,h,List.getElem?_take,if_pos hi]
    · intro h
      apply List.ext_getElem?
      intro i
      by_cases hi : i < n.toNat
      · rw [hget i hi,h i hi,List.getElem?_take,if_pos hi]
      · rw [List.getElem?_eq_none (by omega),List.getElem?_take,if_neg hi]
  rw [← hbuf]
  have hrecv := socketSslRecv_split hn hmax hsplit [] stack stream
  rw [List.append_nil] at hrecv
  simp only [Reassembles,hrecv,Recv.returned.injEq,and_true,exists_eq_left']
  constructor
  · intro h
    have hfit : n.toNat < 2^32 := by
      have hl := congrArg List.length h
      rw [List.length_take,Nat.min_eq_left hstream] at hl
      rw [← hl]
      exact QkdBytes.length_lt _
    rw [QkdBytes.ofBuffer_data (by omega)] at h
    exact ⟨hfit,h⟩
  · rintro ⟨hfit,h⟩
    rw [QkdBytes.ofBuffer_data (by omega),h]

end Split

/-- The last byte of a message that came in several reads is never written. -/
lemma IsSplit.source_last {n : UInt64} {len len' : Int32} {reads : List Int32}
    (h : IsSplit n 0 (len::len'::reads)) :
    source (counts (len::len'::reads)) (n.toNat-1) = none := by
  obtain ⟨hsum,hpos⟩ := h.sum_counts
  simp only [counts,List.map_cons,List.sum_cons,List.forall_mem_cons,UInt64.toNat_zero] at hsum hpos
  have hlen : ¬ n.toNat-1 < len.toInt.toNat := by omega
  simp only [counts,List.map_cons]
  rw [source,source_eq_none (by rw [List.sum_cons]; omega),if_neg hlen]
  rfl

/-- A single read is left as it was written. -/
lemma undisturbed_single {n : UInt64} {len : Int32} (h : IsSplit n 0 [len]) (stack : ℕ → UInt8)
    (stream : Bytes) : Undisturbed n stack [len] stream := by
  obtain ⟨hsum,-⟩ := h.sum_counts
  simp only [counts,List.map_cons,List.map_nil,List.sum_cons,List.sum_nil,UInt64.toNat_zero] at hsum
  intro i hi
  have hlen : i < len.toInt.toNat := by omega
  simp only [counts,List.map_cons,List.map_nil,source,Option.map_none,Option.none_or,if_pos hlen,
    Option.elim_some]

/-- For a message that is not read in one go, some stream and some memory go wrong. -/
lemma not_reassembles_of_reads {n : UInt64} {len len' : Int32} {reads : List Int32} (hn : 0 < n)
    (hmax : n≠ssl3RtMaxPlainLength) (h : IsSplit n 0 (len::len'::reads)) :
    ¬ Reassembles n (fun _ => 0) (len::len'::reads) (List.replicate n.toNat 1) := by
  rw [reassembles_iff hn hmax h (by simp)]
  rintro ⟨-,hu⟩
  have hpos : 0 < n.toNat := UInt64.lt_iff_toNat_lt.mp hn
  have hlast := hu (n.toNat-1) (by omega)
  rw [h.source_last,List.getElem?_replicate,if_pos (by omega)] at hlast
  change some (0 : UInt8) = some 1 at hlast
  exact absurd hlast (by decide)

/-- For every way the reads may split the message: when a stream and the memory of the buffer
come out right, and that all of them do exactly if one read returned all there is to read. -/
theorem socketSslRecv_reassembles_iff {n : UInt64} {reads : List Int32} (hn : 0 < n)
    (hmax : n≠ssl3RtMaxPlainLength) (hsplit : IsSplit n 0 reads) :
    (∀ stack stream, n.toNat ≤ stream.length →
      (Reassembles n stack reads stream ↔ n.toNat < 2^32 ∧ Undisturbed n stack reads stream)) ∧
    ((∀ stack stream, n.toNat ≤ stream.length → Reassembles n stack reads stream) ↔
      reads.length=1) := by
  refine ⟨fun stack stream hstream => reassembles_iff hn hmax hsplit hstream stack,?_⟩
  constructor
  · intro h
    cases hsplit with
    | done => exact absurd hn (by decide)
    | @read _ len reads hlt hpos hle hnext =>
      cases reads with
      | nil => rfl
      | cons len' reads =>
        have hwrong := not_reassembles_of_reads hn hmax (.read hlt hpos hle hnext)
        exact absurd (h (fun _ => 0) (List.replicate n.toNat 1) (by simp)) hwrong
  · intro hone stack stream hstream
    obtain ⟨len,rfl⟩ := List.length_eq_one_iff.mp hone
    have hfit : n.toNat < 2^32 := by
      obtain ⟨hsum,-⟩ := hsplit.sum_counts
      have hlt := len.toInt_lt
      simp only [counts,List.map_cons,List.map_nil,List.sum_cons,List.sum_nil,
        UInt64.toNat_zero] at hsum
      omega
    exact (reassembles_iff hn hmax hsplit hstream stack).mpr
      ⟨hfit,undisturbed_single hsplit stack stream⟩

theorem three_bytes_in_one_read :
    IsSplit 3 0 [3] ∧ Reassembles 3 (fun _ => 0) [3] [10,20,30,40] := by
  have hsplit : IsSplit 3 0 [3] := .read (by decide) (by decide) (by decide) .done
  have h := (socketSslRecv_reassembles_iff (by decide) (by decide) hsplit).2.mpr rfl
  exact ⟨hsplit,h (fun _ => 0) [10,20,30,40] (by decide)⟩

/-- Two bytes and then one: the third overwrites the first and its own place keeps what was in
memory. -/
theorem three_bytes_in_two_reads :
    IsSplit 3 0 [2,1] ∧
    socketSslRecv 3 (fun _ => 0) [2,1] [10,20,30] = .returned ⟨3,[30,20,0],rfl⟩ [] ∧
    ¬ Reassembles 3 (fun _ => 0) [2,1] [10,20,30] := by
  have hr : socketSslRecv 3 (fun _ => 0) [2,1] [10,20,30] = .returned ⟨3,[30,20,0],rfl⟩ [] := by
    decide +kernel
  refine ⟨.read (by decide) (by decide) (by decide)
    (.read (by decide) (by decide) (by decide) .done),hr,?_⟩
  rintro ⟨msg,hmsg,hdata⟩
  rw [hr] at hmsg
  cases hmsg
  exact absurd hdata (by decide)

end EtsiQkd004
