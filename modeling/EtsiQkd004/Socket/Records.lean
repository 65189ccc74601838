import EtsiQkd004.Socket.Counter
import EtsiQkd004.Socket.OpenSsl

/-! A receive from a peer that has sent some TLS records and then closed the connection. -/
namespace EtsiQkd004
open Chunks OpenSsl Overlay

/-- The results of at most `k` reads of the loop. None follows one that is refused, or that finds
the connection closed. -/
def sslReads [OpenSsl] (bufferMaxSize : UInt64) : ℕ → UInt64 → List Bytes → List Int32
  | 0,_,_ => []
  | k+1,bufLen,records =>
    let len := sslRead (asked bufferMaxSize bufLen) records
    if 0 < len.toInt then
      len::sslReads bufferMaxSize k (bufLen + sizeOfInt len) (skip len.toInt.toNat records)
    else [len]

/-- `socket_ssl_recv` over the records. Every read but the last brings a byte. -/
def recvRecords [OpenSsl] (bufferMaxSize : UInt64) (stack : ℕ → UInt8) (records : List Bytes) :
    Recv :=
  let size := if bufferMaxSize=0 then ssl3RtMaxPlainLength else bufferMaxSize
  socketSslRecv bufferMaxSize stack (sslReads size (records.flatten.length+1) 0 records)
    records.flatten

/-- The message that a single read brings, from a record with these bytes left. -/
def arrived (n : UInt32) (chunk : Bytes) : Option Bytes :=
  if n=0 ∨ n=16384 then if chunk=[] then none else some chunk
  else if n.toNat ≤ chunk.length then some (chunk.take n.toNat)
  else none

section Asked

/-- Below 2^31 bytes the conversion to `int` loses nothing. -/
lemma asked_toInt {size bufLen : UInt64} (h : (size - bufLen).toNat < 2^31) :
    (asked size bufLen).toInt = (size - bufLen).toNat := by
  rw [asked]
  exact Int32.toInt_ofNat_of_lt h

lemma asked_nonneg {size bufLen : UInt64} (h : (size - bufLen).toNat < 2^31) :
    ¬ asked size bufLen < 0 := by
  rw [Int32.lt_iff_toInt_lt,asked_toInt h,Int32.toInt_zero]
  omega

/-- A read that is not refused was asked for less than 2^31 bytes. -/
lemma lt_of_asked_nonneg {size bufLen : UInt64} (hsize : size.toNat < 2^32)
    (hlt : bufLen < size) (h : ¬ asked size bufLen < 0) : (size - bufLen).toNat < 2^31 := by
  have hsub := UInt64.toNat_sub_of_le _ _ (UInt64.le_of_lt hlt)
  rw [Int32.lt_iff_toInt_lt,asked,Int32.toInt_ofNat',Int32.toInt_zero] at h
  simp only [Int.bmod,Int32.size] at h
  omega

/-- More than that, in 32 bits, is negative as an `int`. -/
lemma asked_neg {size bufLen : UInt64} (h : 2^31 ≤ (size - bufLen).toNat)
    (hlt : (size - bufLen).toNat < 2^32) : asked size bufLen < 0 := by
  rw [Int32.lt_iff_toInt_lt,asked,Int32.toInt_ofNat',Int32.toInt_zero]
  simp only [Int.bmod,Int32.size]
  omega

lemma asked_pos {size bufLen : UInt64} (hlt : bufLen < size) (h : (size - bufLen).toNat < 2^31) :
    0 < asked size bufLen := by
  have hsub := UInt64.toNat_sub_of_le _ _ (UInt64.le_of_lt hlt)
  have hlt' := UInt64.lt_iff_toNat_lt.mp hlt
  rw [Int32.lt_iff_toInt_lt,asked_toInt h,Int32.toInt_zero]
  omega

/-- One read may return all that is asked for. -/
lemma isSplit_one {size : UInt64} (hpos : 0 < size) (hsize : size.toNat < 2^31) :
    IsSplit size 0 [Int32.ofNat size.toNat] := by
  have hlen : (Int32.ofNat size.toNat).toInt = size.toNat := Int32.toInt_ofNat_of_lt hsize
  have hlen0 : 0 < (Int32.ofNat size.toNat).toInt := by
    have h0 : 0 < size.toNat := UInt64.lt_iff_toNat_lt.mp hpos
    omega
  have hgot : 0 + sizeOfInt (Int32.ofNat size.toNat) = size := by
    apply UInt64.toNat_inj.mp
    rw [UInt64.zero_add,sizeOfInt_toNat hlen0,hlen,Int.toNat_natCast]
  have hasked : (asked size 0).toInt = size.toNat := by
    rw [asked_toInt (by rwa [UInt64.sub_zero]),UInt64.sub_zero]
  refine .read hpos hlen0 (by omega) ?_
  rw [hgot]
  exact .done

end Asked

section Reads
variable [OpenSsl] {size bufLen : UInt64} {records : List Bytes}

lemma sslReads_refused (h : asked size bufLen < 0) (k : ℕ) (records : List Bytes) :
    sslReads size (k+1) bufLen records = [-1] := by
  simp only [sslReads,read_refused records h]
  rfl

/-- Nothing is left to be read. -/
lemma sslReads_closed (hlt : bufLen < size) (hnum : (size - bufLen).toNat < 2^31)
    (h : first records = []) (k : ℕ) : sslReads size (k+1) bufLen records = [0] := by
  simp only [sslReads,read_closed (asked_pos hlt hnum) h]
  rfl

/-- A read takes from the first record that is not empty. -/
lemma sslRead_toInt (hlt : bufLen < size) (hnum : (size - bufLen).toNat < 2^31)
    (h : first records ≠ []) :
    (sslRead (asked size bufLen) records).toInt =
      (min (size.toNat - bufLen.toNat) (first records).length : ℕ) := by
  have hsub := UInt64.toNat_sub_of_le _ _ (UInt64.le_of_lt hlt)
  rw [OpenSsl.read_record (asked_pos hlt hnum) h,asked_toInt hnum,Int.toNat_natCast,hsub]
  exact Int32.toInt_ofNat_of_lt (by omega)

/-- One read of a record: it brings a byte, and not more than was asked for. -/
lemma sslRead_bounds (hlt : bufLen < size) (hnum : (size - bufLen).toNat < 2^31)
    (h : first records ≠ []) :
    let len := sslRead (asked size bufLen) records
    0 < len.toInt ∧ len.toInt ≤ (asked size bufLen).toInt ∧
      len.toInt.toNat ≤ records.flatten.length := by
  have hlen := sslRead_toInt hlt hnum h
  have hpos := List.length_pos_iff.mpr h
  have hle := (first_initial records).length_le
  have hsub := UInt64.toNat_sub_of_le _ _ (UInt64.le_of_lt hlt)
  have hlt' := UInt64.lt_iff_toNat_lt.mp hlt
  intro len
  rw [asked_toInt hnum]
  change (len.toInt) = _ at hlen
  omega

lemma sslReads_record (hlt : bufLen < size) (hnum : (size - bufLen).toNat < 2^31)
    (h : first records ≠ []) (k : ℕ) :
    let len := sslRead (asked size bufLen) records
    sslReads size (k+1) bufLen records =
      len::sslReads size k (bufLen + sizeOfInt len) (skip len.toInt.toNat records) := by
  intro len
  rw [sslReads,if_pos (sslRead_bounds hlt hnum h).1]

lemma sslReads_first (hpos : 0 < size) (hsize : size.toNat < 2^31) (h : first records ≠ []) (k : ℕ) :
    ∃ more, sslReads size (k+1) 0 records =
      Int32.ofNat (min size.toNat (first records).length)::more := by
  rw [← UInt64.sub_zero (a := size)] at hsize
  have hread := OpenSsl.read_record (asked_pos hpos hsize) h
  rw [asked_toInt hsize,Int.toNat_natCast,UInt64.sub_zero] at hread
  rw [sslReads_record hpos hsize h,hread]
  exact ⟨_,rfl⟩

end Reads

section OneRead
variable [OpenSsl]

/-- A message that is within the first record is received as it was sent. -/
lemma recvRecords_one {n : UInt32} (hn : n≠0) (hmax : n≠16384) {records : List Bytes}
    (hle : n.toNat ≤ (first records).length) (hlt : n.toNat < 2^31) (stack : ℕ → UInt8) :
    ∃ msg, recvRecords n.toUInt64 stack records =
        .returned msg (records.flatten.drop n.toNat) ∧
      msg.data = (first records).take n.toNat := by
  have hpos := toUInt64_pos hn
  have hne := toUInt64_ne_max hmax
  have hsize := UInt32.toNat_toUInt64 n
  have hfirst : first records ≠ [] := by
    intro h
    rw [h,List.length_nil] at hle
    exact hn (UInt32.toNat_inj.mp (Nat.le_zero.mp hle))
  have hlt64 : n.toUInt64.toNat < 2^31 := by omega
  obtain ⟨more,hreads⟩ := sslReads_first hpos hlt64 hfirst records.flatten.length
  rw [hsize,Nat.min_eq_left hle] at hreads
  have hsplit := isSplit_one hpos hlt64
  rw [hsize] at hsplit
  obtain ⟨later,hlater⟩ := first_initial records
  have hstream : n.toUInt64.toNat ≤ records.flatten.length := by
    rw [hsize,← hlater,List.length_append]
    omega
  have hgood := (reassembles_iff hpos hne hsplit hstream stack).mpr
    ⟨by omega,undisturbed_single hsplit stack _⟩
  obtain ⟨msg,hmsg,hdata⟩ := (reassembles_append hpos hne hsplit more stack _).mpr hgood
  rw [hsize] at hmsg hdata
  refine ⟨msg,?_,?_⟩
  · rw [recvRecords,if_neg (toUInt64_ne_zero hn),hreads]
    exact hmsg
  · rw [hdata,← hlater,List.take_append_of_le_length hle]

/-- A size of 16384 bytes is no size to the loop either. -/
lemma recvRecords_unsized {n : UInt32} (hn : n=0 ∨ n=16384) (stack : ℕ → UInt8)
    (records : List Bytes) :
    recvRecords n.toUInt64 stack records = socketSslRecv 0 stack
      (sslReads ssl3RtMaxPlainLength (records.flatten.length+1) 0 records) records.flatten := by
  rcases hn with rfl | rfl
  · rfl
  · rfl

/-- Without a size, what is left of the first record is received, up to 2^14 bytes. -/
lemma recvRecords_any {n : UInt32} (hn : n=0 ∨ n=16384) {records : List Bytes}
    (hfirst : first records ≠ []) (stack : ℕ → UInt8) :
    ∃ msg, recvRecords n.toUInt64 stack records =
        .returned msg (records.flatten.drop (min 16384 (first records).length)) ∧
      msg.data = (first records).take 16384 := by
  have hmax : ssl3RtMaxPlainLength.toNat < 2^31 := by decide
  obtain ⟨more,hreads⟩ := sslReads_first (of_decide_eq_true rfl) hmax hfirst records.flatten.length
  change _ = Int32.ofNat (min 16384 (first records).length)::more at hreads
  have hlen : (Int32.ofNat (min 16384 (first records).length)).toInt =
      (min 16384 (first records).length : ℕ) := Int32.toInt_ofNat_of_lt (by omega)
  have hfirst0 := List.length_pos_iff.mpr hfirst
  have hpos : 0 < (Int32.ofNat (min 16384 (first records).length)).toInt := by omega
  obtain ⟨later,hlater⟩ := first_initial records
  have hstream : (Int32.ofNat (min 16384 (first records).length)).toInt.toNat ≤
      records.flatten.length := by
    rw [← hlater,List.length_append]
    omega
  obtain ⟨msg,hmsg,hdata⟩ := socketSslRecv_any hpos (by omega) hstream more stack
  rw [hlen,Int.toNat_natCast] at hmsg hdata
  refine ⟨msg,by rw [recvRecords_unsized hn,hreads,hmsg],?_⟩
  rw [hdata,← hlater,List.take_append_of_le_length (Nat.min_le_right _ _),← List.take_take,
    List.take_length]

/-- What a single read can bring is received. -/
lemma recvRecords_arrived {n : UInt32} {records : List Bytes} {payload : Bytes}
    (h : arrived n (first records) = some payload) (hle : (first records).length ≤ 16384)
    (stack : ℕ → UInt8) :
    ∃ msg, recvRecords n.toUInt64 stack records =
        .returned msg (records.flatten.drop payload.length) ∧
      msg.data = payload := by
  rw [arrived] at h
  split_ifs at h with hn hfirst hlen
  · obtain rfl := Option.some.inj h
    have hany := recvRecords_any hn hfirst stack
    rwa [Nat.min_eq_right hle,List.take_of_length_le hle] at hany
  · obtain rfl := Option.some.inj h
    rw [not_or] at hn
    rw [List.length_take,Nat.min_eq_left hlen]
    exact recvRecords_one hn.1 hn.2 hlen (by omega) stack

end OneRead

section Closed

/-- A refused read ends the receive with a copy of more than the buffer. -/
lemma recvLoop_refused {size bufLen : UInt64} (hsize : size.toNat < 2^32)
    (hinv : bufLen=0 ∨ (size - bufLen).toNat < 2^31) (hneg : asked size bufLen < 0)
    (hlt : bufLen < size) (stream buf : Bytes) : recvLoop size [-1] stream buf bufLen = .overread := by
  obtain rfl : bufLen = 0 := by
    rcases hinv with h | h
    · exact h
    · exact absurd hneg (asked_nonneg h)
  have hfull : ¬ 0 + sizeOfInt (-1) ≤ size := by
    rw [UInt64.le_iff_toNat_le]
    change ¬ 2^64-1 ≤ size.toNat
    omega
  have hout : ¬ 0 + sizeOfInt (-1) < size := fun h => hfull (UInt64.le_of_lt h)
  rw [recvLoop,if_pos hlt,if_neg (by decide)]
  simp only [recvLoop,if_neg hout,recvReturn,if_neg hfull,ite_self]

/-- How a receive can end that has `n` bytes still to come from a peer that has closed: it does
not go on waiting, and does not return unless these are enough. -/
def EndsWith (size bufLen : UInt64) (n : ℕ) (r : Recv) : Prop :=
  r ≠ .waiting ∧ ∀ msg rest, r = .returned msg rest →
    size=ssl3RtMaxPlainLength ∨ size.toNat ≤ bufLen.toNat + n

lemma EndsWith.mono {size bufLen bufLen' : UInt64} {n n' : ℕ} {r : Recv}
    (h : EndsWith size bufLen n r) (hle : bufLen.toNat + n ≤ bufLen'.toNat + n') :
    EndsWith size bufLen' n' r := by
  refine ⟨h.1,?_⟩
  intro msg rest hr
  rcases h.2 msg rest hr with hmax | hn
  · exact Or.inl hmax
  · exact Or.inr (by omega)

lemma endsWith_recvReturn {size bufLen : UInt64} {n : ℕ}
    (h : size=ssl3RtMaxPlainLength ∨ size.toNat ≤ bufLen.toNat + n) (buf : Bytes)
    (got : UInt64) (rest : Bytes) : EndsWith size bufLen n (recvReturn size buf got rest) := by
  refine ⟨?_,fun _ _ _ => h⟩
  rw [recvReturn]
  split_ifs
  · simp
  · simp

lemma endsWith_dead {size bufLen : UInt64} {n : ℕ} {r : Recv} (h : r = .exited ∨ r = .overread) :
    EndsWith size bufLen n r := by
  rcases h with rfl | rfl
  · simp [EndsWith]
  · simp [EndsWith]

/-- A full buffer is returned without a further read. -/
lemma endsWith_full {size bufLen : UInt64} (h : ¬ bufLen < size) (n : ℕ) (reads : List Int32)
    (stream buf : Bytes) : EndsWith size bufLen n (recvLoop size reads stream buf bufLen) := by
  have hloop : recvLoop size reads stream buf bufLen = recvReturn size buf bufLen stream := by
    cases reads with
    | nil => rw [recvLoop,if_neg h]
    | cons len reads => rw [recvLoop,if_neg h]
  rw [UInt64.lt_iff_toNat_lt] at h
  rw [hloop]
  exact endsWith_recvReturn (Or.inr (by omega)) _ _ _

variable [OpenSsl]

/-- The loop over the reads from a peer that has closed. -/
lemma recvLoop_endsWith {size : UInt64} (hsize : size.toNat < 2^32) {bufLen : UInt64}
    (hinv : bufLen=0 ∨ (size - bufLen).toNat < 2^31) {records : List Bytes} {k : ℕ}
    (hk : records.flatten.length < k) (stream buf : Bytes) :
    EndsWith size bufLen records.flatten.length
      (recvLoop size (sslReads size k bufLen records) stream buf bufLen) := by
  induction k generalizing bufLen records stream buf with
  | zero => omega
  | succ k ih =>
    by_cases hlt : bufLen < size
    · by_cases hneg : asked size bufLen < 0
      · rw [sslReads_refused hneg]
        exact endsWith_dead (Or.inr (recvLoop_refused hsize hinv hneg hlt stream buf))
      have hnum := lt_of_asked_nonneg hsize hlt hneg
      by_cases hfirst : first records = []
      · rw [sslReads_closed hlt hnum hfirst,recvLoop,if_pos hlt]
        exact endsWith_dead (Or.inl rfl)
      obtain ⟨hpos,hle,hstream⟩ := sslRead_bounds hlt hnum hfirst
      rw [sslReads_record hlt hnum hfirst]
      generalize sslRead (asked size bufLen) records = len at hpos hle hstream ⊢
      obtain ⟨hgot,hfits⟩ := read_bounds hlt hpos hle
      rw [recvLoop,if_pos hlt,if_neg (sizeOfInt_ne_zero hpos)]
      simp only
      split_ifs with hmax
      · exact endsWith_recvReturn (Or.inl hmax) _ _ _
      have hle' : bufLen + sizeOfInt len ≤ size := by
        rw [UInt64.le_iff_toNat_le,hgot]
        exact hfits
      have hsub := UInt64.toNat_sub_of_le _ _ (UInt64.le_of_lt hlt)
      have hsub' := UInt64.toNat_sub_of_le _ _ hle'
      have hrest : (skip len.toInt.toNat records).flatten.length =
          records.flatten.length - len.toInt.toNat := by rw [flatten_skip,List.length_drop]
      -- the counter only grows, so that no later read is refused either
      apply (ih (Or.inr (by omega)) (by omega) _ _).mono
      omega
    · exact endsWith_full hlt _ _ _ _

lemma recvRecords_ne_waiting (n : UInt32) (stack : ℕ → UInt8) (records : List Bytes) :
    recvRecords n.toUInt64 stack records ≠ .waiting := by
  rw [recvRecords,socketSslRecv]
  apply (recvLoop_endsWith ?_ (Or.inl rfl) (Nat.lt_succ_self _) _ _).1
  split_ifs
  · decide
  · rw [UInt32.toNat_toUInt64]
    exact n.toNat_lt

/-- A message that is cut short, or that never comes, is not received. -/
lemma recvRecords_short {n : UInt32} {records : List Bytes}
    (h : arrived n (first records) = none)
    (hshort : n=0 ∨ n=16384 ∨ records.flatten.length < n.toNat) (stack : ℕ → UInt8) (msg : QkdBytes)
    (rest : Bytes) : recvRecords n.toUInt64 stack records ≠ .returned msg rest := by
  by_cases hn : n=0 ∨ n=16384
  · rw [arrived,if_pos hn] at h
    have hfirst : first records = [] := by
      by_contra hne
      rw [if_neg hne] at h
      contradiction
    have hlt : 0 < ssl3RtMaxPlainLength := by decide
    rw [recvRecords_unsized hn,sslReads_closed hlt (by decide) hfirst,socketSslRecv,if_pos rfl,
      recvLoop,if_pos hlt]
    intro hmsg
    cases hmsg
  · rw [not_or] at hn
    obtain hlen : records.flatten.length < n.toNat := by
      rcases hshort with h0 | hmax | hlen
      · exact absurd h0 hn.1
      · exact absurd hmax hn.2
      · exact hlen
    have hsize := UInt32.toNat_toUInt64 n
    intro hmsg
    rw [recvRecords,socketSslRecv,if_neg (toUInt64_ne_zero hn.1)] at hmsg
    rcases (recvLoop_endsWith (by rw [hsize]; exact n.toNat_lt) (Or.inl rfl) (Nat.lt_succ_self _)
      _ _).2 _ _ hmsg with hmax | hle
    · exact toUInt64_ne_max hn.2 hmax
    · rw [hsize,UInt64.toNat_zero] at hle
      omega

end Closed

section SeveralReads
variable [OpenSsl]

/-- The reads split what is asked for, if there are as many bytes. -/
lemma sslReads_split {size : UInt64} (hsize : size.toNat < 2^31) {bufLen : UInt64}
    (hle : bufLen ≤ size) {records : List Bytes}
    (henough : size.toNat ≤ bufLen.toNat + records.flatten.length) {k : ℕ}
    (hk : records.flatten.length < k) :
    ∃ reads more, sslReads size k bufLen records = reads ++ more ∧ IsSplit size bufLen reads := by
  induction k generalizing bufLen records with
  | zero => omega
  | succ k ih =>
    by_cases hfull : bufLen = size
    · subst hfull
      exact ⟨[],_,rfl,.done⟩
    have hlt : bufLen < size := UInt64.lt_of_le_of_ne hle hfull
    have hsub := UInt64.toNat_sub_of_le _ _ hle
    have hlt' := UInt64.lt_iff_toNat_lt.mp hlt
    have hnum : (size - bufLen).toNat < 2^31 := by omega
    have hfirst : first records ≠ [] := by
      intro h
      rw [flatten_eq_nil_of_first h,List.length_nil] at henough
      omega
    obtain ⟨hpos,hle',hstream⟩ := sslRead_bounds hlt hnum hfirst
    rw [sslReads_record hlt hnum hfirst]
    generalize sslRead (asked size bufLen) records = len at hpos hle' hstream ⊢
    obtain ⟨hgot,hfits⟩ := read_bounds hlt hpos hle'
    have hnext : bufLen + sizeOfInt len ≤ size := by
      rw [UInt64.le_iff_toNat_le,hgot]
      exact hfits
    have hrest : (skip len.toInt.toNat records).flatten.length =
        records.flatten.length - len.toInt.toNat := by rw [flatten_skip,List.length_drop]
    have henough' : size.toNat ≤ (bufLen + sizeOfInt len).toNat +
        (skip len.toInt.toNat records).flatten.length := by omega
    obtain ⟨reads,more,hreads,hsplit⟩ := ih hnext henough' (by omega)
    exact ⟨len::reads,more,by rw [List.cons_append,← hreads],.read hlt hpos hle' hsplit⟩

/-- With a first record that is shorter than the message there are at least two reads. -/
lemma two_reads {size : UInt64} (hsize : size.toNat < 2^31) {records : List Bytes}
    (hlong : (first records).length < size.toNat) {reads more : List Int32}
    {k : ℕ} (hreads : sslReads size (k+1) 0 records = reads ++ more) (hsplit : IsSplit size 0 reads) :
    ∃ len len' later, reads = len::len'::later := by
  obtain ⟨hsum,-⟩ := hsplit.sum_counts
  rw [UInt64.toNat_zero,Nat.zero_add] at hsum
  have hpos : 0 < size := UInt64.lt_iff_toNat_lt.mpr (Nat.zero_lt_of_lt hlong)
  match reads with
  | [] =>
    change 0 = size.toNat at hsum
    omega
  | [len] =>
    by_cases hfirst : first records = []
    · rw [sslReads_closed hpos (by rwa [UInt64.sub_zero]) hfirst] at hreads
      obtain ⟨rfl,-⟩ := List.cons.inj hreads
      change 0 = size.toNat at hsum
      omega
    · obtain ⟨later,hone⟩ := sslReads_first hpos hsize hfirst k
      rw [hone,Nat.min_eq_right (Nat.le_of_lt hlong)] at hreads
      obtain ⟨rfl,-⟩ := List.cons.inj hreads
      have hlen : (Int32.ofNat (first records).length).toInt = (first records).length :=
        Int32.toInt_ofNat_of_lt (by omega)
      simp only [counts,List.map_cons,List.map_nil,List.sum_cons,List.sum_nil] at hsum
      omega
  | len::len'::later => exact ⟨len,len',later,rfl⟩

section Long
variable {n : UInt32} (hn : n≠0) (hmax : n≠16384) (hlt : n.toNat < 2^31) {records : List Bytes}
  (henough : n.toNat ≤ records.flatten.length)
include hn hmax hlt henough

/-- The last byte of a message that is not within the first record is the one in memory. -/
lemma recvRecords_last (hlong : (first records).length < n.toNat) (stack : ℕ → UInt8) :
    ∃ msg, recvRecords n.toUInt64 stack records =
        .returned msg (records.flatten.drop n.toNat) ∧
      msg.data[n.toNat-1]? = some (stack (n.toNat-1)) := by
  have hsize := UInt32.toNat_toUInt64 n
  have hpos := toUInt64_pos hn
  have hne := toUInt64_ne_max hmax
  have hlt64 : n.toUInt64.toNat < 2^31 := by omega
  have hcome : n.toUInt64.toNat ≤ (0 : UInt64).toNat + records.flatten.length := by
    rw [hsize,UInt64.toNat_zero,Nat.zero_add]
    exact henough
  obtain ⟨reads,more,hreads,hsplit⟩ := sslReads_split hlt64 (UInt64.le_of_lt hpos) hcome
    (Nat.lt_succ_self _)
  have hmsg := socketSslRecv_split hpos hne hsplit more stack records.flatten
  rw [← hreads,hsize] at hmsg
  have hlen := overlays_split_length hsplit stack records.flatten
  rw [hsize] at hlen
  refine ⟨_,by rw [recvRecords,if_neg (toUInt64_ne_zero hn)]; exact hmsg,?_⟩
  have hn0 : n.toNat ≠ 0 := fun h => hn (UInt32.toNat_inj.mp h)
  obtain ⟨hsum,-⟩ := hsplit.sum_counts
  rw [UInt64.toNat_zero,Nat.zero_add,hsize] at hsum
  have hsource : source (counts reads) (n.toNat-1) = none := by
    obtain ⟨len,len',later,rfl⟩ := two_reads hlt64 (by rw [hsize]; exact hlong) hreads hsplit
    rw [← hsize]
    exact hsplit.source_last
  rw [QkdBytes.ofBuffer_data (by omega),overlays_getElem? (by omega),hsource,Option.elim_none,
    List.getElem?_map,List.getElem?_range (by omega)]
  rfl

end Long
end SeveralReads

section Boundary
variable [OpenSsl]

/-- The receive of a payload of `n` bytes that comes in these records takes its bytes and no others,
and returns as many. -/
def KeepsBoundary (n : UInt32) (stack : ℕ → UInt8) (records : List Bytes) : Prop :=
  ∃ msg, recvRecords n.toUInt64 stack records = .returned msg (records.flatten.drop n.toNat) ∧
    msg.size=n

/-- The first read of a payload whose size is no positive `int` is refused. -/
lemma recvRecords_refused {n : UInt32} (h : 2^31 ≤ n.toNat) (stack : ℕ → UInt8)
    (records : List Bytes) : recvRecords n.toUInt64 stack records = .overread := by
  have hsize := UInt32.toNat_toUInt64 n
  have hlt := n.toNat_lt
  have hn : n≠0 := by
    rintro rfl
    rw [UInt32.toNat_zero] at h
    omega
  have hneg : asked n.toUInt64 0 < 0 := by
    apply asked_neg
    · rwa [UInt64.sub_zero,hsize]
    · rwa [UInt64.sub_zero,hsize]
  rw [recvRecords,if_neg (toUInt64_ne_zero hn),sslReads_refused hneg,socketSslRecv,
    if_neg (toUInt64_ne_zero hn)]
  exact recvLoop_refused (by rwa [hsize]) (Or.inl rfl) hneg (toUInt64_pos hn) _ _

/-- Without a size for the loop, the boundary is kept if the first read happens to end there. -/
lemma keepsBoundary_unsized {n : UInt32} (hn : n=0 ∨ n=16384) {records : List Bytes}
    (hfirst : first records ≠ []) (stack : ℕ → UInt8) :
    KeepsBoundary n stack records ↔ n.toNat = min 16384 (first records).length := by
  obtain ⟨msg,hmsg,hdata⟩ := recvRecords_any hn hfirst stack
  have hsize : msg.size.toNat = min 16384 (first records).length := by
    rw [← QkdBytes.size_eq,hdata,List.length_take]
  constructor
  · rintro ⟨msg',hmsg',rfl⟩
    obtain ⟨rfl,-⟩ := Recv.returned.inj (hmsg.symm.trans hmsg')
    exact hsize
  · intro h
    rw [← h] at hmsg hsize
    exact ⟨msg,hmsg,UInt32.toNat_inj.mp hsize⟩

lemma not_keepsBoundary_zero (stack : ℕ → UInt8) (records : List Bytes) :
    ¬ KeepsBoundary 0 stack records := by
  by_cases hfirst : first records = []
  · rintro ⟨msg,hmsg,-⟩
    exact recvRecords_short (by rw [hfirst]; rfl) (Or.inl rfl) stack msg _ hmsg
  · have hpos := List.length_pos_iff.mpr hfirst
    rw [keepsBoundary_unsized (Or.inl rfl) hfirst,UInt32.toNat_zero]
    omega

/-- A receive of `n` bytes keeps to the boundary of the payload, in whatever records it comes,
exactly if `n` is neither 0 nor negative as an `int`, and is not 16384 unless the first read returns
all of it. So it is for any results of the reads that split the payload. -/
theorem frame_boundary_iff (n : UInt32) (stack : ℕ → UInt8) {records : List Bytes}
    (henough : n.toNat ≤ records.flatten.length) :
    (KeepsBoundary n stack records ↔
      n≠0 ∧ n.toNat < 2^31 ∧ (n=16384 → 16384 ≤ (first records).length)) ∧
    ∀ reads more, IsSplit n.toUInt64 0 reads →
      (TakesExactly n stack (reads ++ more) records.flatten ↔
        n≠0 ∧ (n=16384 → reads.length=1)) := by
  refine ⟨?_,fun reads more hsplit => takesExactly_iff hsplit henough more stack⟩
  by_cases hn : n=0
  · subst hn
    simp [not_keepsBoundary_zero]
  by_cases hmax : n=16384
  · subst hmax
    have hfirst : first records ≠ [] := by
      intro h
      rw [flatten_eq_nil_of_first h] at henough
      exact absurd henough (by decide)
    rw [keepsBoundary_unsized (Or.inr rfl) hfirst]
    change 16384 = _ ↔ _ ∧ 16384 < 2^31 ∧ _
    simp
  by_cases hlt : n.toNat < 2^31
  · have hsize := UInt32.toNat_toUInt64 n
    obtain ⟨reads,more,hreads,hsplit⟩ := sslReads_split (by rwa [hsize])
      (UInt64.le_of_lt (toUInt64_pos hn)) (by rwa [hsize,UInt64.toNat_zero,Nat.zero_add])
      (Nat.lt_succ_self records.flatten.length)
    have htakes := takesExactly_of_split hn hmax hsplit more stack records.flatten
    rw [← hreads] at htakes
    have hkeeps : KeepsBoundary n stack records := by
      rw [KeepsBoundary,recvRecords,if_neg (toUInt64_ne_zero hn)]
      exact htakes
    exact iff_of_true hkeeps ⟨hn,hlt,fun h => absurd h hmax⟩
  · have hrefused : ¬ KeepsBoundary n stack records := by
      rintro ⟨msg,hmsg,-⟩
      rw [recvRecords_refused (not_lt.mp hlt)] at hmsg
      cases hmsg
    exact iff_of_false hrefused fun h => hlt h.2.1

end Boundary

section Plain
open PlainSsl

/-- Three bytes from two records, of which the second holds a further byte. -/
theorem frame_boundary_two_reads :
    KeepsBoundary 3 (fun _ => 0) [[10,20],[30,40]] ∧
      TakesExactly 3 (fun _ => 0) [1,1,1] [10,20,30,40] := by
  have henough : (3 : UInt32).toNat ≤ ([[10,20],[30,40]] : List Bytes).flatten.length := by decide
  have hsplit : IsSplit 3 0 [1,1,1] :=
    .read (by decide) (by decide) (by decide) (.read (by decide) (by decide) (by decide)
      (.read (by decide) (by decide) (by decide) .done))
  obtain ⟨hkeeps,htakes⟩ := frame_boundary_iff 3 (fun _ => 0) henough
  exact ⟨hkeeps.mpr (by decide),(htakes [1,1,1] [] hsplit).mpr (by decide)⟩

/-- A payload of 16384 bytes, the first of which comes in a record of its own: no other is taken. -/
theorem payload_cut_short :
    let records := [[1],List.replicate 16384 0]
    (16384 : UInt32).toNat ≤ records.flatten.length ∧
      recvRecords (16384 : UInt32).toUInt64 (fun _ => 0) records =
        .returned ⟨1,[1],rfl⟩ (List.replicate 16384 0) ∧
      ¬ KeepsBoundary 16384 (fun _ => 0) records := by
  intro records
  have hfirst : first records = [1] := rfl
  have hne : first records ≠ [] := of_decide_eq_true rfl
  obtain ⟨msg,hmsg,hdata⟩ := recvRecords_any (Or.inr rfl) hne (fun _ => 0)
  have hrest : records.flatten.drop (min 16384 (first records).length) = List.replicate 16384 0 := by
    simp only [hfirst,records,List.flatten_cons,List.flatten_nil,List.append_nil]
    rfl
  have hone : msg = ⟨1,[1],rfl⟩ := QkdBytes.eq_of_data (by rw [hdata,hfirst]; rfl)
  rw [hrest,hone] at hmsg
  refine ⟨?_,hmsg,?_⟩
  · change 16384 ≤ _
    rw [List.flatten_cons,List.flatten_singleton,List.length_append,List.length_replicate]
    omega
  · rw [keepsBoundary_unsized (Or.inr rfl) hne,hfirst]
    decide

end Plain

end EtsiQkd004
