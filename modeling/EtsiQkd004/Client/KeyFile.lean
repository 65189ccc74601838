import EtsiQkd004.Libc
import EtsiQkd004.Library.HostWord
import EtsiQkd004.Library.Overlay
import EtsiQkd004.Library.WireCodec
import Mathlib.Data.Nat.Bitwise

/-! The key file of the example client: one record of text for each key it has been given,
appended as the keys come, and how the keys are read back from it. -/
namespace EtsiQkd004
open Overlay WireCodec

/-- The division loop. -/
def digitLoop (n digits : ℕ) : ℕ := if n=0 then digits else digitLoop (n/10) (digits+1)

def numberOfDigits (n : UInt32) : ℕ := if n=0 then 1 else digitLoop n.toNat 0

/-- `fputc` of the bits of a byte, from the bit below `bit` down to the last one. -/
def fputBits (byte : UInt8) : ℕ → Bytes → Bytes
  | 0,file => file
  | bit+1,file =>
    fputBits byte bit (file ++ if byte.toNat &&& 1 <<< bit ≠ 0 then ascii "1" else ascii "0")

/-- The bytes of `sindex` after `sprintf`, which writes the index as a signed number with its
NUL over eleven bytes of stack. The last byte of a text of twelve falls behind the buffer. -/
def sindex (index : UInt32) (stack : ℕ → UInt8) : Bytes :=
  overlay (formatInt index.toInt32 ++ [0]) ((List.range 11).map stack)

/-- The file after one call, which appends to it. -/
def writeKeyToFileBitFormat (file : Bytes) (response : GetKeyResponse) (stack : ℕ → UInt8) :
    Bytes :=
  let file := file ++ ascii "Index: "
  let file := file ++ (sindex response.index stack).take (numberOfDigits response.index)
  let file := file ++ ascii "\nKey: "
  let file := response.keyBuffer.data.foldl (fun file byte => fputBits byte 8 file) file
  file ++ ascii "\n\n"

/-- One call: the response, and what the stack holds where the buffer is laid out. -/
abbrev WriteCall := GetKeyResponse × (ℕ → UInt8)

/-- The initially empty file after a sequence of calls. -/
def keyFile (calls : List WriteCall) : Bytes :=
  calls.foldl (fun file call => writeKeyToFileBitFormat file call.1 call.2) []

section Spec

/-- The digits of a byte in base two, the most significant one first. -/
def binary (byte : UInt8) : Bytes :=
  [7,6,5,4,3,2,1,0].map fun bit => if byte.toNat.testBit bit then 49 else 48

/-- What one call is for: the index in decimal, and the bits of the key. -/
def keyRecord (entry : UInt32 × Bytes) : Bytes :=
  ascii "Index: " ++ decimal entry.1.toNat ++ ascii "\nKey: " ++ entry.2.flatMap binary ++
    ascii "\n\n"

/-- The index and the key of every response. -/
def entries (calls : List WriteCall) : List (UInt32 × Bytes) :=
  calls.map fun call => (call.1.index,call.1.keyBuffer.data)

/-- The number that decimal digits stand for. -/
def readDecimal (digits : Bytes) : ℕ :=
  Nat.ofDigitChars 10 (digits.map fun b => Char.ofNat b.toNat) 0

/-- The byte that eight binary digits stand for. -/
def readBinary : Decoder UInt8 UInt8 := do
  let bits ← block 8
  return UInt8.ofNat (bits.val.foldl (fun n b => 2*n + (b.toNat - 48)) 0)

def readKeyRecord : Decoder UInt8 (UInt32 × Bytes) := do
  literal (ascii "Index: ")
  let digits ← terminated 10
  literal (ascii "Key: ")
  let bits ← terminated 10
  literal [10]
  let key ← (sequence readBinary bits.val.length bits.val : Option Bytes)
  return (UInt32.ofNat (readDecimal digits.val),key)

/-- The entries of a key file. -/
def readKeyFile (file : Bytes) : Option (List (UInt32 × Bytes)) :=
  sequence readKeyRecord file.length file

end Spec

section Writer

lemma digitLoop_eq {n : ℕ} (h : n ≠ 0) (digits : ℕ) :
    digitLoop n digits = digits + (decimal n).length := by
  induction n using Nat.strong_induction_on generalizing digits with
  | _ n ih =>
    rw [digitLoop,if_neg h,decimal,List.length_map,Nat.toDigits_eq_if (by decide)]
    split
    case isTrue hlt =>
      rw [Nat.div_eq_of_lt hlt,digitLoop]
      simp
    case isFalse hge =>
      rw [ih (n/10) (by omega) (by omega),decimal,List.length_map,List.length_append]
      simp
      omega

/-- The division loop counts the digits of the unsigned index. -/
lemma numberOfDigits_eq (n : UInt32) : numberOfDigits n = (decimal n.toNat).length := by
  rw [numberOfDigits]
  split
  case isTrue h => rw [h]; rfl
  case isFalse h =>
    rw [digitLoop_eq,Nat.zero_add]
    intro h0
    exact h (UInt32.toNat_inj.mp h0)

lemma fputBits_append (byte : UInt8) (n : ℕ) (file : Bytes) :
    fputBits byte n file = file ++ fputBits byte n [] := by
  induction n generalizing file with
  | zero => simp [fputBits]
  | succ bit ih =>
    rw [fputBits,fputBits,ih,ih ([] ++ _),List.nil_append,List.append_assoc]

/-- Masking with a shifted one tests the bit. -/
lemma fputBits_eq (byte : UInt8) (file : Bytes) : fputBits byte 8 file = file ++ binary byte := by
  have hbit (bit : ℕ) : (if byte.toNat &&& 1 <<< bit ≠ 0 then ascii "1" else ascii "0") =
      [if byte.toNat.testBit bit then (49 : UInt8) else 48] := by
    rw [Nat.one_shiftLeft,Nat.and_two_pow]
    cases byte.toNat.testBit bit <;> simp <;> rfl
  rw [fputBits_append]
  simp only [fputBits,hbit,binary,List.map_cons,List.map_nil,List.nil_append,List.cons_append]

lemma foldl_fputBits (key file : Bytes) :
    key.foldl (fun file byte => fputBits byte 8 file) file = file ++ key.flatMap binary := by
  induction key generalizing file with
  | nil => simp
  | cons byte key ih => rw [List.foldl_cons,ih,fputBits_eq,List.flatMap_cons,List.append_assoc]

/-- The index field of a call. -/
def indexField (call : WriteCall) : Bytes :=
  (sindex call.1.index call.2).take (numberOfDigits call.1.index)

/-- What one call appends. -/
def written (call : WriteCall) : Bytes :=
  ascii "Index: " ++ indexField call ++ ascii "\nKey: " ++
    call.1.keyBuffer.data.flatMap binary ++ ascii "\n\n"

lemma writeKeyToFileBitFormat_eq (file : Bytes) (call : WriteCall) :
    writeKeyToFileBitFormat file call.1 call.2 = file ++ written call := by
  simp only [writeKeyToFileBitFormat,foldl_fputBits,written,indexField,List.append_assoc]

lemma keyFile_eq_flatMap (calls : List WriteCall) : keyFile calls = calls.flatMap written := by
  have hrun (file : Bytes) : calls.foldl (fun file call =>
      writeKeyToFileBitFormat file call.1 call.2) file = file ++ calls.flatMap written := by
    induction calls generalizing file with
    | nil => simp
    | cons call calls ih =>
      rw [List.foldl_cons,ih,writeKeyToFileBitFormat_eq,List.flatMap_cons,List.append_assoc]
  exact (hrun []).trans (List.nil_append _)

/-- The signed and the unsigned reading of a small index agree. -/
lemma indexField_of_lt {call : WriteCall} (h : call.1.index.toNat < 2^31) :
    indexField call = decimal call.1.index.toNat := by
  have hint := HostWord.toInt32_toInt call.1.index
  rw [if_pos h] at hint
  rw [indexField,sindex,overlay,formatInt,hint,if_neg (by omega),Int.natAbs_natCast,
    numberOfDigits_eq,List.append_assoc,List.take_left]

/-- The text of a large index starts with its sign. -/
lemma indexField_of_ge {call : WriteCall} (h : 2^31 ≤ call.1.index.toNat) :
    ∃ rest, indexField call = 45::rest := by
  have hn := call.1.index.toNat_lt
  have hint := HostWord.toInt32_toInt call.1.index
  rw [if_neg (by omega)] at hint
  have hneg : call.1.index.toInt32.toInt < 0 := by omega
  have hlen : 0 < (decimal call.1.index.toNat).length := by
    rw [decimal,List.length_map]
    exact Nat.length_toDigits_pos
  obtain ⟨k,hk⟩ := Nat.exists_eq_succ_of_ne_zero hlen.ne'
  have hsign : ascii "-" = [45] := by decide
  rw [indexField,sindex,overlay,formatInt,if_pos hneg,numberOfDigits_eq,hk,hsign]
  exact ⟨_,List.take_succ_cons⟩

end Writer

section Reader

lemma readDecimal_decimal (n : ℕ) : readDecimal (decimal n) = n := by
  have hchars : (decimal n).map (fun b => Char.ofNat b.toNat) = Nat.toDigits 10 n := by
    rw [decimal,List.map_map]
    conv_rhs => rw [← List.map_id (Nat.toDigits 10 n)]
    apply List.map_congr_left
    intro c hc
    have hd := toDigits_bounds hc
    have hb : (UInt8.ofNat c.toNat).toNat = c.toNat := by
      rw [UInt8.toNat_ofNat']
      omega
    simp only [Function.comp_apply,hb,Char.ofNat_toNat,id_eq]
  rw [readDecimal,hchars,Nat.ofDigitChars_ten_toDigits]

lemma readBinary_binary (byte : UInt8) (rest : Bytes) :
    readBinary.run (binary byte ++ rest) = some (byte,rest) := by
  have hvalue : UInt8.ofNat ((binary byte).foldl (fun n b => 2*n + (b.toNat - 48)) 0) = byte := by
    have h256 : ∀ n < 256, UInt8.ofNat ((binary (UInt8.ofNat n)).foldl
        (fun n b => 2*n + (b.toNat - 48)) 0) = UInt8.ofNat n := by decide +kernel
    have hb := h256 byte.toNat byte.toNat_lt
    rwa [UInt8.ofNat_toNat] at hb
  rw [readBinary,run_bind_eq_some]
  exact ⟨⟨binary byte,rfl⟩,rest,(block_exact 8).decode_encode ⟨binary byte,rfl⟩ rest,
    by simp [hvalue]⟩

lemma decimal_newline (n : ℕ) : 10 ∉ decimal n := by
  intro h
  have hd := (decimal_bounds h).1
  simp at hd

lemma binary_newline (key : Bytes) : 10 ∉ key.flatMap binary := by
  intro h
  obtain ⟨byte,-,hb⟩ := List.mem_flatMap.mp h
  obtain ⟨bit,-,hbit⟩ := List.mem_map.mp hb
  split at hbit <;> simp at hbit

/-- A record is read back, whatever follows it. -/
lemma readKeyRecord_keyRecord (entry : UInt32 × Bytes) (rest : Bytes) :
    readKeyRecord.run (keyRecord entry ++ rest) = some (entry,rest) := by
  have hkey : sequence readBinary (entry.2.flatMap binary).length (entry.2.flatMap binary) =
      some entry.2 := by
    have h := sequence_flatMap entry.2 (f := id) (fun byte => by simp [binary])
      (fun byte _ => readBinary_binary byte) le_rfl
    rwa [List.map_id] at h
  have htext : keyRecord entry ++ rest = ascii "Index: " ++ (decimal entry.1.toNat ++ [10] ++
      (ascii "Key: " ++ (entry.2.flatMap binary ++ [10] ++ ([10] ++ rest)))) := by
    have h₁ : ascii "\nKey: " = [10] ++ ascii "Key: " := by decide
    have h₂ : ascii "\n\n" = [10] ++ [10] := by decide
    simp only [keyRecord,h₁,h₂,List.append_assoc]
  let digits : {xs : Bytes // 10 ∉ xs} := ⟨decimal entry.1.toNat,decimal_newline _⟩
  let bits : {xs : Bytes // 10 ∉ xs} := ⟨entry.2.flatMap binary,binary_newline _⟩
  rw [htext,readKeyRecord]
  simp only [run_bind_eq_some]
  refine ⟨(),_,(literal_exact _).decode_encode () _,digits,_,
    (terminated_exact 10).decode_encode digits _,(),_,(literal_exact _).decode_encode () _,
    bits,_,(terminated_exact 10).decode_encode bits _,(),_,
    (literal_exact _).decode_encode () _,entry.2,rest,?_,?_⟩
  · rw [hkey]
    rfl
  · rw [readDecimal_decimal]
    simp

lemma keyRecord_append_inj {a b : UInt32 × Bytes} {r r' : Bytes}
    (h : keyRecord a ++ r = keyRecord b ++ r') : a=b ∧ r=r' := by
  have ha := readKeyRecord_keyRecord a r
  rw [h,readKeyRecord_keyRecord] at ha
  simp only [Option.some.injEq,Prod.mk.injEq] at ha
  exact ⟨ha.1.symm,ha.2.symm⟩

lemma readKeyFile_records (records : List (UInt32 × Bytes)) :
    readKeyFile (records.flatMap keyRecord) = some records := by
  have hne (entry : UInt32 × Bytes) : keyRecord entry ≠ [] := by simp [keyRecord,ascii]
  have h := sequence_flatMap records (f := id) hne
    (fun entry _ => readKeyRecord_keyRecord entry) le_rfl
  rwa [List.map_id] at h

end Reader

lemma written_of_lt {call : WriteCall} (h : call.1.index.toNat < 2^31) :
    written call = keyRecord (call.1.index,call.1.keyBuffer.data) := by
  rw [written,indexField_of_lt h,keyRecord]

lemma keyFile_of_lt {calls : List WriteCall} (h : ∀ call ∈ calls, call.1.index.toNat < 2^31) :
    keyFile calls = (entries calls).flatMap keyRecord := by
  rw [keyFile_eq_flatMap,entries,List.flatMap_map]
  exact List.flatMap_congr fun call hcall => written_of_lt (h call hcall)

/-- The sign of a large index stands where a record has a digit. -/
lemma written_of_ge {call : WriteCall} (h : 2^31 ≤ call.1.index.toNat) (entry : UInt32 × Bytes)
    (r r' : Bytes) : written call ++ r ≠ keyRecord entry ++ r' := by
  intro heq
  obtain ⟨rest,hrest⟩ := indexField_of_ge h
  rw [written,keyRecord,hrest] at heq
  simp only [List.append_assoc,List.append_cancel_left_eq] at heq
  cases hd : decimal entry.1.toNat with
  | nil => exact Nat.toDigits_ne_nil (List.map_eq_nil_iff.mp hd)
  | cons b digits =>
    have hb := decimal_bounds (hd ▸ List.mem_cons_self : b ∈ decimal entry.1.toNat)
    rw [hd] at heq
    obtain ⟨rfl,-⟩ := List.cons.inj heq
    simp at hb

/-- Only small indices ever make a file of records. -/
lemma lt_of_keyFile_eq {calls : List WriteCall} {records : List (UInt32 × Bytes)}
    (h : keyFile calls = records.flatMap keyRecord) : ∀ call ∈ calls, call.1.index.toNat < 2^31 := by
  rw [keyFile_eq_flatMap] at h
  induction calls generalizing records with
  | nil => simp
  | cons call calls ih =>
    cases records with
    | nil => simp [written,ascii] at h
    | cons entry records =>
      rw [List.flatMap_cons,List.flatMap_cons] at h
      have hlt : call.1.index.toNat < 2^31 := by
        by_contra hge
        exact written_of_ge (Nat.le_of_not_lt hge) entry _ _ h
      rw [written_of_lt hlt] at h
      exact List.forall_mem_cons.mpr ⟨hlt,ih (keyRecord_append_inj h).2⟩

/-- The file is the records of its calls and gives back their entries, which no other calls can
have left there, exactly when the sign bit of every index is clear. -/
theorem keyFile_round_trip_iff (calls : List WriteCall) :
    (keyFile calls = (entries calls).flatMap keyRecord ∧
      readKeyFile (keyFile calls) = some (entries calls) ∧
      ∀ calls', keyFile calls' = keyFile calls → entries calls' = entries calls) ↔
    ∀ call ∈ calls, call.1.index.toNat < 2^31 := by
  constructor
  · intro h
    exact lt_of_keyFile_eq h.1
  · intro h
    have hfile := keyFile_of_lt h
    refine ⟨hfile,?_,?_⟩
    · rw [hfile,readKeyFile_records]
    · intro calls' heq
      rw [hfile] at heq
      rw [keyFile_of_lt (lt_of_keyFile_eq heq)] at heq
      have hread := congrArg readKeyFile heq
      rw [readKeyFile_records,readKeyFile_records] at hread
      exact Option.some.inj hread

/-- Two indices whose signed texts agree in their first ten characters. -/
theorem large_indices_collide :
    let call (index : UInt32) : WriteCall := (⟨0,index,QkdBytes.empty,QkdBytes.empty⟩,fun _ => 0)
    keyFile [call 2147483648] = ascii "Index: -214748364\nKey: \n\n" ∧
      keyFile [call 2147483648] = keyFile [call 2147483649] ∧
      entries [call 2147483648] ≠ entries [call 2147483649] ∧
      keyFile [call 4294967295] ≠ (entries [call 4294967295]).flatMap keyRecord := by
  decide +kernel

end EtsiQkd004
