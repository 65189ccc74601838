import EtsiQkd004.Libc

/-! The key generators of the example server: both seed the C library's generator from the
two endpoints and the index, and draw one byte after another. -/
namespace EtsiQkd004

/-- One round of the hash loop. -/
def simpleHashStep (hash : UInt32) (c : UInt8) : UInt32 := (hash <<< 5) + hash + c.toUInt32

def simpleHash (str : CString) : UInt32 := str.chars.foldl simpleHashStep 0

/-- The seed both generators compute. -/
def keySeed (source destination : CString) (index : UInt32) : UInt32 :=
  0 ^^^ simpleHash source ^^^ simpleHash destination ^^^ index

variable {σ : Type} (libc : Prng σ)

/-- The fill loop: `n` bytes, each the next number drawn modulo 256. -/
def randBytes : ℕ → σ → Bytes × σ
  | 0,prng => ([],prng)
  | n+1,prng =>
    let draw := libc.rand prng
    let rest := randBytes n draw.2
    (UInt8.ofNat (draw.1%256)::rest.1,rest.2)

/-- `allocated` says whether the key buffer's `malloc` succeeds. -/
def genPseudorandomKey (source destination : CString) (keySize : ℕ) (index : UInt32)
    (allocated : Bool) (prng : σ) : QkdBytes × σ :=
  if allocated then
    let key := randBytes libc keySize (libc.srand (keySeed source destination index))
    (QkdBytes.ofBuffer key.1,key.2)
  else (QkdBytes.empty,prng)

/-- The receiver's masks, alternating over the byte positions of the key. -/
def obliviousMask (i : ℕ) (byte : UInt8) : UInt8 :=
  if i%2=0 then byte ||| 0xAA else (byte >>> 1) &&& 0x55

def genObliviousPseudorandomKey (source destination : CString) (keySize : ℕ) (index : UInt32)
    (obliviousKeyType : UInt8) (allocated : Bool) (prng : σ) : QkdBytes × σ :=
  if allocated then
    let key := randBytes libc keySize (libc.srand (keySeed source destination index))
    (QkdBytes.ofBuffer (if obliviousKeyType=2 then key.1.mapIdx obliviousMask else key.1),key.2)
  else (QkdBytes.empty,prng)

@[simp] theorem randBytes_length (n : ℕ) (prng : σ) : (randBytes libc n prng).1.length = n := by
  induction n generalizing prng with
  | zero => rfl
  | succ n ih => simp [randBytes,ih]

/-- A shorter draw from the same generator state is a prefix of a longer one. -/
theorem randBytes_take {m n : ℕ} (h : m ≤ n) (prng : σ) :
    (randBytes libc n prng).1.take m = (randBytes libc m prng).1 := by
  induction m generalizing n prng with
  | zero => simp [randBytes]
  | succ m ih =>
    obtain ⟨n,rfl⟩ : ∃ k, n=k+1 := ⟨n-1,by omega⟩
    simp only [randBytes,List.take_succ_cons]
    rw [ih (by omega)]

/-- The seed does not see which endpoint is the source. -/
theorem keySeed_comm (source destination : CString) (index : UInt32) :
    keySeed source destination index = keySeed destination source index := by
  unfold keySeed
  rw [UInt32.xor_assoc 0,UInt32.xor_comm (simpleHash source),← UInt32.xor_assoc 0]

end EtsiQkd004
