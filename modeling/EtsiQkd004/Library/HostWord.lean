import Mathlib.Algebra.Order.Ring.Int
import Mathlib.Tactic.Common

/-! Memory images of 32-bit words on a little-endian host, and the byte reversal that
takes them to network order. -/
namespace HostWord

/-- Byte `i` of a word, the least significant one first. -/
def byteAt (n : UInt32) (i : ℕ) : UInt8 := UInt8.ofNat (n.toNat/256^i)

/-- The word with the given bytes, the least significant one first. -/
def ofBytes (b₀ b₁ b₂ b₃ : UInt8) : UInt32 :=
  UInt32.ofNat (b₀.toNat + 256*b₁.toNat + 65536*b₂.toNat + 16777216*b₃.toNat)

/-- The four bytes of a word in the order they have in memory. -/
def image (n : UInt32) : List UInt8 := [byteAt n 0,byteAt n 1,byteAt n 2,byteAt n 3]

/-- The word whose memory image is the reverse of that of `n`. -/
def byteSwap (n : UInt32) : UInt32 := ofBytes (byteAt n 3) (byteAt n 2) (byteAt n 1) (byteAt n 0)

lemma byteAt_toNat (n : UInt32) (i : ℕ) : (byteAt n i).toNat = n.toNat/256^i%256 := by
  simp [byteAt]

lemma ofBytes_toNat (b₀ b₁ b₂ b₃ : UInt8) :
    (ofBytes b₀ b₁ b₂ b₃).toNat =
      b₀.toNat + 256*b₁.toNat + 65536*b₂.toNat + 16777216*b₃.toNat := by
  have h₀ := b₀.toNat_lt
  have h₁ := b₁.toNat_lt
  have h₂ := b₂.toNat_lt
  have h₃ := b₃.toNat_lt
  rw [ofBytes,UInt32.toNat_ofNat',Nat.mod_eq_of_lt]
  omega

@[simp] theorem ofBytes_byteAt (n : UInt32) :
    ofBytes (byteAt n 0) (byteAt n 1) (byteAt n 2) (byteAt n 3) = n := by
  apply UInt32.toNat_inj.mp
  have hn := n.toNat_lt
  simp only [ofBytes_toNat,byteAt_toNat]
  omega

lemma byteAt_ofBytes (b₀ b₁ b₂ b₃ : UInt8) :
    byteAt (ofBytes b₀ b₁ b₂ b₃) 0 = b₀ ∧ byteAt (ofBytes b₀ b₁ b₂ b₃) 1 = b₁ ∧
      byteAt (ofBytes b₀ b₁ b₂ b₃) 2 = b₂ ∧ byteAt (ofBytes b₀ b₁ b₂ b₃) 3 = b₃ := by
  have h₀ := b₀.toNat_lt
  have h₁ := b₁.toNat_lt
  have h₂ := b₂.toNat_lt
  have h₃ := b₃.toNat_lt
  refine ⟨?_,?_,?_,?_⟩
  all_goals
    apply UInt8.toNat_inj.mp
    simp only [ofBytes_toNat,byteAt_toNat]
    omega

@[simp] theorem byteSwap_byteSwap (n : UInt32) : byteSwap (byteSwap n) = n := by
  obtain ⟨h₀,h₁,h₂,h₃⟩ := byteAt_ofBytes (byteAt n 3) (byteAt n 2) (byteAt n 1) (byteAt n 0)
  rw [byteSwap,byteSwap,h₀,h₁,h₂,h₃,ofBytes_byteAt]

/-- A word is what four given bytes decode to exactly when they are its memory image. -/
theorem ofBytes_eq_iff (b₀ b₁ b₂ b₃ : UInt8) (n : UInt32) :
    ofBytes b₀ b₁ b₂ b₃ = n ↔ [b₀,b₁,b₂,b₃] = image n := by
  constructor
  · rintro rfl
    obtain ⟨h₀,h₁,h₂,h₃⟩ := byteAt_ofBytes b₀ b₁ b₂ b₃
    rw [image,h₀,h₁,h₂,h₃]
  · intro h
    simp only [image,List.cons.injEq,and_true] at h
    obtain ⟨rfl,rfl,rfl,rfl⟩ := h
    exact ofBytes_byteAt n

/-- The word read as a signed one. -/
theorem toInt32_toInt (n : UInt32) :
    n.toInt32.toInt = if n.toNat < 2^31 then (n.toNat : Int) else n.toNat - 2^32 := by
  have hn := n.toNat_lt
  change n.toBitVec.toInt = _
  rw [BitVec.toInt_eq_toNat_cond,UInt32.toNat_toBitVec]
  split_ifs
  all_goals omega

end HostWord
