import EtsiQkd004.Models
import Mathlib.Data.Rat.Floor

/-! What the server uses of the C library: the pseudo-random generator as a parameter, and
the `%d` and `%f` conversions of `sprintf`. -/
namespace EtsiQkd004

/-- `srand` and `rand` over the generator's hidden state. Seeding forgets the previous state,
so the numbers drawn after it depend on the seed alone. -/
structure Prng (σ : Type) where
  srand : UInt32 → σ
  rand : σ → ℕ × σ

/-- The implementation the C standard gives as an example. -/
def ansiPrng : Prng UInt32 where
  srand seed := seed
  rand next :=
    let next := next*1103515245 + 12345
    (next.toNat/65536%32768,next)

/-- The characters of a text of ASCII characters. -/
def ascii (text : String) : Bytes := text.toList.map fun c => UInt8.ofNat c.toNat

/-- Decimal digits, the most significant one first. -/
def decimal (n : ℕ) : Bytes := (Nat.toDigits 10 n).map fun c => UInt8.ofNat c.toNat

/-- `%d` -/
def formatInt (n : Int32) : Bytes :=
  if n.toInt < 0 then ascii "-" ++ decimal n.toInt.natAbs else decimal n.toInt.natAbs

/-- The nearest natural number, the even one halfway between two. -/
def roundHalfEven (q : ℚ) : ℕ :=
  let f := ⌊q⌋.toNat
  if q-f < 1/2 then f else if 1/2 < q-f then f+1 else f+f%2

/-- `%f`: six digits after the point. -/
def formatFloat (q : ℚ) : Bytes :=
  let millionths := roundHalfEven (|q| * 10^6)
  (if q < 0 then ascii "-" else []) ++ decimal (millionths/10^6) ++ ascii "." ++
    (decimal (10^6 + millionths%10^6)).tail

lemma toDigits_bounds {n : ℕ} {c : Char} (h : c ∈ Nat.toDigits 10 n) :
    48 ≤ c.toNat ∧ c.toNat ≤ 57 := by
  have hd := Nat.isDigit_of_mem_toDigits (by decide) (by decide) h
  simp only [Char.isDigit,Bool.and_eq_true,decide_eq_true_eq,UInt32.le_iff_toNat_le] at hd
  exact hd

lemma decimal_bounds {n : ℕ} {b : UInt8} (h : b ∈ decimal n) : 48 ≤ b.toNat ∧ b.toNat ≤ 57 := by
  obtain ⟨c,hc,rfl⟩ := List.mem_map.mp h
  have hd := toDigits_bounds hc
  rw [UInt8.toNat_ofNat']
  omega

lemma decimal_ne_zero (n : ℕ) : 0 ∉ decimal n := by
  intro h
  have hd := (decimal_bounds h).1
  simp at hd

lemma formatInt_ne_zero (n : Int32) : 0 ∉ formatInt n := by
  unfold formatInt
  split
  · simp only [List.mem_append,not_or]
    exact ⟨by decide,decimal_ne_zero _⟩
  · exact decimal_ne_zero _

lemma formatFloat_ne_zero (q : ℚ) : 0 ∉ formatFloat q := by
  simp only [formatFloat,List.mem_append,not_or]
  refine ⟨⟨⟨?_,decimal_ne_zero _⟩,by decide⟩,?_⟩
  · split <;> decide
  · intro h
    exact decimal_ne_zero _ (List.mem_of_mem_tail h)

example : formatFloat (49/100) = ascii "0.490000" := by decide +kernel

end EtsiQkd004
