import Mathlib.Data.List.Basic
import Mathlib.Tactic.Common

/-! A word that is delivered in pieces: the piece that is next to be read, and the pieces that
are left once a number of symbols has been read, the rest of a piece being a piece again. -/
namespace Chunks
variable {β : Type*}

/-- The first piece that is not empty. -/
def first : List (List β) → List β
  | [] => []
  | []::chunks => first chunks
  | (b::chunk)::_ => b::chunk

/-- The pieces behind the first `k` symbols. -/
def skip : ℕ → List (List β) → List (List β)
  | _,[] => []
  | k,chunk::chunks =>
    if k < chunk.length then chunk.drop k::chunks else skip (k-chunk.length) chunks

theorem first_initial (chunks : List (List β)) : first chunks <+: chunks.flatten := by
  induction chunks with
  | nil => exact List.nil_prefix
  | cons chunk chunks ih =>
    cases chunk with
    | nil => exact ih
    | cons b chunk => exact List.prefix_append _ _

/-- Only a word without symbols has no piece to be read. -/
theorem flatten_eq_nil_of_first {chunks : List (List β)} (h : first chunks = []) :
    chunks.flatten = [] := by
  induction chunks with
  | nil => rfl
  | cons chunk chunks ih =>
    cases chunk with
    | nil => exact ih h
    | cons b chunk => contradiction

theorem first_cons {chunk : List β} (h : chunk≠[]) (chunks : List (List β)) :
    first (chunk::chunks) = chunk := by
  cases chunk with
  | nil => exact absurd rfl h
  | cons b chunk => rfl

/-- A part of the first piece is read. -/
theorem skip_append {read left : List β} (h : left≠[]) (chunks : List (List β)) :
    skip read.length ((read ++ left)::chunks) = left::chunks := by
  have hlt : read.length < (read ++ left).length := by
    have hpos := List.length_pos_iff.mpr h
    rw [List.length_append]
    omega
  rw [skip,if_pos hlt,List.drop_left]

theorem flatten_skip (k : ℕ) (chunks : List (List β)) :
    (skip k chunks).flatten = chunks.flatten.drop k := by
  induction chunks generalizing k with
  | nil => simp [skip]
  | cons chunk chunks ih =>
    rw [skip,List.flatten_cons,List.drop_append]
    split_ifs with hk
    · rw [List.flatten_cons,Nat.sub_eq_zero_of_le (Nat.le_of_lt hk),List.drop_zero]
    · rw [ih,List.drop_eq_nil_of_le (Nat.le_of_not_lt hk),List.nil_append]

theorem first_length_le {n : ℕ} {chunks : List (List β)} (h : ∀ c ∈ chunks, c.length ≤ n) :
    (first chunks).length ≤ n := by
  induction chunks with
  | nil => exact Nat.zero_le n
  | cons chunk chunks ih =>
    cases chunk with
    | nil => exact ih fun c hc => h c (List.mem_cons_of_mem _ hc)
    | cons b chunk => exact h _ List.mem_cons_self

/-- Reading only shortens the pieces. -/
theorem length_le_of_mem_skip {n : ℕ} {chunks : List (List β)} (h : ∀ c ∈ chunks, c.length ≤ n)
    (k : ℕ) : ∀ c ∈ skip k chunks, c.length ≤ n := by
  induction chunks generalizing k with
  | nil => simp [skip]
  | cons chunk chunks ih =>
    have htail : ∀ c ∈ chunks, c.length ≤ n := fun c hc => h c (List.mem_cons_of_mem _ hc)
    rw [skip]
    split_ifs
    · have hchunk := h chunk List.mem_cons_self
      rw [List.forall_mem_cons,List.length_drop]
      exact ⟨by omega,htail⟩
    · exact ih htail _

section Cutting
variable {n : ℕ} {w : List β}

/-- At most `k` pieces of a word, each of at most `n` symbols. -/
def cut (n : ℕ) : ℕ → List β → List (List β)
  | 0,_ => []
  | k+1,w => if w.length ≤ n then [w] else w.take n::cut n k (w.drop n)

/-- A word in pieces of at most `n` symbols, as long as they can be. -/
def pieces (n : ℕ) (w : List β) : List (List β) := cut n w.length w

theorem length_le_of_mem_cut {k : ℕ} : ∀ c ∈ cut n k w, c.length ≤ n := by
  induction k generalizing w with
  | zero => simp [cut]
  | succ k ih =>
    rw [cut]
    split_ifs with h
    · simpa using h
    · rw [List.forall_mem_cons,List.length_take]
      exact ⟨Nat.min_le_left _ _,ih⟩

theorem length_le_of_mem_pieces : ∀ c ∈ pieces n w, c.length ≤ n := length_le_of_mem_cut

theorem flatten_cut (hn : 0 < n) {k : ℕ} (hk : w.length ≤ k) : (cut n k w).flatten = w := by
  induction k generalizing w with
  | zero =>
    rw [List.eq_nil_of_length_eq_zero (Nat.le_zero.mp hk)]
    rfl
  | succ k ih =>
    rw [cut]
    split_ifs with h
    · rw [List.flatten_singleton]
    · have hlen : (w.drop n).length ≤ k := by
        rw [List.length_drop]
        omega
      rw [List.flatten_cons,ih hlen,List.take_append_drop]

theorem flatten_pieces (hn : 0 < n) : (pieces n w).flatten = w := flatten_cut hn (Nat.le_refl _)

/-- The first piece is as long as it can be. -/
theorem pieces_eq_cons (hw : w≠[]) : ∃ later, pieces n w = w.take n::later := by
  obtain ⟨k,hk⟩ := Nat.exists_eq_succ_of_ne_zero (mt List.length_eq_zero_iff.mp hw)
  rw [pieces,hk,cut]
  split_ifs with h
  · exact ⟨[],by rw [List.take_of_length_le h]⟩
  · exact ⟨_,rfl⟩

end Cutting

end Chunks
