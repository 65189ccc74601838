import Mathlib.Data.List.Basic
import Mathlib.Algebra.Order.Ring.Int
import Mathlib.Tactic.Common

/-! A buffer whose front is written over again and again, each time with the next symbols of a
stream, and the symbol that is left at every position. -/
namespace Overlay
variable {β : Type*}

/-- The buffer once `xs` has been written from its first position on. -/
def overlay (xs buf : List β) : List β := xs ++ buf.drop xs.length

/-- One write for each count: as many symbols as it says, taken from the stream in turn. -/
def overlays : List ℕ → List β → List β → List β
  | [],_,buf => buf
  | c::cs,stream,buf => overlays cs (stream.drop c) (overlay (stream.take c) buf)

/-- Where in the stream the symbol at position `i` comes from, if any write reached it. -/
def source : List ℕ → ℕ → Option ℕ
  | [],_ => none
  | c::cs,i => ((source cs i).map (c+·)).or (if i < c then some i else none)

theorem overlay_length {xs buf : List β} (h : xs.length ≤ buf.length) :
    (overlay xs buf).length = buf.length := by
  simp [overlay]
  omega

theorem overlay_getElem? (xs buf : List β) (i : ℕ) :
    (overlay xs buf)[i]? = if i < xs.length then xs[i]? else buf[i]? := by
  rw [overlay,List.getElem?_append]
  split_ifs with h
  · rfl
  · rw [List.getElem?_drop,Nat.add_sub_cancel' (Nat.le_of_not_lt h)]

theorem overlays_length {cs : List ℕ} {stream buf : List β} (h : cs.sum ≤ buf.length) :
    (overlays cs stream buf).length = buf.length := by
  induction cs generalizing stream buf with
  | nil => rfl
  | cons c cs ih =>
    rw [List.sum_cons] at h
    have hc : (overlay (stream.take c) buf).length = buf.length := by
      apply overlay_length
      rw [List.length_take]
      omega
    rw [overlays,ih (by omega),hc]

/-- The last write that reaches a position decides it. -/
theorem overlays_getElem? {cs : List ℕ} {stream buf : List β} (h : cs.sum ≤ stream.length)
    (i : ℕ) :
    (overlays cs stream buf)[i]? = (source cs i).elim buf[i]? (fun j => stream[j]?) := by
  induction cs generalizing stream buf with
  | nil => rfl
  | cons c cs ih =>
    rw [List.sum_cons] at h
    have hs : cs.sum ≤ (stream.drop c).length := by
      rw [List.length_drop]
      omega
    have hc : (stream.take c).length = c := by
      rw [List.length_take]
      omega
    rw [overlays,ih hs,source,overlay_getElem?,hc]
    cases source cs i with
    | some j => simp
    | none =>
      split_ifs with hi
      · simp [hi]
      · rfl

/-- Positions behind all that is ever written are not reached. -/
theorem source_eq_none {cs : List ℕ} {i : ℕ} (h : cs.sum ≤ i) : source cs i = none := by
  induction cs with
  | nil => rfl
  | cons c cs ih =>
    rw [List.sum_cons] at h
    have hc : ¬ i < c := by omega
    rw [source,ih (by omega),if_neg hc]
    rfl

end Overlay
