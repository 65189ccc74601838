import Mathlib.Logic.Function.Basic
import Mathlib.Tactic.Common

/-! Identifiers handed out on demand: a partial assignment grows by granting an identifier to
a key that has none, and answers every later demand for the key with the same one. -/
namespace Assignment
variable {π ι : Type*} [DecidableEq π]

/-- The assignment after a demand for `p`, for which `u` is used if `p` has none yet. -/
def grant (d : π → Option ι) (p : π) (u : ι) : π → Option ι :=
  Function.update d p (some ((d p).getD u))

/-- No identifier is assigned to two keys. -/
def Distinct (d : π → Option ι) : Prop := ∀ p q k, d p = some k → d q = some k → p=q

@[simp] theorem grant_self (d : π → Option ι) (p : π) (u : ι) :
    grant d p u p = some ((d p).getD u) := Function.update_self _ _ _

/-- A demand never changes what is already assigned. -/
theorem grant_of_some {d : π → Option ι} {q : π} {k : ι} (h : d q = some k) (p : π) (u : ι) :
    grant d p u q = some k := by
  by_cases hq : q=p
  · subst q
    rw [grant_self,h,Option.getD_some]
  · rw [grant,Function.update_of_ne hq,h]

/-- A fresh identifier keeps the assignment distinct. -/
theorem Distinct.grant {d : π → Option ι} (hd : Distinct d) {p : π} {u : ι}
    (hu : d p = none → ∀ q, d q ≠ some u) : Distinct (Assignment.grant d p u) := by
  have hother (q : π) (hq : q≠p) (k : ι) (hk : (d p).getD u = k) : d q ≠ some k := by
    intro h
    cases hp : d p with
    | none =>
      rw [hp,Option.getD_none] at hk
      exact hu hp q (hk ▸ h)
    | some j =>
      rw [hp,Option.getD_some] at hk
      exact hq (hd q p k h (hk ▸ hp))
  intro q r k hq hr
  by_cases hqp : q=p <;> by_cases hrp : r=p
  · rw [hqp,hrp]
  · subst q
    rw [grant_self,Option.some.injEq] at hq
    rw [Assignment.grant,Function.update_of_ne hrp] at hr
    exact absurd hr (hother r hrp k hq)
  · subst r
    rw [grant_self,Option.some.injEq] at hr
    rw [Assignment.grant,Function.update_of_ne hqp] at hq
    exact absurd hq (hother q hqp k hr)
  · rw [Assignment.grant,Function.update_of_ne hqp] at hq
    rw [Assignment.grant,Function.update_of_ne hrp] at hr
    exact hd q r k hq hr

end Assignment
