import EtsiQkd004.Library.SerialMachine
import Mathlib.Data.List.Perm.Basic
import Mathlib.Data.List.Induction

/-! When the order of the requests of a run does not matter: each of them is answered as if it
came first, and they act on what is looked at of the state by functions that commute. -/
namespace SerialMachine
variable {σ τ ι ο : Type*} (M : SerialMachine σ ι ο)

/-- Behind any requests of the class `C`, the request `i` is answered as it is in `s`. -/
def Stable (C : ι → Prop) (s : σ) (i : ι) : Prop :=
  ∀ is, (∀ j ∈ is, C j) → (M.step (M.after s is) i).1 = (M.step s i).1

/-- Behind any requests of the class `C`, the request `i` acts on `abs` of the state by `act`. -/
def ActsBy (C : ι → Prop) (abs : σ → τ) (act : τ → ι → τ) (s : σ) (i : ι) : Prop :=
  ∀ is, (∀ j ∈ is, C j) → abs (M.step (M.after s is) i).2 = act (abs (M.after s is)) i

variable {M} {C : ι → Prop} {s : σ} {is js : List ι}

/-- A run of stable requests is answered as if each of them came first. -/
theorem trace_of_stable (h : ∀ i, C i → M.Stable C s i) (his : ∀ i ∈ is, C i) :
    M.trace s is = is.map fun i => (i,(M.step s i).1) := by
  have hbehind (pre : List ι) (hpre : ∀ j ∈ pre, C j) :
      M.trace (M.after s pre) is = is.map fun i => (i,(M.step s i).1) := by
    induction is generalizing pre with
    | nil => rfl
    | cons i is ih =>
      rw [List.forall_mem_cons] at his
      have hsnoc : M.after s (pre ++ [i]) = (M.step (M.after s pre) i).2 := by
        rw [after_append]
        rfl
      have hclass : ∀ j ∈ pre ++ [i], C j := by
        simpa [or_imp,forall_and] using ⟨hpre,his.1⟩
      rw [trace,h i his.1 pre hpre,← hsnoc,ih his.2 (pre ++ [i]) hclass]
      rfl
  exact hbehind [] (List.forall_mem_nil _)

/-- What is looked at of the state behind a run is a fold over its requests. -/
theorem after_eq_foldl {abs : σ → τ} {act : τ → ι → τ} (h : ∀ i, C i → M.ActsBy C abs act s i)
    (his : ∀ i ∈ is, C i) : abs (M.after s is) = is.foldl act (abs s) := by
  induction is using List.reverseRecOn with
  | nil => rfl
  | append_singleton is i ih =>
    have hinit : ∀ j ∈ is, C j := fun j hj => his j (List.mem_append_left _ hj)
    have hlast : C i := his i (List.mem_append_right _ (List.mem_singleton_self i))
    rw [after_append,List.foldl_append,← ih hinit]
    exact h i hlast is hinit

/-- Stable requests may come in any order. -/
theorem trace_perm (h : ∀ i, C i → M.Stable C s i) (his : ∀ i ∈ is, C i) (hperm : is.Perm js) :
    (M.trace s is).Perm (M.trace s js) := by
  have hjs : ∀ i ∈ js, C i := fun i hi => his i (hperm.mem_iff.mpr hi)
  rw [trace_of_stable h his,trace_of_stable h hjs]
  exact hperm.map _

/-- So may requests whose actions commute. -/
theorem after_perm {abs : σ → τ} {act : τ → ι → τ} (h : ∀ i, C i → M.ActsBy C abs act s i)
    (hcomm : ∀ t i j, act (act t i) j = act (act t j) i) (his : ∀ i ∈ is, C i)
    (hperm : is.Perm js) : abs (M.after s is) = abs (M.after s js) := by
  have hjs : ∀ i ∈ js, C i := fun i hi => his i (hperm.mem_iff.mpr hi)
  rw [after_eq_foldl h his,after_eq_foldl h hjs]
  exact hperm.foldl_eq' (fun i _ j _ t => hcomm t i j) _

end SerialMachine
