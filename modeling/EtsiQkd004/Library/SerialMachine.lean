import Mathlib.Data.List.Basic
import Mathlib.Tactic.Common

/-! Deterministic machines that serve one request after another, their runs, and the
induction rules for facts about whole runs. -/

/-- One request is answered in one step of the state. -/
structure SerialMachine (σ ι ο : Type*) where
  step : σ → ι → ο × σ

namespace SerialMachine
variable {σ ι ο : Type*} (M : SerialMachine σ ι ο)

/-- The state once a list of requests has been served in order. -/
def after (s : σ) : List ι → σ
  | [] => s
  | i::is => after (M.step s i).2 is

/-- The answer to request `i` when it comes after the requests `pre`. -/
def answer (s : σ) (pre : List ι) (i : ι) : ο := (M.step (M.after s pre) i).1

/-- The requests of a run, each with its answer. -/
def trace (s : σ) : List ι → List (ι × ο)
  | [] => []
  | i::is => (i,(M.step s i).1) :: trace (M.step s i).2 is

/-- Every request of the run satisfies `P` in the state that serves it. -/
def Along (P : σ → ι → Prop) (s : σ) : List ι → Prop
  | [] => True
  | i::is => P s i ∧ Along P (M.step s i).2 is

/-- Some request of the run satisfies `P` in the state that serves it. -/
def Sometime (P : σ → ι → Prop) (s : σ) : List ι → Prop
  | [] => False
  | i::is => P s i ∨ Sometime P (M.step s i).2 is

@[simp] theorem after_nil (s : σ) : M.after s [] = s := rfl

@[simp] theorem after_cons (s : σ) (i : ι) (is : List ι) :
    M.after s (i::is) = M.after (M.step s i).2 is := rfl

theorem after_append (s : σ) (is js : List ι) :
    M.after s (is ++ js) = M.after (M.after s is) js := by
  induction is generalizing s with
  | nil => rfl
  | cons i is ih => exact ih (M.step s i).2

theorem along_append (P : σ → ι → Prop) (s : σ) (is js : List ι) :
    M.Along P s (is ++ js) ↔ M.Along P s is ∧ M.Along P (M.after s is) js := by
  induction is generalizing s with
  | nil => simp [Along]
  | cons i is ih => simp only [List.cons_append,Along,ih,after_cons,and_assoc]

theorem along_of_forall {P : σ → ι → Prop} (h : ∀ s i, P s i) (s : σ) (is : List ι) :
    M.Along P s is := by
  induction is generalizing s with
  | nil => trivial
  | cons i is ih => exact ⟨h s i,ih _⟩

@[simp] theorem trace_map_fst (s : σ) (is : List ι) : (M.trace s is).map Prod.fst = is := by
  induction is generalizing s with
  | nil => rfl
  | cons i is ih => rw [trace,List.map_cons,ih]

/-- A member of the trace is a request of the run with the answer it got at its place. -/
theorem mem_trace {s : σ} {is : List ι} {x : ι × ο} :
    x ∈ M.trace s is ↔ ∃ pre post, is = pre ++ x.1::post ∧ x.2 = M.answer s pre x.1 := by
  induction is generalizing s with
  | nil => simp [trace]
  | cons i is ih =>
    simp only [trace,List.mem_cons,ih]
    constructor
    · rintro (rfl | ⟨pre,post,rfl,hx⟩)
      · exact ⟨[],is,rfl,rfl⟩
      · exact ⟨i::pre,post,rfl,hx⟩
    · rintro ⟨pre,post,h,hx⟩
      cases pre with
      | nil =>
        obtain ⟨rfl,rfl⟩ := List.cons.inj h
        exact Or.inl (Prod.ext rfl hx)
      | cons j pre =>
        obtain ⟨rfl,rfl⟩ := List.cons.inj h
        exact Or.inr ⟨pre,post,rfl,hx⟩

variable {M}

/-- The invariant rule: what every permitted step preserves holds after every permitted run. -/
theorem Along.invariant {P : σ → ι → Prop} {I : σ → Prop}
    (hstep : ∀ s i, P s i → I s → I (M.step s i).2) {s : σ} {is : List ι}
    (h : M.Along P s is) (hs : I s) : I (M.after s is) := by
  induction is generalizing s with
  | nil => exact hs
  | cons i is ih => exact ih h.2 (hstep s i h.1 hs)

/-- The invariant rule for runs of arbitrary requests. -/
theorem after_invariant {I : σ → Prop} (hstep : ∀ s i, I s → I (M.step s i).2) {s : σ}
    (hs : I s) (is : List ι) : I (M.after s is) :=
  (along_of_forall M (P := fun _ _ => True) (fun _ _ => trivial) s is).invariant
    (fun s i _ => hstep s i) hs

/-- The history rule: what every permitted step preserves of the requests answered so far and
the state holds of the whole trace and the last state. -/
theorem Along.trace_invariant {P : σ → ι → Prop} {J : List (ι × ο) → σ → Prop}
    (hstep : ∀ hist s i, P s i → J hist s → J (hist ++ [(i,(M.step s i).1)]) (M.step s i).2)
    {s : σ} {is : List ι} (h : M.Along P s is) (hs : J [] s) : J (M.trace s is) (M.after s is) := by
  have hrun (hist : List (ι × ο)) (s : σ) (is : List ι) (h : M.Along P s is) (hj : J hist s) :
      J (hist ++ M.trace s is) (M.after s is) := by
    induction is generalizing hist s with
    | nil => simpa [trace] using hj
    | cons i is ih => simpa [trace] using ih _ _ h.2 (hstep hist s i h.1 hj)
  exact hrun [] s is h hs

/-- The history rule for runs of arbitrary requests. -/
theorem trace_invariant {J : List (ι × ο) → σ → Prop}
    (hstep : ∀ hist s i, J hist s → J (hist ++ [(i,(M.step s i).1)]) (M.step s i).2) {s : σ}
    (hs : J [] s) (is : List ι) : J (M.trace s is) (M.after s is) :=
  (along_of_forall M (P := fun _ _ => True) (fun _ _ => trivial) s is).trace_invariant
    (fun hist s i _ => hstep hist s i) hs

/-- What only some requests bring about, and nothing undoes, holds after a run that has one of
them. -/
theorem after_iff_sometime {P : σ → ι → Prop} {Q : σ → Prop}
    (hstep : ∀ s i, Q (M.step s i).2 ↔ Q s ∨ P s i) (s : σ) (is : List ι) :
    Q (M.after s is) ↔ Q s ∨ M.Sometime P s is := by
  induction is generalizing s with
  | nil => simp [Sometime]
  | cons i is ih => rw [after_cons,ih,hstep,Sometime,or_assoc]

/-- A preorder that every step climbs relates the two ends of every run. -/
theorem after_rel {R : σ → σ → Prop} (hrefl : ∀ s, R s s)
    (htrans : ∀ s t u, R s t → R t u → R s u) (hstep : ∀ s i, R s (M.step s i).2)
    (s : σ) (is : List ι) : R s (M.after s is) := by
  induction is generalizing s with
  | nil => exact hrefl s
  | cons i is ih => exact htrans _ _ _ (hstep s i) (ih _)

end SerialMachine
