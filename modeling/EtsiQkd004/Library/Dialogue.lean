import EtsiQkd004.Library.SerialMachine

/-! Programs that put requests to a serial machine and go on with its answers, and how a run of
one machine is replaced by a run of another one under such a program. -/

/-- A program that has come to its result, or puts a request and goes on with the answer. -/
inductive Dialogue (ι ο α : Type) : Type
  | done (a : α)
  | ask (i : ι) (next : ο → Dialogue ι ο α)

namespace Dialogue
variable {ι ο α β : Type}

def bind : Dialogue ι ο α → (α → Dialogue ι ο β) → Dialogue ι ο β
  | done a,f => f a
  | ask i next,f => ask i fun o => (next o).bind f

instance : Monad (Dialogue ι ο) where
  pure := done
  bind := bind

/-- The program that puts a request and returns the answer. -/
def put (i : ι) : Dialogue ι ο ο := ask i done

/-- Whatever it is answered, the program puts only requests that satisfy `A`. -/
def Only (A : ι → Prop) : Dialogue ι ο α → Prop
  | done _ => True
  | ask i next => A i ∧ ∀ o, (next o).Only A

theorem Only.bind {A : ι → Prop} {d : Dialogue ι ο α} {f : α → Dialogue ι ο β} (h : d.Only A)
    (hf : ∀ a, (f a).Only A) : (d >>= f).Only A := by
  induction d with
  | done a => exact hf a
  | ask i next ih => exact ⟨h.1,fun o => ih o (h.2 o)⟩

end Dialogue

namespace SerialMachine
variable {σ τ ι ο α β : Type} (M : SerialMachine σ ι ο)

/-- The result of a program, and the state in which it leaves the machine. -/
def hold : Dialogue ι ο α → σ → α × σ
  | .done a,s => (a,s)
  | .ask i next,s => hold (next (M.step s i).1) (M.step s i).2

/-- Every request of the program satisfies `P` in the state that serves it. -/
def Throughout (P : σ → ι → Prop) : Dialogue ι ο α → σ → Prop
  | .done _,_ => True
  | .ask i next,s => P s i ∧ Throughout P (next (M.step s i).1) (M.step s i).2

variable {M}

theorem hold_bind (d : Dialogue ι ο α) (f : α → Dialogue ι ο β) (s : σ) :
    M.hold (d >>= f) s = M.hold (f (M.hold d s).1) (M.hold d s).2 := by
  induction d generalizing s with
  | done a => rfl
  | ask i next ih => exact ih (M.step s i).1 (M.step s i).2

/-- The invariant rule: where `I` is kept by every request that satisfies `A`, what it gives for such
requests is true throughout a program that puts no others. -/
theorem throughout_of_only {P : σ → ι → Prop} {A : ι → Prop} {I : σ → Prop}
    (hstep : ∀ s i, I s → A i → P s i ∧ I (M.step s i).2) {d : Dialogue ι ο α} (h : d.Only A) {s : σ}
    (hs : I s) : M.Throughout P d s := by
  induction d generalizing s with
  | done a => trivial
  | ask i next ih =>
    obtain ⟨hi,hnext⟩ := hstep s i hs h.1
    exact ⟨hi,ih _ (h.2 _) hnext⟩

/-- What is kept by every request that satisfies `A` is true once such a program has ended. -/
theorem hold_of_only {A : ι → Prop} {I : σ → Prop} (hstep : ∀ s i, I s → A i → I (M.step s i).2)
    {d : Dialogue ι ο α} (h : d.Only A) {s : σ} (hs : I s) : I (M.hold d s).2 := by
  induction d generalizing s with
  | done a => exact hs
  | ask i next ih => exact ih _ (h.2 _) (hstep s i hs h.1)

/-- A machine `N` that stands for `M` wherever `P` holds stands for it in every program whose
requests all satisfy `P`. -/
theorem Throughout.hold_eq {N : SerialMachine τ ι ο} {P : σ → ι → Prop} {f : τ → σ}
    (hstep : ∀ t i, P (f t) i → M.step (f t) i = ((N.step t i).1,f (N.step t i).2))
    {d : Dialogue ι ο α} {t : τ} (h : M.Throughout P d (f t)) :
    M.hold d (f t) = ((N.hold d t).1,f (N.hold d t).2) := by
  induction d generalizing t with
  | done a => rfl
  | ask i next ih =>
    obtain ⟨hi,hnext⟩ := h
    rw [hold,hstep t i hi]
    rw [hstep t i hi] at hnext
    exact ih _ hnext

end SerialMachine
