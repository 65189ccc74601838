import EtsiQkd004.Library.SerialMachine

/-! A machine that stands in front of another one and hands on some of its requests, until it
stops. Its runs are those of the machine behind it, on the requests handed on. -/
namespace SerialMachine
variable {σ τ ι κ ο ρ : Type*}

/-- While `live`, the machine `M` hands on the requests that `call` makes out, with the state
`abs` of the machine `N` behind it, and answers with `out`; it answers `quiet` to the others.
When it is not live it does nothing. -/
structure Forwards (M : SerialMachine σ ι ο) (N : SerialMachine τ κ ρ) (live : σ → Prop)
    (abs : σ → τ) (call : ι → Option κ) (out : ρ → ο) (quiet : ο) : Prop where
  stopped : ∀ s i, ¬ live s → M.step s i = (quiet,s)
  dropped : ∀ s i, live s → call i = none → (M.step s i).1 = quiet ∧ abs (M.step s i).2 = abs s
  passed : ∀ s i k, live s → call i = some k →
    (M.step s i).1 = out (N.step (abs s) k).1 ∧ abs (M.step s i).2 = (N.step (abs s) k).2

/-- What is to be seen of the requests handed on: what they were taken for, and the answers. -/
def handedOn (call : ι → Option κ) (hist : List (ι × ο)) : List (κ × ο) :=
  hist.filterMap fun x => (call x.1).map fun k => (k,x.2)

namespace Forwards
variable {M : SerialMachine σ ι ο} {N : SerialMachine τ κ ρ} {live : σ → Prop} {abs : σ → τ}
  {call : ι → Option κ} {out : ρ → ο} {quiet : ο}

lemma after_stopped (h : M.Forwards N live abs call out quiet) {s : σ} (hs : ¬ live s)
    (is : List ι) : M.after s is = s ∧ ∀ x ∈ M.trace s is, x.2 = quiet := by
  induction is with
  | nil => exact ⟨rfl,by simp [trace]⟩
  | cons i is ih => simpa [trace,h.stopped s i hs] using ih

/-- As many requests of a run are handed on as come before the machine stops. All of them are if
it does not. -/
theorem run (h : M.Forwards N live abs call out quiet) (s : σ) (is : List ι) :
    ∃ n ≤ is.length, (live (M.after s is) → n = is.length) ∧
      abs (M.after s is) = N.after (abs s) ((is.take n).filterMap call) ∧
      handedOn call ((M.trace s is).take n) =
        (N.trace (abs s) ((is.take n).filterMap call)).map (fun x => (x.1,out x.2)) ∧
      (∀ x ∈ (M.trace s is).take n, call x.1 = none → x.2 = quiet) ∧
      ∀ x ∈ (M.trace s is).drop n, x.2 = quiet := by
  induction is generalizing s with
  | nil => exact ⟨0,Nat.le_refl 0,fun _ => rfl,rfl,rfl,by simp,by simp [trace]⟩
  | cons i is ih =>
    by_cases hs : live s
    · obtain ⟨n,hn,hlive,hafter,htrace,hquiet,hlate⟩ := ih (M.step s i).2
      refine ⟨n+1,Nat.succ_le_succ hn,fun hl => congrArg Nat.succ (hlive hl),?_⟩
      rw [handedOn] at htrace
      simp only [trace,List.take_succ_cons,List.drop_succ_cons,List.forall_mem_cons,handedOn,
        List.filterMap_cons,after_cons]
      cases hc : call i with
      | none =>
        obtain ⟨hout,habs⟩ := h.dropped s i hs hc
        rw [habs] at hafter htrace
        exact ⟨hafter,htrace,⟨fun _ => hout,hquiet⟩,hlate⟩
      | some k =>
        obtain ⟨hout,habs⟩ := h.passed s i k hs hc
        rw [habs] at hafter htrace
        refine ⟨hafter,?_,⟨fun hk => by contradiction,hquiet⟩,hlate⟩
        simp only [Option.map_some,trace,List.map_cons,htrace,hout]
    · obtain ⟨hafter,hquiet⟩ := h.after_stopped hs (i::is)
      refine ⟨0,Nat.zero_le _,?_,by rw [hafter]; rfl,rfl,by simp,hquiet⟩
      intro hlive
      rw [hafter] at hlive
      exact absurd hlive hs

end Forwards
end SerialMachine
