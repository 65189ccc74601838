import EtsiQkd004.Client.Exchange
import EtsiQkd004.Server.Lifetime

/-! The connections of a client. Each call makes one of its own and gives nothing of it back, so the
number of calls that a client can make is bounded by the descriptors it has left. -/
namespace EtsiQkd004
open Descriptors

section Calls
variable [OpenSsl] {σ : Type} (libc : Prng σ) (cfg : TlsConfig)

/-- The calls of a client that has holdings, or has exited. The sessions of the others take place in
either case. -/
def connected : SerialMachine (Option Holdings × Process σ)
    (TlsResults × List Session × Request × Env × CallMemory) (Option Response) where
  step z x :=
    match z.1 with
    | none => (none,(none,(socketServerInit libc).after z.2 x.2.1))
    | some h =>
      match socketClientInit x.1 cfg h with
      | none => (none,(none,(socketServerInit libc).after z.2 x.2.1))
      | some (_,h') =>
        let y := (company libc).step z.2 x.2
        (y.1,(y.1.map fun _ => h',y.2))

/-- The calls that return. -/
def answered (z : Option Holdings × Process σ)
    (run : List (TlsResults × List Session × Request × Env × CallMemory)) : List Response :=
  ((connected libc cfg).trace z run).filterMap Prod.snd

lemma answered_exited (p : Process σ)
    (run : List (TlsResults × List Session × Request × Env × CallMemory)) :
    answered libc cfg (none,p) run = [] ∧ ((connected libc cfg).after (none,p) run).1 = none := by
  induction run generalizing p with
  | nil => exact ⟨rfl,rfl⟩
  | cons x run ih => exact ih _

section Step
variable {h h' : Holdings} {p : Process σ} {x : TlsResults × List Session × Request × Env × CallMemory}
  (run : List (TlsResults × List Session × Request × Env × CallMemory))

/-- A client that cannot connect exits. -/
lemma answered_cons_none (hinit : socketClientInit x.1 cfg h = none) :
    answered libc cfg (some h,p) (x::run) = [] ∧
      ((connected libc cfg).after (some h,p) (x::run)).1 = none := by
  have hstep : (connected libc cfg).step (some h,p) x =
      (none,(none,(socketServerInit libc).after p x.2.1)) := by
    simp only [connected,hinit]
  rw [answered,SerialMachine.trace,SerialMachine.after_cons,hstep,List.filterMap_cons_none rfl]
  exact answered_exited libc cfg _ run

/-- A client that connects makes its call. -/
lemma answered_cons_some {ssl : Ssl} (hinit : socketClientInit x.1 cfg h = some (ssl,h'))
    {response : Response} (hresponse : ((company libc).step p x.2).1 = some response) :
    answered libc cfg (some h,p) (x::run) =
        response :: answered libc cfg (some h',((company libc).step p x.2).2) run ∧
      (connected libc cfg).after (some h,p) (x::run) =
        (connected libc cfg).after (some h',((company libc).step p x.2).2) run := by
  have hstep : (connected libc cfg).step (some h,p) x =
      (some response,(some h',((company libc).step p x.2).2)) := by
    simp only [connected,hinit,hresponse,Option.map_some]
  rw [answered,SerialMachine.trace,SerialMachine.after_cons,hstep]
  exact ⟨rfl,rfl⟩

/-- A client whose call does not return exits. -/
lemma answered_cons_lost {ssl : Ssl} (hinit : socketClientInit x.1 cfg h = some (ssl,h'))
    (hresponse : ((company libc).step p x.2).1 = none) :
    answered libc cfg (some h,p) (x::run) = [] ∧
      ((connected libc cfg).after (some h,p) (x::run)).1 = none := by
  have hstep : (connected libc cfg).step (some h,p) x =
      (none,(none,((company libc).step p x.2).2)) := by
    simp only [connected,hinit,hresponse,Option.map_none]
  rw [answered,SerialMachine.trace,SerialMachine.after_cons,hstep,List.filterMap_cons_none rfl]
  exact answered_exited libc cfg _ run

end Step

/-- How many calls are answered, and what the client holds after as many. -/
lemma answered_bound (h : Holdings) (p : Process σ)
    (run : List (TlsResults × List Session × Request × Env × CallMemory)) :
    (answered libc cfg (some h,p) run).length ≤ h.descriptors.left ∧
      ∀ h', ((connected libc cfg).after (some h,p) run).1 = some h' →
        h'.descriptors.left + run.length = h.descriptors.left ∧
        h'.contexts = h.contexts + run.length ∧ h'.connections = h.connections + run.length := by
  induction run generalizing h p with
  | nil =>
    refine ⟨Nat.zero_le _,?_⟩
    rintro h' ⟨⟩
    exact ⟨rfl,rfl,rfl⟩
  | cons x run ih =>
    cases hinit : socketClientInit x.1 cfg h with
    | none =>
      obtain ⟨hanswered,hafter⟩ := answered_cons_none libc cfg (p := p) run hinit
      rw [hanswered,hafter]
      exact ⟨Nat.zero_le _,nofun⟩
    | some y =>
      obtain ⟨ssl,h₁⟩ := y
      obtain ⟨-,fd,descriptors,hfd,-,rfl⟩ := clientInit_some.mp hinit
      have hleft := Table.left_acquire hfd
      cases hresponse : ((company libc).step p x.2).1 with
      | none =>
        obtain ⟨hanswered,hafter⟩ := answered_cons_lost libc cfg run hinit hresponse
        rw [hanswered,hafter]
        exact ⟨Nat.zero_le _,nofun⟩
      | some response =>
        obtain ⟨hanswered,hafter⟩ := answered_cons_some libc cfg run hinit hresponse
        obtain ⟨hbound,hholds⟩ := ih ⟨descriptors,h.contexts+1,h.connections+1⟩
          ((company libc).step p x.2).2
        simp only at hbound hholds
        rw [hanswered,hafter,List.length_cons,List.length_cons]
        refine ⟨by omega,fun h' hh' => ?_⟩
        obtain ⟨hd,hc,hs⟩ := hholds h' hh'
        omega

/-- The calls for which there are descriptors left. -/
lemma answered_eq {h : Holdings} {p : Process σ}
    {run : List (TlsResults × List Session × Request × Env × CallMemory)} {ps : List Response}
    (hconnects : ∀ x ∈ run.take h.descriptors.left, x.1.Connects cfg)
    (hresponses : responses libc p ((run.take h.descriptors.left).map Prod.snd) = some ps) :
    answered libc cfg (some h,p) run = ps ∧
      (h.descriptors.left < run.length → ((connected libc cfg).after (some h,p) run).1 = none) := by
  induction run generalizing h p ps with
  | nil =>
    rw [List.take_nil] at hresponses
    cases hresponses
    exact ⟨rfl,nofun⟩
  | cons x run ih =>
    cases hfd : h.descriptors.acquire with
    | none =>
      have hinit : socketClientInit x.1 cfg h = none := by
        rw [Option.eq_none_iff_forall_ne_some]
        rintro ⟨ssl,h'⟩ hsome
        obtain ⟨-,fd,descriptors,hacquire,-⟩ := clientInit_some.mp hsome
        rw [hfd] at hacquire
        cases hacquire
      rw [Table.acquire_eq_none_iff.mp hfd,List.take_zero] at hresponses
      cases hresponses
      obtain ⟨hanswered,hafter⟩ := answered_cons_none libc cfg (p := p) run hinit
      exact ⟨hanswered,fun _ => hafter⟩
    | some y =>
      obtain ⟨fd,descriptors⟩ := y
      rw [Table.left_acquire hfd,List.take_succ_cons] at hconnects hresponses
      have hinit := clientInit_some.mpr
        ⟨hconnects x List.mem_cons_self,fd,descriptors,hfd,rfl,rfl⟩
      rw [List.map_cons,responses_cons] at hresponses
      obtain ⟨response,hresponse,hresponses⟩ := Option.bind_eq_some_iff.mp hresponses
      obtain ⟨ps,hps,rfl⟩ := Option.map_eq_some_iff.mp hresponses
      obtain ⟨hanswered,hafter⟩ := answered_cons_some libc cfg run hinit hresponse
      obtain ⟨hrest,hexits⟩ := ih (h := ⟨descriptors,h.contexts+1,h.connections+1⟩)
        (fun x hx => hconnects x (List.mem_cons_of_mem _ hx)) hps
      rw [hanswered,hafter,hrest,Table.left_acquire hfd,List.length_cons,Nat.add_lt_add_iff_right]
      exact ⟨rfl,hexits⟩

/-- The life of a client, in any company. It gets at most as many answers as it had descriptors
left, and as long as it is there it holds a descriptor, a context and a connection more for every
call it has made. If nothing else goes wrong, it gets exactly what the calls return up to then, and
the next call ends it. -/
theorem client_connections (h : Holdings) (p : Process σ)
    (run : List (TlsResults × List Session × Request × Env × CallMemory)) :
    let n := h.descriptors.left
    (answered libc cfg (some h,p) run).length ≤ n ∧
      (∀ h', ((connected libc cfg).after (some h,p) run).1 = some h' →
        h'.descriptors.left + run.length = n ∧
        h'.contexts = h.contexts + run.length ∧ h'.connections = h.connections + run.length) ∧
      ∀ ps, (∀ x ∈ run.take n, x.1.Connects cfg) →
        responses libc p ((run.take n).map Prod.snd) = some ps →
        answered libc cfg (some h,p) run = ps ∧
          (n < run.length → ((connected libc cfg).after (some h,p) run).1 = none) := by
  intro n
  obtain ⟨hbound,hholds⟩ := answered_bound libc cfg h p run
  exact ⟨hbound,hholds,fun ps => answered_eq libc cfg⟩

end Calls

section Plain
open PlainSsl

/-- A client with two descriptors left makes three calls, among those of others. -/
theorem client_connections_last :
    let start : Process UInt32 := ⟨.listening,Server.start 32768 (49/100) 1⟩
    let cfg : TlsConfig := ⟨none,none,none,0⟩
    let client : Holdings := ⟨⟨5,{0,1,2},by decide⟩,0,0⟩
    let run := [(flawless,[fetching (Uuid.fill 1)],.openConnect (askMimetype 1),yields 1,zeroed),
      (flawless,[opening],.getKey (askKey (Uuid.fill 1) 7),yields 2,zeroed),
      (flawless,[],.close ⟨Uuid.fill 1⟩,yields 3,zeroed)]
    (answered ansiPrng cfg (some client,start) run).length = 2 ∧
      ((connected ansiPrng cfg).after (some client,start) run).1 = none := by
  intro start cfg client run
  have hleft : client.descriptors.left = 2 := by decide
  have hconnects : flawless.Connects cfg :=
    ⟨by decide,⟨by decide,by decide,by decide,nofun,nofun⟩,by decide,by decide⟩
  have htwo : (responses ansiPrng start ((run.take 2).map Prod.snd)).map List.length = some 2 := by
    decide +kernel
  obtain ⟨ps,hps,hlength⟩ := Option.map_eq_some_iff.mp htwo
  obtain ⟨-,-,h⟩ := client_connections ansiPrng cfg client start run
  rw [hleft] at h
  have hall : ∀ x ∈ run.take 2, x.1.Connects cfg := by
    rintro x (_ | ⟨_,_ | ⟨_,⟨⟩⟩⟩)
    · exact hconnects
    · exact hconnects
  obtain ⟨hanswered,hexits⟩ := h ps hall hps
  exact ⟨by rw [hanswered,hlength],hexits (by decide)⟩

end Plain

end EtsiQkd004
