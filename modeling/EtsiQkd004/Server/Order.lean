import EtsiQkd004.Server.Sessions
import EtsiQkd004.Library.Reordering

/-! The order in which clients are accepted: it does not matter once what they ask for is
settled. -/
namespace EtsiQkd004
open Registry Chunks

/-- The list once a key has been taken from the stream `k`. -/
def takeKey (k : Uuid) : List KsidInfo → List KsidInfo
  | [] => []
  | e::l => if e.keyStreamId=k then e.counted::l else e::takeKey k l

lemma takeKey_comm (k k' : Uuid) (l : List KsidInfo) :
    takeKey k (takeKey k' l) = takeKey k' (takeKey k l) := by
  induction l with
  | nil => rfl
  | cons e l ih =>
    have hkey : e.counted.keyStreamId = e.keyStreamId := rfl
    by_cases hk : e.keyStreamId=k
    · by_cases hk' : e.keyStreamId=k'
      · rw [← hk,← hk']
      · simp only [takeKey,if_pos hk,if_neg hk',hkey]
    · by_cases hk' : e.keyStreamId=k'
      · simp only [takeKey,if_neg hk,if_pos hk',hkey]
      · simp only [takeKey,if_neg hk,if_neg hk',ih]

lemma takeKey_eq (k : Uuid) (l : List KsidInfo) :
    takeKey k l = match getKeySearch k l with
      | none => l
      | some (before,node,behind) => before ++ node.counted::behind := by
  induction l with
  | nil => rfl
  | cons e l ih =>
    rw [takeKey,getKeySearch]
    by_cases hk : k=e.keyStreamId
    · simp only [if_pos hk,if_pos hk.symm]
      rfl
    · rw [if_neg hk,if_neg (Ne.symm hk),ih]
      cases getKeySearch k l with
      | none => rfl
      | some x => rfl

variable {σ : Type} (libc : Prng σ)

/-- What a request does to the list, if it registers nothing. -/
def touch (l : List KsidInfo) : Request → List KsidInfo
  | .getKey r => takeKey r.keyStreamId l
  | .openConnect _ | .close _ => l

lemma touch_comm (l : List KsidInfo) (q q' : Request) :
    touch (touch l q) q' = touch (touch l q') q := by
  cases q with
  | getKey r =>
    cases q' with
    | getKey r' => exact takeKey_comm _ _ l
    | openConnect _ | close _ => rfl
  | openConnect _ | close _ =>
    cases q' with
    | getKey _ | openConnect _ | close _ => rfl

/-- A settled request registers nothing. -/
lemma serve_settled_store {s : Server σ} {q : Request} (h : Settled s q) (env : Env) :
    (serve libc s (q,env)).2.store = touch s.store q := by
  cases q with
  | openConnect r =>
    by_cases hnil : r.keyStreamId=Uuid.nil
    · obtain ⟨e,he⟩ := exists_lookup_iff.mpr (h.resolve_left (not_not.mpr hnil))
      rw [serve_found libc hnil he]
      rfl
    · rw [serve_supplied libc hnil]
      rfl
  | getKey r =>
    rw [touch,takeKey_eq]
    simp only [serve,qkdGetKeyStruct,serverCalls,StateT.run]
    change _ = match getKeySearch r.keyStreamId s.config.ksidInfoLinkedList with
      | none => _
      | some (before,node,behind) => _
    cases getKeySearch r.keyStreamId s.config.ksidInfoLinkedList with
    | none => rfl
    | some x => rfl
  | close r => rfl

/-- What is settled stays settled. -/
lemma settled_after {s : Server σ} {q : Request} (h : Settled s q) (run : List (Request × Env)) :
    Settled ((server libc).after s run) q := by
  cases q with
  | openConnect r =>
    refine h.imp_right fun hmem => ?_
    obtain ⟨e,he⟩ := exists_lookup_iff.mpr hmem
    have hd : directory s.store (r.source,r.destination) = some e.keyStreamId := by
      rw [directory,he,Option.map_some]
    obtain ⟨e',he',-⟩ := Option.map_eq_some_iff.mp (directory_after libc s run _ _ hd)
    exact exists_lookup_iff.mp ⟨e',he'⟩
  | getKey r =>
    obtain ⟨e,he⟩ := exists_lookup_iff.mpr h
    obtain ⟨e',he',-⟩ := lookup_after libc he run
    exact exists_lookup_iff.mp ⟨e',he'⟩
  | close r => trivial

section Sessions
variable [OpenSsl] {s : Server σ}

/-- A session that comes down to a settled request, or to none, and leaves the loop listening. -/
structure Harmless (s : Server σ) (x : Session) : Prop where
  settled : ∀ i, x.call = some i → Settled s i.1
  listening : ((socketServerInit libc).step ⟨.listening,s⟩ x).2.status=.listening

/-- A loop that is listening has been listening all along. -/
lemma listening_of_append {p : Process σ} {xs ys : List Session}
    (h : ((socketServerInit libc).after p (xs ++ ys)).status=.listening) :
    ((socketServerInit libc).after p xs).status=.listening := by
  by_contra hstopped
  rw [SerialMachine.after_append] at h
  obtain ⟨hsame,-⟩ := (socketServerInit_forwards libc).after_stopped hstopped ys
  rw [hsame] at h
  exact hstopped h

/-- The loop goes on listening through harmless sessions. -/
lemma after_harmless {sessions : List Session} (h : ∀ x ∈ sessions, Harmless libc s x) :
    (socketServerInit libc).after ⟨.listening,s⟩ sessions =
      ⟨.listening,(server libc).after s (sessions.filterMap Session.call)⟩ := by
  apply after_listening
  induction sessions using List.reverseRecOn with
  | nil => rfl
  | append_singleton sessions x ih =>
    have hinit : ∀ y ∈ sessions, Harmless libc s y := fun y hy => h y (List.mem_append_left _ hy)
    have hx := h x (List.mem_append_right _ (List.mem_singleton_self x))
    rw [SerialMachine.after_append,after_listening libc (ih hinit)]
    exact (step_settled libc hx.settled _).2.trans hx.listening

/-- In a run that leaves the loop listening, sessions with settled requests are harmless. -/
lemma harmless_of_listening {sessions : List Session}
    (hsettled : ∀ x ∈ sessions, ∀ i, x.call = some i → Settled s i.1)
    (halive : ((socketServerInit libc).after ⟨.listening,s⟩ sessions).status=.listening) :
    ∀ x ∈ sessions, Harmless libc s x := by
  intro x hx
  refine ⟨hsettled x hx,?_⟩
  obtain ⟨pre,post,rfl⟩ := List.append_of_mem hx
  rw [List.append_cons] at halive
  have hstep := listening_of_append libc halive
  have hpre := listening_of_append libc hstep
  rw [SerialMachine.after_append,after_listening libc hpre] at hstep
  exact (step_settled libc (hsettled x hx) _).2.symm.trans hstep

lemma harmless_stable {x : Session} (hx : Harmless libc s x) :
    (socketServerInit libc).Stable (Harmless libc s) ⟨.listening,s⟩ x := by
  intro sessions h
  rw [after_harmless libc h]
  exact (step_settled libc hx.settled _).1

/-- What a session does to the list, if it registers nothing. -/
def Session.touch (l : List KsidInfo) (x : Session) : List KsidInfo :=
  match x.call with
  | none => l
  | some i => EtsiQkd004.touch l i.1

lemma Session.touch_comm (l : List KsidInfo) (x y : Session) :
    Session.touch (Session.touch l x) y = Session.touch (Session.touch l y) x := by
  unfold Session.touch
  cases x.call with
  | none => rfl
  | some i =>
    cases y.call with
    | none => rfl
    | some j => exact EtsiQkd004.touch_comm l i.1 j.1

lemma harmless_actsBy {x : Session} (hx : Harmless libc s x) :
    (socketServerInit libc).ActsBy (Harmless libc s) (fun p => p.server.store) Session.touch
      ⟨.listening,s⟩ x := by
  intro sessions h
  have hforwards := socketServerInit_forwards libc
  rw [after_harmless libc h]
  let p : Process σ := ⟨.listening,(server libc).after s (sessions.filterMap Session.call)⟩
  change ((socketServerInit libc).step p x).2.server.store = Session.touch p.server.store x
  cases hcall : x.call with
  | none =>
    rw [(hforwards.dropped p x rfl hcall).2]
    simp only [Session.touch,hcall]
  | some i =>
    have hsettled := settled_after libc (hx.settled i hcall) (sessions.filterMap Session.call)
    rw [(hforwards.passed p x i rfl hcall).2]
    simp only [Session.touch,hcall]
    exact serve_settled_store libc hsettled i.2

/-- Sessions with settled requests may be accepted in any order. If one order leaves the loop
listening, so does every other; every client is sent the same bytes, and the list of key streams
comes out the same, with the same counters. -/
theorem sessions_in_any_order {sessions sessions' : List Session}
    (hsettled : ∀ x ∈ sessions, ∀ i, x.call = some i → Settled s i.1)
    (halive : ((socketServerInit libc).after ⟨.listening,s⟩ sessions).status=.listening)
    (hperm : sessions.Perm sessions') :
    ((socketServerInit libc).trace ⟨.listening,s⟩ sessions).Perm
        ((socketServerInit libc).trace ⟨.listening,s⟩ sessions') ∧
      ((socketServerInit libc).after ⟨.listening,s⟩ sessions').status=.listening ∧
      ((socketServerInit libc).after ⟨.listening,s⟩ sessions').server.store =
        ((socketServerInit libc).after ⟨.listening,s⟩ sessions).server.store := by
  have h := harmless_of_listening libc hsettled halive
  have h' : ∀ x ∈ sessions', Harmless libc s x := fun x hx => h x (hperm.mem_iff.mpr hx)
  refine ⟨SerialMachine.trace_perm (fun x => harmless_stable libc) h hperm,?_,?_⟩
  · rw [after_harmless libc h']
  · exact (SerialMachine.after_perm (fun x => harmless_actsBy libc) Session.touch_comm h
      hperm).symm

end Sessions

section Plain
open PlainSsl

/-- A server with two streams. -/
def twoStreams : Server UInt32 :=
  (server ansiPrng).after (Server.start 32768 (49/100) 1)
    [(askStream nodeB nodeA 3,yields 7),(askStream nodeA nodeB 5,yields 8)]

lemma fetching_settled {k : Uuid} (hk : k ∈ twoStreams.store.map KsidInfo.keyStreamId)
    (i : Request × Env) (hi : (fetching k).call = some i) : Settled twoStreams i.1 := by
  rw [fetching_call] at hi
  obtain rfl := Option.some.inj hi
  exact hk

/-- A key of each stream is fetched, before or after the handshake of a third client fails. -/
theorem sessions_in_any_order_three :
    let sessions := [fetching (Uuid.fill 7),fetching (Uuid.fill 8),turnedAway]
    let process := (socketServerInit ansiPrng).after ⟨.listening,twoStreams⟩ sessions
    let process' := (socketServerInit ansiPrng).after ⟨.listening,twoStreams⟩ sessions.reverse
    ((socketServerInit ansiPrng).trace ⟨.listening,twoStreams⟩ sessions).Perm
        ((socketServerInit ansiPrng).trace ⟨.listening,twoStreams⟩ sessions.reverse) ∧
      process'.server.store = process.server.store ∧
      process.server.store.map KsidInfo.currentIndex = [1,1] := by
  intro sessions process process'
  have hsettled : ∀ x ∈ sessions, ∀ i, x.call = some i → Settled twoStreams i.1 := by
    intro x hx
    rcases List.mem_cons.mp hx with rfl | hx
    · exact fetching_settled (by decide +kernel)
    rcases List.mem_pair.mp hx with rfl | rfl
    · exact fetching_settled (by decide +kernel)
    · intro i hi
      cases hi
  have halive : process.status=.listening := by decide +kernel
  obtain ⟨htrace,-,hstore⟩ := sessions_in_any_order ansiPrng hsettled halive
    (List.reverse_perm sessions).symm
  exact ⟨htrace,hstore,by decide +kernel⟩

end Plain

end EtsiQkd004
