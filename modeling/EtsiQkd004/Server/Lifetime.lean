import EtsiQkd004.Server.Sessions
import EtsiQkd004.Socket.Setup

/-! The server from its start to its end, with what it holds of the operating system and of the TLS
library. However many clients come, nothing of it grows, and all of it is given back. -/
namespace EtsiQkd004
open Descriptors

/-- What the library calls of the server's set-up return. -/
structure ServerResults where
  tls : TlsResults
  setsockopt : Int32
  bind : Int32
  listen : Int32

/-- A client that comes: what it brings, and whether it can be accepted and an `SSL` be made for
it. -/
structure Arrival where
  session : Session
  accepts : Bool
  sslNew : Bool

/-- The handshake fails over a descriptor that is not there. -/
def Session.refused (x : Session) : Session := { x with sslAccept := -1 }

section Server
variable {σ : Type} (libc : Prng σ)

/-- The result of `socket` is not looked at, but the next call fails over a negative one. -/
def socketCreateServer (r : ServerResults) : SetUp ℕ := do
  match ← newDescriptor with
  | none => failure
  | some fd => do
    exitIf (r.setsockopt < 0)
    exitIf (r.bind ≠ 0)
    exitIf (r.listen ≠ 0)
    pure fd

/-- `SSL_free` -/
def sslFree : SetUp Unit := modify fun h => { h with connections := h.connections-1 }

/-- `SSL_CTX_free` -/
def sslContextFree : SetUp Unit := modify fun h => { h with contexts := h.contexts-1 }

/-- `accept` -/
def acceptClient (a : Arrival) : SetUp (Option ℕ) := if a.accepts then newDescriptor else pure none

/-- A round of the loop of `socket_server_init`. A process that has ended in the servlet closes
nothing. -/
def acceptRound [OpenSsl] (ctx : SslContext) (a : Arrival) (p : Process σ) :
    SetUp (Bytes × Process σ) := do
  let clientSocket ← acceptClient a
  let ssl ← socketSslInit a.sslNew ctx clientSocket
  let session := if ssl.fd.isNone then a.session.refused else a.session
  let y := (socketServerInit libc).step p session
  if y.2.status=.dead then pure y
  else do
    sslFree
    closeDescriptor clientSocket
    pure y

/-- The loop. -/
def acceptLoop [OpenSsl] (ctx : SslContext) : SerialMachine (Process σ × Holdings) Arrival Bytes where
  step z a :=
    match z.1.status with
    | .listening =>
      match acceptRound libc ctx a z.1 z.2 with
      | none => ([],({ z.1 with status := .dead },z.2))
      | some (y,h) => (y.1,(y.2,h))
    | .finished | .dead => ([],z)

/-- What follows the loop, if it is left. -/
def leaveLoop (p : Process σ) (serverSocket : ℕ) : SetUp Unit :=
  if p.status=.finished then do
    closeDescriptor (some serverSocket)
    sslContextFree
  else pure ()

/-- `socket_server_init` as a whole, up to some arrival. What has been sent to the clients, and the
process. -/
def serverLifetime [OpenSsl] (r : ServerResults) (port : UInt16) (uid : UInt32) (cfg : TlsConfig)
    (s : Server σ) (arrivals : List Arrival) : SetUp (List Bytes × Process σ) := do
  exitIf (port < 1024 ∧ uid ≠ 0)
  let ctx ← socketSslContextCreate r.tls .server cfg
  let serverSocket ← socketCreateServer r
  let h ← get
  let sent := ((acceptLoop libc ctx).trace (⟨.listening,s⟩,h) arrivals).map Prod.snd
  let z := (acceptLoop libc ctx).after (⟨.listening,s⟩,h) arrivals
  set z.2
  leaveLoop z.1 serverSocket
  pure (sent,z.1)

/-- The sessions that the loop over sessions sees. -/
def Arrival.seen (a : Arrival) : Session := if a.accepts then a.session else a.session.refused

end Server

section Round
variable [OpenSsl] {σ : Type} (libc : Prng σ) (ctx : SslContext) {a : Arrival} {p : Process σ}
  {h : Holdings}

/-- The rest of a round, once the client has been accepted or not. -/
lemma acceptRound_some {socket : Option ℕ} {h₁ : Holdings} (hssl : a.sslNew=true)
    (haccept : acceptClient a h = some (socket,h₁))
    (hseen : a.seen = if socket.isNone then a.session.refused else a.session)
    (hclose : closeDescriptor socket h₁ = some ((),h)) :
    ∃ h', acceptRound libc ctx a p h = some ((socketServerInit libc).step p a.seen,h') ∧
      (((socketServerInit libc).step p a.seen).2.status≠.dead → h'=h) := by
  have hinit : socketSslInit a.sslNew ctx socket h₁ =
      some (⟨ctx,socket⟩,{ h₁ with connections := h₁.connections+1 }) :=
    sslInit_some.mpr ⟨by rw [hssl]; decide,rfl,rfl⟩
  by_cases hdead : ((socketServerInit libc).step p a.seen).2.status=.dead
  · refine ⟨{ h₁ with connections := h₁.connections+1 },
      bind_some.mpr ⟨socket,h₁,haccept,bind_some.mpr ⟨_,_,hinit,?_⟩⟩,
      fun halive => absurd hdead halive⟩
    simp only [← hseen,if_pos hdead]
    rfl
  · refine ⟨h,bind_some.mpr ⟨socket,h₁,haccept,bind_some.mpr ⟨_,_,hinit,?_⟩⟩,fun _ => rfl⟩
    simp only [← hseen,if_neg hdead]
    exact bind_some.mpr ⟨(),_,rfl,bind_some.mpr ⟨(),_,hclose,rfl⟩⟩

/-- A round with a descriptor left, for whoever comes. What it has opened it closes. -/
lemma acceptRound_eq (hleft : h.descriptors.left≠0) (hssl : a.sslNew=true) :
    ∃ h', acceptRound libc ctx a p h = some ((socketServerInit libc).step p a.seen,h') ∧
      (((socketServerInit libc).step p a.seen).2.status≠.dead → h'=h) := by
  cases haccepts : a.accepts with
  | true =>
    cases hfd : h.descriptors.acquire with
    | none => exact absurd (Table.acquire_eq_none_iff.mp hfd) hleft
    | some y =>
      obtain ⟨fd,descriptors⟩ := y
      have haccept : acceptClient a h = some (some fd,{ h with descriptors }) := by
        rw [acceptClient,if_pos haccepts,newDescriptor,hfd]
      have hclose : closeDescriptor (some fd) { h with descriptors } = some ((),h) := by
        simp only [closeDescriptor,modify_some,Table.release_acquire hfd]
      apply acceptRound_some libc ctx hssl haccept _ hclose
      rw [Arrival.seen,haccepts]
      rfl
  | false =>
    have haccept : acceptClient a h = some (none,h) := by
      rw [acceptClient,haccepts]
      rfl
    apply acceptRound_some libc ctx hssl haccept _ rfl
    rw [Arrival.seen,haccepts]
    rfl

/-- What a round does, and what the loop holds behind it unless the process has ended. -/
lemma acceptLoop_step (hleft : p.status≠.dead → h.descriptors.left≠0) (hssl : a.sslNew=true) :
    ∃ h', (acceptLoop libc ctx).step (p,h) a =
        (((socketServerInit libc).step p a.seen).1,((socketServerInit libc).step p a.seen).2,h') ∧
      (((socketServerInit libc).step p a.seen).2.status≠.dead → h'=h) := by
  obtain ⟨status,s⟩ := p
  cases status with
  | listening =>
    have hlistening : ServerStatus.listening ≠ .dead := by decide
    obtain ⟨h',hround,hsame⟩ := acceptRound_eq libc ctx (p := ⟨.listening,s⟩) (hleft hlistening) hssl
    refine ⟨h',?_,hsame⟩
    simp only [acceptLoop,hround]
  | finished => exact ⟨h,rfl,fun _ => rfl⟩
  | dead => exact ⟨h,rfl,fun _ => rfl⟩

/-- Any run of the loop. -/
lemma acceptLoop_run (hleft : p.status≠.dead → h.descriptors.left≠0) {arrivals : List Arrival}
    (hssl : ∀ a ∈ arrivals, a.sslNew=true) :
    let z := (acceptLoop libc ctx).after (p,h) arrivals
    ((acceptLoop libc ctx).trace (p,h) arrivals).map Prod.snd =
        ((socketServerInit libc).trace p (arrivals.map Arrival.seen)).map Prod.snd ∧
      z.1 = (socketServerInit libc).after p (arrivals.map Arrival.seen) ∧
      (z.1.status≠.dead → z.2=h) := by
  induction arrivals generalizing p h with
  | nil => exact ⟨rfl,rfl,fun _ => rfl⟩
  | cons a arrivals ih =>
    obtain ⟨h',hstep,hsame⟩ := acceptLoop_step libc ctx hleft (hssl a List.mem_cons_self)
    have hleft' : ((socketServerInit libc).step p a.seen).2.status≠.dead → h'.descriptors.left≠0 := by
      intro halive
      rw [hsame halive]
      apply hleft
      rintro hdead
      apply halive
      rw [socketServerInit]
      simp only [hdead]
    obtain ⟨htrace,hafter,hholds⟩ := ih hleft' fun a ha => hssl a (List.mem_cons_of_mem _ ha)
    simp only [SerialMachine.trace,SerialMachine.after_cons,List.map_cons,hstep]
    refine ⟨by rw [htrace],hafter,fun halive => ?_⟩
    rw [hholds halive]
    apply hsame
    intro hdead
    apply halive
    rw [hafter,((socketServerInit_forwards libc).after_stopped _ _).1,hdead]
    rw [hdead]
    decide

end Round

section Lifetime
variable {σ : Type} (libc : Prng σ)

/-- The set-up of a server gets through. -/
structure ServerResults.Serves (r : ServerResults) (port : UInt16) (uid : UInt32) (cfg : TlsConfig) :
    Prop where
  permitted : ¬ (port < 1024 ∧ uid ≠ 0)
  creates : r.tls.Creates .server cfg
  setsockopt : ¬ r.setsockopt < 0
  bind : ¬ r.bind ≠ 0
  listen : ¬ r.listen ≠ 0

lemma createServer_some {r : ServerResults} {port : UInt16} {uid : UInt32} {cfg : TlsConfig}
    (hr : r.Serves port uid cfg) {h : Holdings} {fd : ℕ} {descriptors : Table}
    (hfd : h.descriptors.acquire = some (fd,descriptors)) :
    socketCreateServer r h = some (fd,{ h with descriptors }) := by
  have hnew : newDescriptor h = some (some fd,{ h with descriptors }) := by
    rw [newDescriptor,hfd]
  exact bind_some.mpr ⟨some fd,_,hnew,bind_some.mpr ⟨(),_,exitIf_some.mpr ⟨hr.setsockopt,rfl⟩,
    bind_some.mpr ⟨(),_,exitIf_some.mpr ⟨hr.bind,rfl⟩,bind_some.mpr ⟨(),_,
      exitIf_some.mpr ⟨hr.listen,rfl⟩,rfl⟩⟩⟩⟩

/-- The set-up and the loop. Unless the process has ended, it holds the listening socket and the
context when the loop is left. -/
lemma serverLifetime_leave [OpenSsl] {r : ServerResults} {port : UInt16} {uid : UInt32}
    {cfg : TlsConfig} (hr : r.Serves port uid cfg) {h : Holdings} {fd : ℕ} {descriptors : Table}
    (hfd : h.descriptors.acquire = some (fd,descriptors)) (hleft : descriptors.left≠0)
    (s : Server σ) {arrivals : List Arrival} (hssl : ∀ a ∈ arrivals, a.sslNew=true) :
    let sessions := arrivals.map Arrival.seen
    let p := (socketServerInit libc).after ⟨.listening,s⟩ sessions
    ∃ h₂, (p.status≠.dead → h₂ = ⟨descriptors,h.contexts+1,h.connections⟩) ∧
      ∀ h', leaveLoop p fd h₂ = some ((),h') →
        serverLifetime libc r port uid cfg s arrivals h =
          some ((((socketServerInit libc).trace ⟨.listening,s⟩ sessions).map Prod.snd,p),h') := by
  intro sessions p
  let h₁ : Holdings := ⟨descriptors,h.contexts+1,h.connections⟩
  obtain ⟨htrace,hafter,hholds⟩ := acceptLoop_run libc (cfg.context .server)
    (p := ⟨.listening,s⟩) (h := h₁) (fun _ => hleft) hssl
  rw [hafter] at hholds
  refine ⟨_,hholds,fun h' hleave => ?_⟩
  rw [← htrace]
  simp only [p,sessions,← hafter] at hleave ⊢
  exact bind_some.mpr ⟨(),h,exitIf_some.mpr ⟨hr.permitted,rfl⟩,
    bind_some.mpr ⟨_,_,contextCreate_some.mpr ⟨hr.creates,rfl,rfl⟩,
      bind_some.mpr ⟨fd,h₁,createServer_some hr hfd,bind_some.mpr ⟨h₁,h₁,rfl,
        bind_some.mpr ⟨(),_,rfl,bind_some.mpr ⟨(),h',hleave,rfl⟩⟩⟩⟩⟩⟩

/-- The server from its start to its end, with any clients. It sends what the loop over sessions
sends; while it is listening it holds one descriptor and one context more than before its start,
whoever has come and gone; and when the loop is left it has given back all it had. -/
theorem server_lifetime [OpenSsl] {r : ServerResults} {port : UInt16} {uid : UInt32} {cfg : TlsConfig}
    (hr : r.Serves port uid cfg) {h : Holdings} (hleft : 2 ≤ h.descriptors.left) (s : Server σ)
    {arrivals : List Arrival} (hssl : ∀ a ∈ arrivals, a.sslNew=true) :
    let sessions := arrivals.map Arrival.seen
    let p := (socketServerInit libc).after ⟨.listening,s⟩ sessions
    ∃ h', serverLifetime libc r port uid cfg s arrivals h =
        some ((((socketServerInit libc).trace ⟨.listening,s⟩ sessions).map Prod.snd,p),h') ∧
      (p.status=.listening → h'.descriptors.left + 1 = h.descriptors.left ∧
        h'.contexts = h.contexts+1 ∧ h'.connections=h.connections) ∧
      (p.status=.finished → h'=h) := by
  intro sessions p
  cases hfd : h.descriptors.acquire with
  | none =>
    have hnone := Table.acquire_eq_none_iff.mp hfd
    omega
  | some y =>
    obtain ⟨fd,descriptors⟩ := y
    have hcount := Table.left_acquire hfd
    obtain ⟨h₂,hholds,hleave⟩ := serverLifetime_leave libc hr hfd (by omega) s hssl
    cases hstatus : p.status with
    | listening =>
      refine ⟨h₂,hleave h₂ ?_,fun _ => ?_,nofun⟩
      · rw [leaveLoop,hstatus]
        rfl
      · rw [hholds (by rw [hstatus]; decide)]
        exact ⟨hcount.symm,rfl,rfl⟩
    | finished =>
      refine ⟨h,hleave h ?_,nofun,fun _ => rfl⟩
      rw [hholds (by rw [hstatus]; decide),leaveLoop,if_pos hstatus]
      refine bind_some.mpr ⟨(),_,rfl,modify_some.mpr ?_⟩
      simp only [Table.release_acquire hfd,Nat.add_sub_cancel]
    | dead =>
      refine ⟨h₂,hleave h₂ ?_,nofun,nofun⟩
      rw [leaveLoop,hstatus]
      rfl

/-- A process with three descriptors in use. -/
def standard : Holdings := ⟨⟨1024,{0,1,2},by decide⟩,0,0⟩

/-- Nothing fails. -/
def flawless : TlsResults := ⟨true,1,1,1,1,1,true,0,1⟩

/-- A client that closes the server. -/
def closingServer [OpenSsl] : Session :=
  sendsBytes (qkdHeaderToStream ⟨qkd004Version,QkdService.closeServer.code,0⟩)

end Lifetime

section Plain
open PlainSsl

/-- A server that is closed behind three clients, one of whom could not be accepted, has nothing left
open. -/
theorem server_lifetime_closed :
    let cfg : TlsConfig := ⟨some nodeA,some nodeB,none,0⟩
    let arrivals : List Arrival := [⟨opening,true,true⟩,⟨opening,false,true⟩,
      ⟨fetching (Uuid.fill 1),true,true⟩,⟨closingServer,true,true⟩]
    ∃ y, serverLifetime ansiPrng ⟨flawless,0,0,0⟩ 25575 1000 cfg (Server.start 32768 (49/100) 1)
      arrivals standard = some (y,standard) := by
  intro cfg arrivals
  have hcreates : flawless.Creates .server cfg :=
    ⟨by decide,by decide,by decide,fun _ _ => ⟨by decide,by decide,by decide⟩,fun _ => by decide⟩
  have hserves : (⟨flawless,0,0,0⟩ : ServerResults).Serves 25575 1000 cfg :=
    ⟨by decide,hcreates,by decide,by decide,by decide⟩
  have hleft : 2 ≤ standard.descriptors.left := by decide
  have hssl : ∀ a ∈ arrivals, a.sslNew=true := by simp [arrivals]
  have hfinished : ((socketServerInit ansiPrng).after ⟨.listening,Server.start 32768 (49/100) 1⟩
      (arrivals.map Arrival.seen)).status=.finished := by decide +kernel
  obtain ⟨h,hrun,-,hback⟩ :=
    server_lifetime ansiPrng hserves hleft (Server.start 32768 (49/100) 1) hssl
  rw [hback hfinished] at hrun
  exact ⟨_,hrun⟩

end Plain

end EtsiQkd004
