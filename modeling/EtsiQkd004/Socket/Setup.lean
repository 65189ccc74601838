import EtsiQkd004.Library.Descriptors
import EtsiQkd004.Libc

/-! Setting up the connections of a process. Every library call may fail, and what the process
holds of the operating system and of the TLS library is kept track of. -/
namespace EtsiQkd004
open Descriptors

/-- `role_t` -/
inductive Role
  | client
  | server
  deriving DecidableEq

/-- The modes of `SSL_CTX_set_verify` that are used: not at all, if the peer has a certificate, and
with a certificate that the peer has to have. -/
inductive VerifyMode
  | none
  | peer
  | peerFailIfNoCert
  deriving DecidableEq

/-- What an `SSL_CTX` is set up with. -/
structure SslContext where
  method : Role
  maxProtoVersion : Int32
  cipherList : Bytes
  certificate : Option (CString × CString)
  verifyLocations : Option CString
  verify : VerifyMode

/-- An `SSL` with its descriptor, or with none where the descriptor is negative. -/
structure Ssl where
  context : SslContext
  fd : Option ℕ

/-- What a process holds: its descriptors, and how many contexts and connections of the TLS library
it has not freed. -/
structure Holdings where
  descriptors : Table
  contexts : ℕ
  connections : ℕ

/-- The files that a party is configured with, and the greatest protocol version. -/
structure TlsConfig where
  certPem : Option CString
  keyPem : Option CString
  peerCaPem : Option CString
  maxProtoVersion : Int32

/-- What the library calls of a set-up return. -/
structure TlsResults where
  ctxNew : Bool
  setCipherList : Int32
  useCertificateFile : Int32
  usePrivateKeyFile : Int32
  checkPrivateKey : Int32
  loadVerifyLocations : Int32
  sslNew : Bool
  connect : Int32
  sslConnect : Int32

/-- Programs that use the holdings of the process, or exit. -/
abbrev SetUp := StateT Holdings Option

def exitIf (c : Prop) [Decidable c] : SetUp Unit := if c then failure else pure ()

section Running
variable {α β : Type} {h h' : Holdings}

lemma bind_some {x : SetUp α} {next : α → SetUp β} {b : β} :
    (x >>= next) h = some (b,h') ↔ ∃ a h₁, x h = some (a,h₁) ∧ next a h₁ = some (b,h') := by
  change (x h).bind (fun y => next y.1 y.2) = _ ↔ _
  simp only [Option.bind_eq_some_iff,Prod.exists]

lemma exitIf_some {c : Prop} [Decidable c] {u : Unit} :
    exitIf c h = some (u,h') ↔ ¬ c ∧ h=h' := by
  unfold exitIf
  split_ifs with hc
  · simp only [hc,not_true,false_and,iff_false]
    exact nofun
  · change some ((),h) = some (u,h') ↔ _
    simp [hc]

lemma pure_some {a b : α} : (pure a : SetUp α) h = some (b,h') ↔ a=b ∧ h=h' := by
  change some (a,h) = some (b,h') ↔ _
  rw [Option.some.injEq,Prod.mk.injEq]

lemma modify_some {f : Holdings → Holdings} {u : Unit} :
    (modify f : SetUp Unit) h = some (u,h') ↔ f h = h' := by
  change some ((),f h) = some (u,h') ↔ _
  simp

end Running

section Context
variable (r : TlsResults)

/-- Nothing is loaded unless both files are given. -/
def socketSslContextLoadCerts (ctx : SslContext) (certFile keyFile : Option CString) :
    SetUp SslContext :=
  match certFile,keyFile with
  | some cert,some key => do
    exitIf (r.useCertificateFile ≤ 0)
    exitIf (r.usePrivateKeyFile ≤ 0)
    exitIf (r.checkPrivateKey = 0)
    pure { ctx with certificate := some (cert,key) }
  | some _,none | none,some _ | none,none => pure ctx

def socketSslContextLoadPeerCA (ctx : SslContext) (peerCaFile : Option CString) (role : Role) :
    SetUp SslContext :=
  match peerCaFile with
  | none => pure { ctx with verify := .none }
  | some file => do
    exitIf (r.loadVerifyLocations ≤ 0)
    pure { ctx with
      verifyLocations := some file
      verify := if role=.client then .peer else .peerFailIfNoCert }

def socketSslContextCreate (role : Role) (cfg : TlsConfig) : SetUp SslContext := do
  exitIf (role=.server ∧ (cfg.certPem.isNone ∨ cfg.keyPem.isNone))
  exitIf (r.ctxNew=false)
  modify fun h => { h with contexts := h.contexts+1 }
  exitIf (r.setCipherList ≤ 0)
  let ctx : SslContext := ⟨role,cfg.maxProtoVersion,ascii "HIGH",none,none,.none⟩
  let ctx ← socketSslContextLoadCerts r ctx cfg.certPem cfg.keyPem
  socketSslContextLoadPeerCA r ctx cfg.peerCaPem role

end Context

def socketSslInit (sslNew : Bool) (ctx : SslContext) (socket : Option ℕ) : SetUp Ssl := do
  exitIf (sslNew=false)
  modify fun h => { h with connections := h.connections+1 }
  pure ⟨ctx,socket⟩

section Sockets

/-- `socket` and `accept`, which fail where no descriptor is left. -/
def newDescriptor : SetUp (Option ℕ) := fun h =>
  match h.descriptors.acquire with
  | none => some (none,h)
  | some (fd,descriptors) => some (some fd,{ h with descriptors })

/-- `close`, which does nothing to a negative descriptor. -/
def closeDescriptor : Option ℕ → SetUp Unit
  | none => pure ()
  | some fd => modify fun h => { h with descriptors := h.descriptors.release fd }

variable (r : TlsResults)

def socketCreateConnection : SetUp ℕ := do
  match ← newDescriptor with
  | none => failure
  | some fd => do
    exitIf (r.connect ≠ 0)
    pure fd

def socketClientInit (cfg : TlsConfig) : SetUp Ssl := do
  let fd ← socketCreateConnection r
  let ctx ← socketSslContextCreate r .client cfg
  let ssl ← socketSslInit r.sslNew ctx (some fd)
  exitIf (r.sslConnect ≤ 0)
  pure ssl

end Sockets

section Specs
variable {r : TlsResults} {cfg : TlsConfig} {role : Role} {h h' : Holdings}

/-- The certificate that is loaded. -/
def certificateOf (cert key : Option CString) : Option (CString × CString) :=
  cert.bind fun cert => key.map fun key => (cert,key)

/-- What a party is configured with. -/
def TlsConfig.context (cfg : TlsConfig) (role : Role) : SslContext where
  method := role
  maxProtoVersion := cfg.maxProtoVersion
  cipherList := ascii "HIGH"
  certificate := certificateOf cfg.certPem cfg.keyPem
  verifyLocations := cfg.peerCaPem
  verify := if cfg.peerCaPem.isNone then .none else if role=.client then .peer else .peerFailIfNoCert

/-- The certificate and its key are loaded and belong together. -/
structure TlsResults.Certifies (r : TlsResults) : Prop where
  certificate : ¬ r.useCertificateFile ≤ 0
  privateKey : ¬ r.usePrivateKeyFile ≤ 0
  matching : ¬ r.checkPrivateKey=0

/-- No check on the way to a context fails. -/
structure TlsResults.Creates (r : TlsResults) (role : Role) (cfg : TlsConfig) : Prop where
  complete : ¬ (role=.server ∧ (cfg.certPem.isNone ∨ cfg.keyPem.isNone))
  ctxNew : ¬ r.ctxNew=false
  ciphers : ¬ r.setCipherList ≤ 0
  certificate : cfg.certPem.isSome → cfg.keyPem.isSome → r.Certifies
  peerCa : cfg.peerCaPem.isSome → ¬ r.loadVerifyLocations ≤ 0

lemma loadCerts_some {ctx ctx' : SslContext} {cert key : Option CString}
    (hctx : ctx.certificate=none) :
    socketSslContextLoadCerts r ctx cert key h = some (ctx',h') ↔
      (cert.isSome → key.isSome → r.Certifies) ∧
        { ctx with certificate := certificateOf cert key } = ctx' ∧ h=h' := by
  have hnone : { ctx with certificate := none } = ctx := by
    rw [← hctx]
  cases cert with
  | none =>
    cases key with
    | none | some key => simp [socketSslContextLoadCerts,certificateOf,pure_some,hnone]
  | some cert =>
    cases key with
    | none => simp [socketSslContextLoadCerts,certificateOf,pure_some,hnone]
    | some key =>
      simp only [socketSslContextLoadCerts,bind_some,exitIf_some,pure_some]
      constructor
      · rintro ⟨_,_,⟨hcert,rfl⟩,_,_,⟨hkey,rfl⟩,_,_,⟨hmatch,rfl⟩,rfl,rfl⟩
        exact ⟨fun _ _ => ⟨hcert,hkey,hmatch⟩,rfl,rfl⟩
      · rintro ⟨hcertifies,rfl,rfl⟩
        obtain ⟨hcert,hkey,hmatch⟩ := hcertifies rfl rfl
        exact ⟨(),h,⟨hcert,rfl⟩,(),h,⟨hkey,rfl⟩,(),h,⟨hmatch,rfl⟩,rfl,rfl⟩

lemma loadPeerCA_some {ctx ctx' : SslContext} {file : Option CString}
    (hctx : ctx.verifyLocations=none) :
    socketSslContextLoadPeerCA r ctx file role h = some (ctx',h') ↔
      (file.isSome → ¬ r.loadVerifyLocations ≤ 0) ∧ { ctx with
        verifyLocations := file
        verify := if file.isNone then .none else if role=.client then .peer else .peerFailIfNoCert } =
          ctx' ∧ h=h' := by
  cases file with
  | none => simp [socketSslContextLoadPeerCA,pure_some,← hctx]
  | some file =>
    simp only [socketSslContextLoadPeerCA,bind_some,exitIf_some,pure_some]
    constructor
    · rintro ⟨_,_,⟨hload,rfl⟩,rfl,rfl⟩
      exact ⟨fun _ => hload,rfl,rfl⟩
    · rintro ⟨hload,rfl,rfl⟩
      exact ⟨(),h,⟨hload rfl,rfl⟩,rfl,rfl⟩

/-- A context is returned exactly when no check fails. It is the one that is configured, and it has
been allocated. -/
lemma contextCreate_some {ctx : SslContext} :
    socketSslContextCreate r role cfg h = some (ctx,h') ↔
      r.Creates role cfg ∧ cfg.context role = ctx ∧ { h with contexts := h.contexts+1 } = h' := by
  simp only [socketSslContextCreate,bind_some,exitIf_some,modify_some]
  constructor
  · rintro ⟨_,_,⟨hcomplete,rfl⟩,_,_,⟨hnew,rfl⟩,_,_,rfl,_,_,⟨hciphers,rfl⟩,ctx₁,h₁,hcerts,hca⟩
    obtain ⟨hcertifies,rfl,rfl⟩ := (loadCerts_some rfl).mp hcerts
    obtain ⟨hload,rfl,rfl⟩ := (loadPeerCA_some rfl).mp hca
    exact ⟨⟨hcomplete,hnew,hciphers,hcertifies,hload⟩,rfl,rfl⟩
  · rintro ⟨⟨hcomplete,hnew,hciphers,hcertifies,hload⟩,rfl,rfl⟩
    exact ⟨(),_,⟨hcomplete,rfl⟩,(),_,⟨hnew,rfl⟩,(),_,rfl,(),_,⟨hciphers,rfl⟩,_,_,
      (loadCerts_some rfl).mpr ⟨hcertifies,rfl,rfl⟩,(loadPeerCA_some rfl).mpr ⟨hload,rfl,rfl⟩⟩

/-- The set-up of a client gets through. -/
structure TlsResults.Connects (r : TlsResults) (cfg : TlsConfig) : Prop where
  connect : ¬ r.connect ≠ 0
  creates : r.Creates .client cfg
  sslNew : ¬ r.sslNew=false
  sslConnect : ¬ r.sslConnect ≤ 0

lemma createConnection_some {fd : ℕ} :
    socketCreateConnection r h = some (fd,h') ↔ ¬ r.connect ≠ 0 ∧ ∃ descriptors,
      h.descriptors.acquire = some (fd,descriptors) ∧ { h with descriptors } = h' := by
  simp only [socketCreateConnection,bind_some,newDescriptor]
  cases hfd : h.descriptors.acquire with
  | none =>
    constructor
    · rintro ⟨_,_,hnone,hfail⟩
      cases hnone
      cases hfail
    · rintro ⟨-,_,hsome,-⟩
      cases hsome
  | some y =>
    constructor
    · rintro ⟨_,_,hsome,hconnect⟩
      cases hsome
      obtain ⟨_,_,hcheck,hpure⟩ := bind_some.mp hconnect
      obtain ⟨hzero,rfl⟩ := exitIf_some.mp hcheck
      obtain ⟨rfl,rfl⟩ := pure_some.mp hpure
      exact ⟨hzero,_,rfl,rfl⟩
    · rintro ⟨hcheck,descriptors,hsome,rfl⟩
      cases hsome
      refine ⟨some fd,_,rfl,bind_some.mpr ⟨(),_,exitIf_some.mpr ⟨hcheck,rfl⟩,rfl⟩⟩

lemma sslInit_some {sslNew : Bool} {ctx : SslContext} {socket : Option ℕ} {ssl : Ssl} :
    socketSslInit sslNew ctx socket h = some (ssl,h') ↔ ¬ sslNew=false ∧ ⟨ctx,socket⟩ = ssl ∧
      { h with connections := h.connections+1 } = h' := by
  simp only [socketSslInit,bind_some,exitIf_some,modify_some,pure_some]
  constructor
  · rintro ⟨_,_,⟨hnew,rfl⟩,_,_,rfl,rfl,rfl⟩
    exact ⟨hnew,rfl,rfl⟩
  · rintro ⟨hnew,rfl,rfl⟩
    exact ⟨(),h,⟨hnew,rfl⟩,(),_,rfl,rfl,rfl⟩

/-- A client is connected exactly when no check fails and there is a descriptor left, which it
takes. -/
lemma clientInit_some {ssl : Ssl} :
    socketClientInit r cfg h = some (ssl,h') ↔ r.Connects cfg ∧ ∃ fd descriptors,
      h.descriptors.acquire = some (fd,descriptors) ∧ ⟨cfg.context .client,some fd⟩ = ssl ∧
      ⟨descriptors,h.contexts+1,h.connections+1⟩ = h' := by
  simp only [socketClientInit,bind_some,createConnection_some,contextCreate_some,sslInit_some,
    exitIf_some,pure_some]
  constructor
  · rintro ⟨fd,_,⟨hconnect,descriptors,hfd,rfl⟩,_,_,⟨hcreates,rfl,rfl⟩,_,_,⟨hnew,rfl,rfl⟩,_,_,
      ⟨hssl,rfl⟩,rfl,rfl⟩
    exact ⟨⟨hconnect,hcreates,hnew,hssl⟩,fd,descriptors,hfd,rfl,rfl⟩
  · rintro ⟨⟨hconnect,hcreates,hnew,hssl⟩,fd,descriptors,hfd,rfl,rfl⟩
    exact ⟨fd,_,⟨hconnect,descriptors,hfd,rfl⟩,_,_,⟨hcreates,rfl,rfl⟩,_,_,⟨hnew,rfl,rfl⟩,(),_,
      ⟨hssl,rfl⟩,rfl,rfl⟩

end Specs

end EtsiQkd004
