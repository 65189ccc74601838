import EtsiQkd004.Client.Exchange
import EtsiQkd004.Library.Dialogue

/-! Programs linked against the client library: what they do over the network, in the company of
other clients, is what they would do with the handlers. -/
namespace EtsiQkd004
open Registry

/-- What happens around a call: the sessions that the loop accepts before it, what its handler
meets, and what it finds in memory. -/
structure Circumstances where
  others : List Session
  env : Env
  memory : CallMemory

/-- Programs that make calls and write files. A call that does not return ends the program; what
it has written stays. -/
abbrev Client (φ : Type) := OptionT (StateT φ (Dialogue Request (Option Response)))

def Response.openConnect? : Response → Option OpenConnectResponse
  | .openConnect p => some p
  | .getKey _ | .close _ => none

def Response.getKey? : Response → Option GetKeyResponse
  | .getKey p => some p
  | .openConnect _ | .close _ => none

def Response.close? : Response → Option CloseResponse
  | .close p => some p
  | .openConnect _ | .getKey _ => none

/-- The quality of service that both clients ask for, but for the size of the keys. -/
def qosFor (keyChunkSize : UInt32) : QkdQos where
  keyChunkSize := keyChunkSize
  maxBps := 32
  minBps := 32
  jitter := 0
  priority := 0
  timeout := 0
  ttl := 0
  metadataMimetype := ⟨ascii "application/json",by decide⟩

/-- Metadata that hold a key type and a role. -/
def keyInfo (keyType keyRole : UInt8) : QkdBytes := ⟨2,[keyType,keyRole],rfl⟩

namespace Client
variable {φ α β : Type}

/-- What the three struct calls have in common. -/
def call (q : Request) (kind : Response → Option α) : Client φ α := fun files => do
  let response ← Dialogue.put q
  pure (response.bind kind,files)

def openConnectStruct (request : OpenConnectRequest) : Client φ OpenConnectResponse :=
  call (.openConnect request) Response.openConnect?

def getKeyStruct (request : GetKeyRequest) : Client φ GetKeyResponse :=
  call (.getKey request) Response.getKey?

def closeStruct (request : CloseRequest) : Client φ CloseResponse :=
  call (.close request) Response.close?

lemma bind_eq (x : Client φ α) (f : α → Client φ β) (files : φ) :
    (x >>= f) files = x files >>= fun y => match y.1 with
      | some a => f a y.2
      | none => pure (none,y.2) := by
  change x files >>= _ = _
  congr 1
  funext y
  obtain ⟨o,files⟩ := y
  cases o with
  | some a => rfl
  | none => rfl

/-- What follows a program that has returned. -/
lemma hold_bind {τ : Type} {M : SerialMachine τ Request (Option Response)} {x : Client φ α}
    {files files' : φ} {t t' : τ} {a : α} (h : M.hold (x files) t = ((some a,files'),t'))
    (f : α → Client φ β) : M.hold ((x >>= f) files) t = M.hold (f a files') t' := by
  rw [bind_eq,SerialMachine.hold_bind,h]

/-- What is made of the value that a program returns, if it does. -/
lemma hold_map {τ : Type} (M : SerialMachine τ Request (Option Response)) (x : Client φ α) (g : α → β)
    (files : φ) (t : τ) :
    M.hold ((do
      let a ← x
      pure (g a) : Client φ β) files) t = let y := M.hold (x files) t
        ((y.1.1.map g,y.1.2),y.2) := by
  rw [bind_eq,SerialMachine.hold_bind]
  generalize M.hold (x files) t = y
  obtain ⟨⟨o,files⟩,t⟩ := y
  cases o with
  | some a => rfl
  | none => rfl

/-- Whatever its files and its answers, the program makes only calls that satisfy `A`. -/
def Only (A : Request → Prop) (x : Client φ α) : Prop := ∀ files, (x files).Only A

lemma only_pure (A : Request → Prop) (a : α) : Only A (pure a : Client φ α) := fun _ => trivial

lemma only_modify (A : Request → Prop) (g : φ → φ) : Only A (modify g : Client φ Unit) :=
  fun _ => trivial

lemma only_call {A : Request → Prop} {q : Request} (hq : A q) (kind : Response → Option α) :
    Only A (call q kind : Client φ α) := fun _ => ⟨hq,fun _ => trivial⟩

lemma Only.bind {A : Request → Prop} {x : Client φ α} {f : α → Client φ β} (h : Only A x)
    (hf : ∀ a, Only A (f a)) : Only A (x >>= f) := by
  intro files
  rw [bind_eq]
  apply (h files).bind
  rintro ⟨o,files⟩
  cases o with
  | some a => exact hf a files
  | none => trivial

lemma hold_modify {τ : Type} (M : SerialMachine τ Request (Option Response)) (g : φ → φ)
    (files : φ) (t : τ) :
    M.hold ((modify g : Client φ Unit) files) t = ((some (),g files),t) := rfl

end Client

variable {σ : Type} (libc : Prng σ)

/-- Calls over the network. The circumstances of the calls to come are part of the state. -/
def network [OpenSsl] :
    SerialMachine (Process σ × (ℕ → Circumstances)) Request (Option Response) where
  step w q :=
    let y := callAfter libc w.1 (w.2 0).others (q,(w.2 0).env,(w.2 0).memory)
    (y.1,(y.2,fun n => w.2 (n+1)))

/-- The server behind what can be made out of the sessions of the others. -/
def nextServer [OpenSsl] (w : Server σ × (ℕ → Circumstances)) : Server σ :=
  (server libc).after w.1 ((w.2 0).others.filterMap Session.call)

/-- Calls of the handlers. -/
def handlers [OpenSsl] :
    SerialMachine (Server σ × (ℕ → Circumstances)) Request (Option Response) where
  step w q :=
    let y := serve libc (nextServer libc w) (q,(w.2 0).env)
    (some y.1,(y.2,fun n => w.2 (n+1)))

/-- The others leave the loop listening, and the frames of the call fit. -/
def CallReaches [OpenSsl] (w : Process σ × (ℕ → Circumstances)) (q : Request) : Prop :=
  Reaches libc w.1 (w.2 0).others (q,(w.2 0).env,(w.2 0).memory)

variable {libc}

/-- The process while it is listening. -/
def listening (w : Server σ × (ℕ → Circumstances)) : Process σ × (ℕ → Circumstances) :=
  (⟨.listening,w.1⟩,w.2)

lemma network_step [OpenSsl] (w : Server σ × (ℕ → Circumstances)) (q : Request)
    (h : CallReaches libc (listening w) q) :
    (network libc).step (listening w) q =
      (((handlers libc).step w q).1,listening ((handlers libc).step w q).2) := by
  have h : Reaches libc ⟨.listening,w.1⟩ (w.2 0).others (q,(w.2 0).env,(w.2 0).memory) := h
  simp only [network,listening,callAfter_eq libc h]
  rfl

/-- A program whose calls all reach the server cannot tell the network from the handlers. -/
lemma network_hold [OpenSsl] {α : Type} {program : Dialogue Request (Option Response) α} {a : α}
    {w w' : Server σ × (ℕ → Circumstances)}
    (hreach : (network libc).Throughout (CallReaches libc) program (listening w))
    (hhold : (handlers libc).hold program w = (a,w')) :
    (network libc).hold program (listening w) = (a,listening w') := by
  rw [hreach.hold_eq network_step,hhold]

section Later
variable {s t : Server σ}

variable (libc) in
/-- The state `t` of the server comes after `s`. -/
def Later (s t : Server σ) : Prop := ∃ run, t = (server libc).after s run

variable (libc) in
/-- The key that the stream of a pair of endpoints has under an index. -/
def pairKey (s : Server σ) (pair : CString × CString) (index : UInt32) : Option Bytes :=
  (directory s.store pair).bind fun k =>
    (lookup KsidInfo.keyStreamId k s.store).map fun e => drawnKey libc e index

variable (libc) in
lemma Later.refl (s : Server σ) : Later libc s s := ⟨[],rfl⟩

lemma Later.after (h : Later libc s t) (run : List (Request × Env)) :
    Later libc s ((server libc).after t run) := by
  obtain ⟨run',rfl⟩ := h
  exact ⟨run' ++ run,by rw [SerialMachine.after_append]⟩

lemma Later.trans {u : Server σ} (h : Later libc s t) (h' : Later libc t u) : Later libc s u := by
  obtain ⟨run,rfl⟩ := h'
  exact h.after run

lemma Later.directory_eq (h : Later libc s t) {pair : CString × CString} {k : Uuid}
    (hk : directory s.store pair = some k) : directory t.store pair = some k := by
  obtain ⟨run,rfl⟩ := h
  exact directory_after libc s run pair k hk

/-- The key of a pair stays the same. -/
lemma Later.pairKey_eq (h : Later libc s t) {pair : CString × CString} {index : UInt32}
    {key : Bytes} (hkey : pairKey libc s pair index = some key) :
    pairKey libc t pair index = some key := by
  obtain ⟨k,hk,hkey⟩ := Option.bind_eq_some_iff.mp hkey
  obtain ⟨e,he,rfl⟩ := Option.map_eq_some_iff.mp hkey
  have hk' := h.directory_eq hk
  obtain ⟨run,rfl⟩ := h
  obtain ⟨e',he',hstream⟩ := lookup_after libc he run
  simp only [KsidInfo.stream,Prod.mk.injEq] at hstream
  simp only [pairKey,hk',Option.bind_some,he',Option.map_some,drawnKey,hstream]

variable (libc) in
/-- A pair that has an identifier has a key. -/
lemma exists_pairKey {pair : CString × CString} {k : Uuid}
    (hk : directory s.store pair = some k) (index : UInt32) :
    ∃ key, pairKey libc s pair index = some key := by
  obtain ⟨e,he,hek⟩ := Option.map_eq_some_iff.mp hk
  obtain ⟨e',he'⟩ : ∃ e', lookup KsidInfo.keyStreamId k s.store = some e' := by
    rw [← hek]
    exact exists_lookup_iff.mpr (List.mem_map_of_mem (mem_of_lookup he))
  exact ⟨drawnKey libc e' index,by rw [pairKey,hk,Option.bind_some,he',Option.map_some]⟩

/-- Which key the holder of the identifier is given depends on the metadata alone. -/
lemma serve_pairKey (hs : Later libc s t) {pair : CString × CString} {k : Uuid} {index : UInt32}
    {key : Bytes} (hk : directory s.store pair = some k)
    (hkey : pairKey libc s pair index = some key) {env : Env} (halloc : env.allocated=true)
    {metadata : QkdBytes} {keyType keyRole : UInt8} (hdata : metadata.data = [keyType,keyRole]) :
    ∃ p : GetKeyResponse, (serve libc t (.getKey ⟨k,index,metadata⟩,env)).1 = .getKey p ∧
      p.status=QkdStatusCode.successful.code ∧ p.index=index ∧
      p.keyBuffer.data =
        if keyType=QkdKeyInfoType.symmetric.code ∨ keyRole=16 then key
        else key.mapIdx obliviousMask := by
  have hkey := hs.pairKey_eq hkey
  rw [pairKey,hs.directory_eq hk,Option.bind_some] at hkey
  obtain ⟨e,he,rfl⟩ := Option.map_eq_some_iff.mp hkey
  refine ⟨_,serve_delivered libc he,rfl,rfl,?_⟩
  have h0 : metadataByte metadata env.beyondMetadata 0 = keyType :=
    metadataByte_of_getElem? (by rw [hdata]; rfl) _
  have h1 : metadataByte metadata env.beyondMetadata 1 = keyRole :=
    metadataByte_of_getElem? (by rw [hdata]; rfl) _
  rw [keyFor_data,if_pos halloc,h0,h1]

end Later

section Steps
variable [OpenSsl] {φ : Type} {s : Server σ} {w : Server σ × (ℕ → Circumstances)}

lemma Later.next (h : Later libc s w.1) : Later libc s (nextServer libc w) := h.after _

lemma Later.served (h : Later libc s w.1) (q : Request) :
    Later libc s (serve libc (nextServer libc w) (q,(w.2 0).env)).2 :=
  h.next.after [(q,(w.2 0).env)]

/-- Whatever a program does, the server comes later. -/
lemma Later.hold {α : Type} (h : Later libc s w.1) (program : Dialogue Request (Option Response) α) :
    Later libc s ((handlers libc).hold program w).2.1 := by
  induction program generalizing w with
  | done a => exact h
  | ask q next ih => exact ih _ (h.served q)

lemma hold_call {α : Type} {q : Request} {kind : Response → Option α} {a : α}
    (h : kind (serve libc (nextServer libc w) (q,(w.2 0).env)).1 = some a) (files : φ) :
    (handlers libc).hold (Client.call q kind files) w = ((some a,files),
      ((serve libc (nextServer libc w) (q,(w.2 0).env)).2,fun n => w.2 (n+1))) := by
  rw [← h]
  rfl

/-- The first OPEN_CONNECT for a pair. -/
lemma hold_first_open (hw : Later libc s w.1) {r : OpenConnectRequest}
    (hnil : r.keyStreamId=Uuid.nil) (files : φ) :
    ∃ k u, Later libc s u ∧ directory u.store (r.source,r.destination) = some k ∧
      (handlers libc).hold (Client.openConnectStruct r files) w =
        ((some ⟨QkdStatusCode.successful.code,r.qos,k⟩,files),(u,fun n => w.2 (n+1))) := by
  obtain ⟨k,hk,hdir⟩ := directory_answer libc (nextServer libc w) r (w.2 0).env hnil
  refine ⟨k,_,hw.served _,hdir,hold_call ?_ files⟩
  rw [hk]
  rfl

/-- Who asks for the pair again, or passes the identifier on. -/
lemma hold_second_open (hw : Later libc s w.1) {r : OpenConnectRequest} {source destination : CString}
    {k : Uuid} (hk : directory s.store (source,destination) = some k)
    (hr : r.keyStreamId=Uuid.nil ∧ r.source=source ∧ r.destination=destination ∨
      r.keyStreamId=k ∧ k≠Uuid.nil) (files : φ) :
    ∃ u, Later libc s u ∧ (handlers libc).hold (Client.openConnectStruct r files) w =
      ((some ⟨QkdStatusCode.successful.code,r.qos,k⟩,files),(u,fun n => w.2 (n+1))) := by
  refine ⟨_,hw.served _,hold_call ?_ files⟩
  obtain ⟨run,hrun⟩ := hw.next
  rw [hrun,serve_second_after libc hk hr]
  rfl

/-- A GET_KEY for the stream of a pair. -/
lemma hold_pairKey (hw : Later libc s w.1) {pair : CString × CString} {k : Uuid} {index : UInt32}
    {key : Bytes} (hk : directory s.store pair = some k)
    (hkey : pairKey libc s pair index = some key) (halloc : (w.2 0).env.allocated=true)
    {metadata : QkdBytes} {keyType keyRole : UInt8} (hdata : metadata.data = [keyType,keyRole])
    (files : φ) :
    ∃ p u, Later libc s u ∧ p.status=QkdStatusCode.successful.code ∧ p.index=index ∧
      (p.keyBuffer.data = if keyType=QkdKeyInfoType.symmetric.code ∨ keyRole=16 then key
        else key.mapIdx obliviousMask) ∧
      (handlers libc).hold (Client.getKeyStruct ⟨k,index,metadata⟩ files) w =
        ((some p,files),(u,fun n => w.2 (n+1))) := by
  obtain ⟨p,hp,hstatus,hindex,hbytes⟩ := serve_pairKey hw.next hk hkey halloc hdata
  refine ⟨p,_,hw.served _,hstatus,hindex,hbytes,hold_call ?_ files⟩
  rw [hp]
  rfl

lemma hold_close (hw : Later libc s w.1) (r : CloseRequest) (files : φ) :
    ∃ u, Later libc s u ∧ (handlers libc).hold (Client.closeStruct r files) w =
      ((some ⟨QkdStatusCode.successful.code⟩,files),(u,fun n => w.2 (n+1))) := by
  refine ⟨_,hw.served (.close r),hold_call ?_ files⟩
  rfl

end Steps

section Moderate

/-- A request whose frame is far from filling a record, and which opens no stream of large keys. -/
def Request.Moderate : Request → Prop
  | .openConnect r => r.qos.metadataMimetype.chars.length ≤ 255 ∧
      r.source.chars.length + r.destination.chars.length ≤ 4096 ∧ r.qos.keyChunkSize.toNat ≤ 8192
  | .getKey r => r.metadata.data.length ≤ 4096
  | .close _ => True

/-- A server that has no streams of large keys. -/
structure Server.Moderate (s : Server σ) : Prop where
  device : (deviceMetadata s.config).data.length ≤ 4096
  keys : ∀ e ∈ s.store, e.qos.keyChunkSize.toNat ≤ 8192

/-- A client that is turned away, or whose request is moderate. -/
def Session.Moderate [OpenSsl] (x : Session) : Prop :=
  x.sslAccept = -1 ∨ ∃ i, x.call = some i ∧ i.1.Moderate

variable {s : Server σ} {q : Request}

lemma Server.Moderate.oneRecord (hs : s.Moderate) (hq : q.Moderate) (env : Env) :
    OneRecord s (q,env) := by
  have hdevice := hs.device
  cases q with
  | openConnect r =>
    obtain ⟨hmimetype,hnames,-⟩ := hq
    refine ⟨?_,?_,?_⟩
    · intro r' hr
      cases hr
      exact hmimetype
    · rw [requestSize]
      omega
    · rw [responseSize]
      omega
  | getKey r =>
    have hmetadata : r.metadata.data.length ≤ 4096 := hq
    refine ⟨?_,?_,?_⟩
    · intro r' hr
      cases hr
    · rw [requestSize]
      omega
    · rw [responseSize]
      cases hl : lookup KsidInfo.keyStreamId r.keyStreamId s.store with
      | none =>
        simp only
        omega
      | some e =>
        have hkey := hs.keys e (mem_of_lookup hl)
        simp only [keySize]
        split_ifs
        · omega
        · omega
  | close r =>
    refine ⟨?_,of_decide_eq_true rfl,of_decide_eq_true rfl⟩
    intro r' hr
    cases hr

variable (libc) in
/-- Moderate requests leave a moderate server. -/
lemma Server.Moderate.served (hs : s.Moderate) (hq : q.Moderate) (env : Env) :
    (serve libc s (q,env)).2.Moderate := by
  refine ⟨?_,?_⟩
  · have hdevice := after_device libc s [(q,env)]
    change deviceMetadata (serve libc s (q,env)).2.config = _ at hdevice
    rw [hdevice]
    exact hs.device
  · have hserved := serve_served libc s (q,env)
    generalize (serve libc s (q,env)).1 = p at hserved
    generalize (serve libc s (q,env)).2.store = l at hserved
    have hkeys := hs.keys
    cases hserved with
    | found | supplied | notConnected | closed => exact hkeys
    | minted =>
      intro e he
      rcases List.mem_append.mp he with he | he
      · exact hkeys e he
      · rw [List.mem_singleton.mp he]
        exact hq.2.2
    | delivered hit split =>
      rw [split] at hkeys
      simp only [List.forall_mem_append,List.forall_mem_cons] at hkeys ⊢
      exact hkeys

variable [OpenSsl]

variable (libc) in
/-- The session of a moderate client leaves the loop listening. -/
lemma Server.Moderate.step (hs : s.Moderate) {x : Session} (hx : x.Moderate) :
    ∃ t : Server σ, ((socketServerInit libc).step ⟨.listening,s⟩ x).2 = ⟨.listening,t⟩ ∧
      t.Moderate := by
  rcases hx with haccept | ⟨⟨q,env⟩,hcall,hq⟩
  · refine ⟨s,?_,hs⟩
    simp only [socketServerInit,if_pos haccept]
  · have hfits := hs.oneRecord hq env
    have hresponse : 8 + responseSize s (q,env) ≤ 16384 := hfits.response
    obtain ⟨f,hf⟩ := responseFrame_isSome libc s env hfits.mimetype
    have hover : ¬ f.Overrun := by
      rw [Response.frame_eq hf,messageFrame_overrun_iff,responseSize_eq]
      change ¬ 2^32 ≤ responseSize s (q,env)
      omega
    refine ⟨_,?_,hs.served libc hq env⟩
    rw [step_call libc hcall,hf,respond,if_neg hover]
    rfl

variable (libc) in
lemma Server.Moderate.after (hs : s.Moderate) {others : List Session}
    (hothers : ∀ x ∈ others, x.Moderate) :
    ∃ t : Server σ, (socketServerInit libc).after ⟨.listening,s⟩ others = ⟨.listening,t⟩ ∧
      t.Moderate := by
  induction others generalizing s with
  | nil => exact ⟨s,rfl,hs⟩
  | cons x others ih =>
    rw [List.forall_mem_cons] at hothers
    obtain ⟨t,ht,hmoderate⟩ := hs.step libc hothers.1
    rw [SerialMachine.after_cons,ht]
    exact ih hmoderate hothers.2

/-- The loop is listening, its server is moderate, and so are the clients to come. -/
def ModerateWorld (w : Process σ × (ℕ → Circumstances)) : Prop :=
  (∃ s : Server σ, w.1=⟨.listening,s⟩ ∧ s.Moderate) ∧ ∀ n, ∀ x ∈ (w.2 n).others, x.Moderate

/-- One call among moderate clients. -/
lemma ModerateWorld.step {w : Process σ × (ℕ → Circumstances)} (hw : ModerateWorld w)
    (hq : q.Moderate) : CallReaches libc w q ∧ ModerateWorld ((network libc).step w q).2 := by
  obtain ⟨p,c⟩ := w
  obtain ⟨⟨s,hp,hs⟩,hc⟩ := hw
  obtain rfl : p = ⟨.listening,s⟩ := hp
  obtain ⟨t,ht,hmoderate⟩ := hs.after libc (hc 0)
  have hfits := hmoderate.oneRecord hq (c 0).env
  refine ⟨⟨by rw [ht],by rw [ht]; exact hfits⟩,?_,fun n => hc (n+1)⟩
  refine ⟨_,?_,hmoderate.served libc hq (c 0).env⟩
  simp only [network,callAfter,ht,exchangeServe_eq libc hfits]

/-- Among moderate clients all calls of a moderate program reach the server. -/
theorem moderate_reaches {α : Type} {program : Dialogue Request (Option Response) α}
    (h : program.Only Request.Moderate) {w : Process σ × (ℕ → Circumstances)}
    (hw : ModerateWorld w) : (network libc).Throughout (CallReaches libc) program w :=
  SerialMachine.throughout_of_only (fun _ _ hw hq => hw.step hq) h hw

/-- They leave moderate clients and a moderate server behind, which is listening. -/
theorem moderate_hold {α : Type} {program : Dialogue Request (Option Response) α}
    (h : program.Only Request.Moderate) {w w' : Process σ × (ℕ → Circumstances)} {a : α}
    (hw : ModerateWorld w) (hhold : (network libc).hold program w = (a,w')) : ModerateWorld w' := by
  have hw' := SerialMachine.hold_of_only (M := network libc) (fun _ _ hw hq => (hw.step hq).2) h hw
  rwa [hhold] at hw'

end Moderate

/-- The circumstances of a call do not depend on the calls before it. -/
lemma circumstances_of_hold [OpenSsl] {α : Type} {program : Dialogue Request (Option Response) α}
    {w w' : Process σ × (ℕ → Circumstances)} {a : α}
    (h : (network libc).hold program w = (a,w')) : ∃ k, ∀ n, w'.2 n = w.2 (n+k) := by
  induction program generalizing w with
  | done a =>
    obtain ⟨rfl,rfl⟩ := Prod.mk.inj h
    exact ⟨0,fun _ => rfl⟩
  | ask q next ih =>
    obtain ⟨k,hk⟩ := ih _ h
    exact ⟨k+1,fun n => hk n⟩

section Scenario

/-- The client meets others before its call, one of whom opens a stream and one of whom asks for a
key. -/
def busy [OpenSsl] : Circumstances := ⟨[turnedAway,opening,fetching (Uuid.fill 1)],yields 2,zeroed⟩

lemma busy_moderate [OpenSsl] : ∀ x ∈ busy.others, x.Moderate := by
  have hopening : opening.call = some (.openConnect (askMimetype 1),yields 1) :=
    call_of_frame (q := .openConnect (askMimetype 1)) (of_decide_eq_true rfl) rfl
      (of_decide_eq_true rfl)
  simp only [busy,List.forall_mem_cons]
  refine ⟨Or.inl rfl,Or.inr ⟨_,hopening,?_⟩,Or.inr ⟨_,fetching_call _,?_⟩,by simp⟩
  · exact ⟨of_decide_eq_true rfl,of_decide_eq_true rfl,of_decide_eq_true rfl⟩
  · exact (of_decide_eq_true rfl : 2 ≤ 4096)

lemma moderate_start : (Server.start 32768 (49/100) (1 : UInt32)).Moderate :=
  ⟨by decide +kernel,nofun⟩

end Scenario

end EtsiQkd004
