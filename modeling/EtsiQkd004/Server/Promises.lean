import EtsiQkd004.Server.KeyAgreement

/-! What a successful OPEN_CONNECT promises about later GET_KEY requests, over every run that
leads to it and every continuation: the size of the keys it agreed to, and that the stream it
named exists. Both promises are kept under exactly determined conditions. -/
namespace EtsiQkd004
open Registry
variable {σ : Type} (libc : Prng σ)

def openResponse (s : Server σ) (r : OpenConnectRequest) (env : Env) : OpenConnectResponse :=
  ((qkdOpenConnectStruct (serverCalls libc env) r).run s).1

def getKeyResponse (s : Server σ) (g : GetKeyRequest) (env : Env) : GetKeyResponse :=
  ((qkdGetKeyStruct (serverCalls libc env) g).run s).1

lemma openResponse_status (s : Server σ) (r : OpenConnectRequest) (env : Env) :
    (openResponse libc s r env).status = QkdStatusCode.successful.code := by
  obtain ⟨k,hk⟩ := serve_openConnect libc s r env
  have hr : openResponse libc s r env = ⟨QkdStatusCode.successful.code,r.qos,k⟩ :=
    Response.openConnect.inj hk
  rw [hr]

lemma getKeyResponse_notConnected {s : Server σ} {g : GetKeyRequest} {env : Env}
    (hl : lookup KsidInfo.keyStreamId g.keyStreamId s.store = none) :
    getKeyResponse libc s g env =
      ⟨QkdStatusCode.gkPeerNotConnected.code,g.index,QkdBytes.empty,g.metadata⟩ := by
  have h : Response.getKey (getKeyResponse libc s g env) = (serve libc s (.getKey g,env)).1 := rfl
  rw [serve_notConnected libc hl] at h
  exact Response.getKey.inj h

lemma getKeyResponse_delivered {s : Server σ} {g : GetKeyRequest} {env : Env} {e : KsidInfo}
    (hl : lookup KsidInfo.keyStreamId g.keyStreamId s.store = some e) :
    getKeyResponse libc s g env =
      ⟨QkdStatusCode.successful.code,g.index,keyFor libc e g env s.prng,
        deviceMetadata s.config⟩ := by
  have h : Response.getKey (getKeyResponse libc s g env) = (serve libc s (.getKey g,env)).1 := rfl
  rw [serve_delivered libc hl] at h
  exact Response.getKey.inj h

section KeySize

/-- The stream that is found under the identifier the request is answered with, if there is
one already, has the requested chunk size. The identifier is the one registered for the
endpoints or else the generated one. -/
def ChunkAgrees (s : Server σ) (r : OpenConnectRequest) (env : Env) : Prop :=
  match lookup KsidInfo.endpoints (r.source,r.destination) s.store with
  | some e => ∀ e', lookup KsidInfo.keyStreamId e.keyStreamId s.store = some e' →
      e'.qos.keyChunkSize = r.qos.keyChunkSize
  | none => ∀ e', lookup KsidInfo.keyStreamId env.uuid s.store = some e' →
      e'.qos.keyChunkSize = r.qos.keyChunkSize

/-- The condition as one on the steps of a run. -/
def StepChunkAgrees (s : Server σ) (i : Request × Env) : Prop :=
  ∀ r, i.1 = .openConnect r → r.keyStreamId=Uuid.nil → ChunkAgrees s r i.2

/-- Every successful GET_KEY on `k` among the requests `later` returns `n` bytes. -/
def KeysOfSize (s : Server σ) (later : List (Request × Env)) (k : Uuid) (n : ℕ) : Prop :=
  ∀ g env q, ((.getKey g,env),.getKey q) ∈ (server libc).trace s later → g.keyStreamId=k →
    env.allocated=true → q.status=QkdStatusCode.successful.code → q.keyBuffer.data.length = n

/-- What the OPEN_CONNECT `r` at the end of `pre` agreed to is honoured by `later`. -/
def Honoured (s₀ : Server σ) (pre : List (Request × Env)) (r : OpenConnectRequest) (env : Env)
    (later : List (Request × Env)) : Prop :=
  let p := openResponse libc ((server libc).after s₀ pre) r env
  p.status=QkdStatusCode.successful.code →
    KeysOfSize libc ((server libc).after s₀ (pre ++ [(.openConnect r,env)])) later p.keyStreamId
      p.qos.keyChunkSize.toNat

/-- Every nil OPEN_CONNECT of the run is honoured by the rest of the run. -/
def QosHonoured (s₀ : Server σ) (run : List (Request × Env)) : Prop :=
  ∀ pre r env later, run = pre ++ (.openConnect r,env)::later → r.keyStreamId=Uuid.nil →
    Honoured libc s₀ pre r env later

/-- The answered identifier finds a stream, of the agreed chunk size under the condition only. -/
lemma lookup_opened (s : Server σ) (r : OpenConnectRequest) (env : Env)
    (hnil : r.keyStreamId=Uuid.nil) :
    ∃ e, lookup KsidInfo.keyStreamId (openResponse libc s r env).keyStreamId
        (serve libc s (.openConnect r,env)).2.store = some e ∧
      (e.qos.keyChunkSize = (openResponse libc s r env).qos.keyChunkSize ↔
        ChunkAgrees s r env) := by
  have hr : Response.openConnect (openResponse libc s r env) =
      (serve libc s (.openConnect r,env)).1 := rfl
  cases hl : lookup KsidInfo.endpoints (r.source,r.destination) s.store with
  | some e =>
    rw [serve_found libc hnil hl] at hr ⊢
    rw [Response.openConnect.inj hr,ChunkAgrees,hl]
    obtain ⟨e',he'⟩ := exists_lookup_iff.mpr
      (List.mem_map_of_mem (f := KsidInfo.keyStreamId) (mem_of_lookup hl))
    exact ⟨e',he',by simp [he']⟩
  | none =>
    rw [serve_minted libc hnil hl] at hr ⊢
    rw [Response.openConnect.inj hr,ChunkAgrees,hl]
    change ∃ e, lookup KsidInfo.keyStreamId env.uuid (s.store ++ [registration r env]) = some e ∧ _
    cases hk : lookup KsidInfo.keyStreamId env.uuid s.store with
    | some e' =>
      exact ⟨e',by rw [lookup_append_one,hk]; rfl,by simp⟩
    | none =>
      refine ⟨registration r env,?_,by simp [registration]⟩
      rw [lookup_append_one,hk]
      simp [registration]

/-- All keys of a registered stream have its chunk size. -/
lemma keysOfSize_iff {s : Server σ} {k : Uuid} {e : KsidInfo}
    (hl : lookup KsidInfo.keyStreamId k s.store = some e) (n : ℕ) :
    (∀ later, KeysOfSize libc s later k n) ↔ e.qos.keyChunkSize.toNat = n := by
  constructor
  · intro h
    let g : GetKeyRequest := ⟨k,0,⟨2,[0,0],rfl⟩⟩
    let env : Env := ⟨0,Uuid.nil,fun _ => 0,true⟩
    have hq : getKeyResponse libc s g env =
        ⟨QkdStatusCode.successful.code,g.index,keyFor libc e g env s.prng,
          deviceMetadata s.config⟩ := getKeyResponse_delivered libc hl
    have hn := h [(.getKey g,env)] g env (getKeyResponse libc s g env)
      (List.mem_singleton.mpr rfl) rfl rfl (by rw [hq])
    rw [hq,keyFor_length libc e g env s.prng] at hn
    exact hn
  · rintro rfl later g env q hmem rfl halloc hok
    obtain ⟨pre,post,rfl,hq⟩ := (SerialMachine.mem_trace _).mp hmem
    obtain ⟨e',hl',hk⟩ := delivered_of_successful libc hq hok
    obtain ⟨e'',hl'',hs⟩ := lookup_after libc hl pre
    rw [hl',Option.some.injEq] at hl''
    subst e''
    rw [hk,keyFor_length libc e' g env,keySize,if_pos halloc]
    exact congrArg (fun x => x.2.1.keyChunkSize.toNat) hs

lemma honoured_iff (s₀ : Server σ) (pre : List (Request × Env)) (r : OpenConnectRequest)
    (env : Env) (hnil : r.keyStreamId=Uuid.nil) :
    (∀ later, Honoured libc s₀ pre r env later) ↔
      ChunkAgrees ((server libc).after s₀ pre) r env := by
  obtain ⟨e,hl,he⟩ := lookup_opened libc ((server libc).after s₀ pre) r env hnil
  have hafter : (server libc).after s₀ (pre ++ [(.openConnect r,env)]) =
      (serve libc ((server libc).after s₀ pre) (.openConnect r,env)).2 := by
    rw [SerialMachine.after_append]
    rfl
  rw [← he,← UInt32.toNat_inj,← keysOfSize_iff libc hl]
  simp only [Honoured,openResponse_status,forall_const,hafter]

/-- In every run whose nil OPEN_CONNECT requests all meet the condition, every later successful
GET_KEY returns as many bytes as the answered QoS says; and a single nil OPEN_CONNECT is
honoured by every continuation exactly when it meets the condition. -/
theorem qos_honoured_iff (keyRate : Int32) (qber : ℚ) (prng : σ) :
    (∀ run, (server libc).Along StepChunkAgrees (Server.start keyRate qber prng) run →
      QosHonoured libc (Server.start keyRate qber prng) run) ∧
    ∀ pre r env, r.keyStreamId=Uuid.nil →
      ((∀ later, Honoured libc (Server.start keyRate qber prng) pre r env later) ↔
        ChunkAgrees ((server libc).after (Server.start keyRate qber prng) pre) r env) := by
  constructor
  · rintro run hrun pre r env later rfl hnil
    have h := ((SerialMachine.along_append _ _ _ _ _).mp hrun).2.1
    exact (honoured_iff libc _ pre r env hnil).mpr (h r rfl hnil) later
  · intro pre r env hnil
    exact honoured_iff libc _ pre r env hnil

/-- The second peer asks for the 3 bytes the first one asked for. -/
theorem second_opener_honoured :
    QosHonoured ansiPrng (Server.start 32768 (49/100) 1)
      [(askStream ⟨[65],by decide⟩ ⟨[66],by decide⟩ 3,yields 1),
       (askStream ⟨[65],by decide⟩ ⟨[66],by decide⟩ 3,yields 2),
       (.getKey (askKey (Uuid.fill 1) 7),yields 3)] := by
  apply (qos_honoured_iff ansiPrng 32768 (49/100) 1).1
  refine ⟨?_,?_,?_,trivial⟩
  · intro r hr _
    cases hr
    intro e he
    cases he
  · intro r hr _
    cases hr
    intro e he
    cases he
    rfl
  · intro r hr
    cases hr

/-- The second peer asks for 5 bytes, is answered that it has 5, and gets 3. -/
theorem second_opener_not_honoured :
    ¬ QosHonoured ansiPrng (Server.start 32768 (49/100) 1)
      [(askStream ⟨[65],by decide⟩ ⟨[66],by decide⟩ 3,yields 1),
       (askStream ⟨[65],by decide⟩ ⟨[66],by decide⟩ 5,yields 2),
       (.getKey (askKey (Uuid.fill 1) 7),yields 3)] := by
  intro h
  have hlen := h [(askStream ⟨[65],by decide⟩ ⟨[66],by decide⟩ 3,yields 1)] _ (yields 2)
    [(.getKey (askKey (Uuid.fill 1) 7),yields 3)] rfl rfl (by decide +kernel)
    (askKey (Uuid.fill 1) 7) (yields 3) _ (List.mem_singleton.mpr rfl) (by decide +kernel) rfl
    (by decide +kernel)
  revert hlen
  decide +kernel

end KeySize

section Usable

/-- No continuation before a CLOSE of the answered stream sees a GET_KEY for it refused. -/
def Usable (s₀ : Server σ) (pre : List (Request × Env)) (r : OpenConnectRequest) (env : Env) :
    Prop :=
  let p := openResponse libc ((server libc).after s₀ pre) r env
  p.status=QkdStatusCode.successful.code →
    ∀ later, (∀ c cenv, (.close c,cenv) ∈ later → c.keyStreamId≠p.keyStreamId) →
      ∀ g genv, g.keyStreamId=p.keyStreamId →
        (getKeyResponse libc ((server libc).after s₀ (pre ++ (.openConnect r,env)::later)) g
          genv).status ≠ QkdStatusCode.gkPeerNotConnected.code

/-- Which answered identifiers find a stream. A supplied one is answered unseen. -/
lemma answered_registered_iff (s : Server σ) (r : OpenConnectRequest) (env : Env) :
    (∃ e, lookup KsidInfo.keyStreamId (openResponse libc s r env).keyStreamId
      (serve libc s (.openConnect r,env)).2.store = some e) ↔
      r.keyStreamId=Uuid.nil ∨ r.keyStreamId ∈ s.store.map KsidInfo.keyStreamId := by
  by_cases hnil : r.keyStreamId=Uuid.nil
  · obtain ⟨e,he,-⟩ := lookup_opened libc s r env hnil
    exact iff_of_true ⟨e,he⟩ (Or.inl hnil)
  · have hr : Response.openConnect (openResponse libc s r env) =
        (serve libc s (.openConnect r,env)).1 := rfl
    rw [serve_supplied libc hnil] at hr ⊢
    rw [Response.openConnect.inj hr,or_iff_right hnil]
    exact exists_lookup_iff

/-- A successful OPEN_CONNECT yields a usable stream exactly when its identifier was nil or
already that of a registered stream. -/
theorem usable_iff (keyRate : Int32) (qber : ℚ) (prng : σ) (pre : List (Request × Env))
    (r : OpenConnectRequest) (env : Env) :
    Usable libc (Server.start keyRate qber prng) pre r env ↔
      r.keyStreamId=Uuid.nil ∨ r.keyStreamId ∈
        ((server libc).after (Server.start keyRate qber prng) pre).store.map
          KsidInfo.keyStreamId := by
  generalize hs : (server libc).after (Server.start keyRate qber prng) pre = s
  have hafter (later : List (Request × Env)) :
      (server libc).after (Server.start keyRate qber prng) (pre ++ (.openConnect r,env)::later) =
        (server libc).after (serve libc s (.openConnect r,env)).2 later := by
    rw [SerialMachine.after_append,hs]
    rfl
  simp only [Usable,hs,hafter,openResponse_status,forall_const]
  rw [← answered_registered_iff libc]
  constructor
  · intro h
    by_contra hnone
    rw [← Option.ne_none_iff_exists',not_not] at hnone
    let g : GetKeyRequest := ⟨(openResponse libc s r env).keyStreamId,0,QkdBytes.empty⟩
    apply h [] (by simp) g env rfl
    rw [SerialMachine.after_nil,getKeyResponse_notConnected libc hnone]
  · rintro ⟨e,he⟩ later - g genv hg
    obtain ⟨e',he',-⟩ := lookup_after libc he later
    rw [← hg] at he'
    rw [getKeyResponse_delivered libc he']
    change QkdStatusCode.successful.code ≠ QkdStatusCode.gkPeerNotConnected.code
    decide

/-- An identifier nobody was ever given is answered with success, and with no stream. -/
theorem unknown_ksid_not_usable :
    ¬ Usable ansiPrng (Server.start 32768 (49/100) 1) []
      ⟨⟨[65],by decide⟩,⟨[66],by decide⟩,⟨3,32,32,0,0,0,0,⟨[97],by decide⟩⟩,Uuid.fill 7⟩
      (yields 1) := by
  intro h
  apply h (by decide +kernel) [] (by simp) (askKey (Uuid.fill 7) 0) (yields 2) (by decide +kernel)
  decide +kernel

end Usable
end EtsiQkd004
