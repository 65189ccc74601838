import EtsiQkd004.Server.Store

/-! Keys of one run agree: a symmetric key depends on the unordered pair of endpoints its
stream was registered for and on the index, and on nothing that happened in between. -/
namespace EtsiQkd004
open Registry
variable {σ : Type} (libc : Prng σ)

/-- The endpoints of a nil OPEN_CONNECT that was answered with `k`. -/
def openedAs (k : Uuid) : (Request × Env) × Response → Option (CString × CString)
  | ((.openConnect r,_),.openConnect response) =>
    if r.keyStreamId=Uuid.nil ∧ response.keyStreamId=k then some (r.source,r.destination) else none
  | _ => none

/-- The endpoints the stream `k` was registered for: those of the first nil OPEN_CONNECT of
the run that was answered with `k`. -/
def registeredFor (s : Server σ) (run : List (Request × Env)) (k : Uuid) :
    Option (CString × CString) :=
  ((server libc).trace s run).findSome? (openedAs k)

/-- Only the first OPEN_CONNECT answered with `k` decides what a lookup of `k` finds. -/
lemma serve_lookup_endpoints (s : Server σ) (i : Request × Env) (k : Uuid) :
    (lookup KsidInfo.keyStreamId k (serve libc s i).2.store).map KsidInfo.endpoints =
      ((lookup KsidInfo.keyStreamId k s.store).map KsidInfo.endpoints).or
        (openedAs k (i,(serve libc s i).1)) := by
  have h := serve_served libc s i
  generalize (serve libc s i).1 = response at h ⊢
  generalize (serve libc s i).2.store = l at h ⊢
  cases h with
  | @found r env e hnil hit =>
    by_cases hk : e.keyStreamId=k
    · cases hl : lookup KsidInfo.keyStreamId k s.store with
      | some e' => rfl
      | none =>
        have hn := lookup_eq_none.mp hl
        exact absurd (List.mem_map.mpr ⟨e,mem_of_lookup hit,hk⟩) hn
    · simp [openedAs,hk]
  | @minted r env hnil hmiss =>
    simp only [openedAs,hnil,true_and]
    rw [lookup_append_one]
    cases lookup KsidInfo.keyStreamId k s.store with
    | some e => rfl
    | none => by_cases hk : env.uuid=k <;> simp [registration,hk,KsidInfo.endpoints]
  | supplied hnonnil => simp [openedAs,hnonnil]
  | @delivered _ _ e before behind _ hsplit =>
    have he : e.counted.keyStreamId = e.keyStreamId := rfl
    rw [lookup_replace KsidInfo.keyStreamId k KsidInfo.endpoints he rfl,← hsplit]
    simp [openedAs]
  | notConnected | closed => simp [openedAs]

/-- The list of key streams remembers what each stream was registered for. -/
theorem registeredFor_eq (keyRate : Int32) (qber : ℚ) (prng : σ) (run : List (Request × Env))
    (k : Uuid) :
    registeredFor libc (Server.start keyRate qber prng) run k =
      (lookup KsidInfo.keyStreamId k
        ((server libc).after (Server.start keyRate qber prng) run).store).map KsidInfo.endpoints := by
  refine SerialMachine.trace_invariant (M := server libc)
    (J := fun hist s => hist.findSome? (openedAs k) =
      (lookup KsidInfo.keyStreamId k s.store).map KsidInfo.endpoints) ?_ rfl run
  intro hist s i h
  change _ = (lookup KsidInfo.keyStreamId k (serve libc s i).2.store).map KsidInfo.endpoints
  rw [List.findSome?_append,h,serve_lookup_endpoints]
  simp [server]

/-- A successful answer comes from the stream the identifier finds. -/
lemma delivered_of_successful {s : Server σ} {r : GetKeyRequest} {env : Env} {p : GetKeyResponse}
    (h : .getKey p = (serve libc s (.getKey r,env)).1)
    (hok : p.status=QkdStatusCode.successful.code) :
    ∃ e, lookup KsidInfo.keyStreamId r.keyStreamId s.store = some e ∧
      p.keyBuffer = keyFor libc e r env s.prng := by
  cases hl : lookup KsidInfo.keyStreamId r.keyStreamId s.store with
  | none =>
    rw [serve_notConnected libc hl] at h
    cases h
    cases hok
  | some e =>
    rw [serve_delivered libc hl] at h
    cases h
    exact ⟨e,rfl,rfl⟩

/-- The symmetric key of a stream, as the generator draws it from a fresh seed. -/
lemma keyFor_symmetric {e : KsidInfo} {r : GetKeyRequest} {env : Env} {prng : σ}
    (htype : r.metadata.data[0]? = some QkdKeyInfoType.symmetric.code)
    (halloc : env.allocated=true) :
    (keyFor libc e r env prng).data = drawnKey libc e r.index := by
  have ht := metadataByte_of_getElem? htype env.beyondMetadata
  rw [keyFor_data,if_pos halloc,if_pos (Or.inl ht)]

/-- The key of a node follows from what it was registered for. -/
lemma keyFor_data_of_stream {e e' : KsidInfo} (h : e'.stream = e.stream) (r : GetKeyRequest)
    (env : Env) (prng : σ) :
    (keyFor libc e' r env prng).data = (keyFor libc e r env prng).data := by
  simp only [KsidInfo.stream,Prod.mk.injEq] at h
  simp only [keyFor_data,drawnKey,h.2.1,h.2.2.1,h.2.2.2]

/-- The stream behind a successful answer of a run, as the list of key streams holds it when
the run is over. -/
lemma stream_of_successful {s : Server σ} {run : List (Request × Env)} {r : GetKeyRequest}
    {env : Env} {p : GetKeyResponse}
    (h : ((.getKey r,env),.getKey p) ∈ (server libc).trace s run)
    (hok : p.status=QkdStatusCode.successful.code) :
    ∃ e prng, lookup KsidInfo.keyStreamId r.keyStreamId ((server libc).after s run).store = some e ∧
      p.keyBuffer.data = (keyFor libc e r env prng).data := by
  obtain ⟨pre,post,rfl,hp⟩ := (SerialMachine.mem_trace _).mp h
  obtain ⟨e,hl,hk⟩ := delivered_of_successful libc hp hok
  obtain ⟨e',hl',hs⟩ := lookup_after libc hl ((.getKey r,env)::post)
  rw [SerialMachine.after_append]
  exact ⟨e',_,hl',by rw [hk,keyFor_data_of_stream libc hs]⟩

/-- Two successful symmetric GET_KEY answers of one run with the same index agree up to the
shorter key when their streams were registered for the same endpoints in either order, and
are equal when they name the same stream. -/
theorem key_agreement (keyRate : Int32) (qber : ℚ) (prng : σ) (run : List (Request × Env))
    {r₁ r₂ : GetKeyRequest} {env₁ env₂ : Env} {p₁ p₂ : GetKeyResponse}
    (h₁ : ((.getKey r₁,env₁),.getKey p₁) ∈
      (server libc).trace (Server.start keyRate qber prng) run)
    (h₂ : ((.getKey r₂,env₂),.getKey p₂) ∈
      (server libc).trace (Server.start keyRate qber prng) run)
    (hok₁ : p₁.status=QkdStatusCode.successful.code)
    (hok₂ : p₂.status=QkdStatusCode.successful.code)
    (htype₁ : r₁.metadata.data[0]? = some QkdKeyInfoType.symmetric.code)
    (htype₂ : r₂.metadata.data[0]? = some QkdKeyInfoType.symmetric.code)
    (halloc₁ : env₁.allocated=true) (halloc₂ : env₂.allocated=true)
    (hindex : r₁.index=r₂.index) :
    (∀ a b, registeredFor libc (Server.start keyRate qber prng) run r₁.keyStreamId = some (a,b) →
      (registeredFor libc (Server.start keyRate qber prng) run r₂.keyStreamId = some (a,b) ∨
        registeredFor libc (Server.start keyRate qber prng) run r₂.keyStreamId = some (b,a)) →
      p₁.keyBuffer.data.take (min p₁.keyBuffer.data.length p₂.keyBuffer.data.length) =
        p₂.keyBuffer.data.take (min p₁.keyBuffer.data.length p₂.keyBuffer.data.length)) ∧
    (r₁.keyStreamId=r₂.keyStreamId → p₁.keyBuffer=p₂.keyBuffer) := by
  obtain ⟨e₁,_,hl₁,hk₁⟩ := stream_of_successful libc h₁ hok₁
  obtain ⟨e₂,_,hl₂,hk₂⟩ := stream_of_successful libc h₂ hok₂
  rw [keyFor_symmetric libc htype₁ halloc₁] at hk₁
  rw [keyFor_symmetric libc htype₂ halloc₂] at hk₂
  constructor
  · intro a b hab hba
    rw [registeredFor_eq,hl₁,Option.map_some,Option.some.injEq] at hab
    rw [registeredFor_eq,hl₂,Option.map_some,Option.some.injEq,Option.some.injEq] at hba
    have hseed : keySeed e₁.source e₁.destination r₁.index =
        keySeed e₂.source e₂.destination r₂.index := by
      rw [KsidInfo.endpoints,Prod.mk.injEq] at hab
      rw [hab.1,hab.2,hindex]
      rcases hba with hba | hba <;> rw [KsidInfo.endpoints,Prod.mk.injEq] at hba
      · rw [hba.1,hba.2]
      · rw [hba.1,hba.2,keySeed_comm]
    rw [hk₁,hk₂,drawnKey_length,drawnKey_length,drawnKey,drawnKey,hseed,
      randBytes_take libc (Nat.min_le_left _ _),randBytes_take libc (Nat.min_le_right _ _)]
  · intro hk
    rw [hk,hl₂,Option.some.injEq] at hl₁
    subst hl₁
    apply QkdBytes.eq_of_data
    rw [hk₁,hk₂,hindex]

section Scenario

/-- Both peers open the stream from their own side and fetch key 7, with other requests in
between. -/
def peersRun : List (Request × Env) :=
  [(askStream nodeA nodeB 3,yields 1),
   (askStream nodeB nodeA 2,yields 2),
   (.getKey (askKey (Uuid.fill 1) 7),yields 3),
   (askStream ⟨[67],by decide⟩ nodeA 5,yields 4),
   (.getKey (askKey (Uuid.fill 4) 8),yields 5),
   (.getKey (askKey (Uuid.fill 2) 7),yields 6)]

theorem key_agreement_peersRun :
    ∃ p₁ p₂ : GetKeyResponse,
      ((.getKey (askKey (Uuid.fill 1) 7),yields 3),.getKey p₁) ∈
        (server ansiPrng).trace (Server.start 32768 (49/100) 1) peersRun ∧
      ((.getKey (askKey (Uuid.fill 2) 7),yields 6),.getKey p₂) ∈
        (server ansiPrng).trace (Server.start 32768 (49/100) 1) peersRun ∧
      p₁.keyBuffer.data.length=3 ∧ p₂.keyBuffer.data.length=2 ∧
      p₁.keyBuffer.data.take 2 = p₂.keyBuffer.data.take 2 := by
  let s₀ : Server UInt32 := Server.start 32768 (49/100) 1
  let p₁ := ((qkdGetKeyStruct (serverCalls ansiPrng (yields 3)) (askKey (Uuid.fill 1) 7)).run
    ((server ansiPrng).after s₀ (peersRun.take 2))).1
  let p₂ := ((qkdGetKeyStruct (serverCalls ansiPrng (yields 6)) (askKey (Uuid.fill 2) 7)).run
    ((server ansiPrng).after s₀ (peersRun.take 5))).1
  have h₁ : ((.getKey (askKey (Uuid.fill 1) 7),yields 3),.getKey p₁) ∈
      (server ansiPrng).trace s₀ peersRun := List.mem_iff_getElem?.mpr ⟨2,rfl⟩
  have h₂ : ((.getKey (askKey (Uuid.fill 2) 7),yields 6),.getKey p₂) ∈
      (server ansiPrng).trace s₀ peersRun := List.mem_iff_getElem?.mpr ⟨5,rfl⟩
  have hl₁ : p₁.keyBuffer.data.length=3 := by decide +kernel
  have hl₂ : p₂.keyBuffer.data.length=2 := by decide +kernel
  have h := (key_agreement ansiPrng 32768 (49/100) 1 peersRun h₁ h₂ (by decide +kernel)
    (by decide +kernel) rfl rfl rfl rfl rfl).1 ⟨[65],by decide⟩ ⟨[66],by decide⟩
    (by decide +kernel) (Or.inr (by decide +kernel))
  rw [hl₁,hl₂] at h
  exact ⟨p₁,p₂,h₁,h₂,hl₁,hl₂,h⟩

end Scenario
end EtsiQkd004
