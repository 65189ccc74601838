import EtsiQkd004.Server.Promises

/-! The list of key streams as a record of the run: its identifiers are those that the run
minted, and the counter of each node is the number of keys the run delivered from its stream. -/
namespace EtsiQkd004
open Registry
variable {σ : Type} (libc : Prng σ)

/-- A nil OPEN_CONNECT of the run registered its stream under a new identifier, `k`. -/
def Minted (s : Server σ) (run : List (Request × Env)) (k : Uuid) : Prop :=
  (server libc).Sometime (fun s i => Mints s i ∧ i.2.uuid=k) s run

/-- A successful GET_KEY on the stream `k`. -/
def deliveredFrom (k : Uuid) : (Request × Env) × Response → Bool
  | ((.getKey g,_),.getKey p) =>
    decide (g.keyStreamId=k ∧ p.status=QkdStatusCode.successful.code)
  | _ => false

/-- The number of successful GET_KEY requests on the stream `k`. -/
def deliveries (hist : List ((Request × Env) × Response)) (k : Uuid) : ℕ :=
  hist.countP (deliveredFrom k)

section Minting

/-- A request adds to the identifiers of the list exactly what it mints. -/
lemma serve_ksids (s : Server σ) (i : Request × Env) (k : Uuid) :
    k ∈ (serve libc s i).2.store.map KsidInfo.keyStreamId ↔
      k ∈ s.store.map KsidInfo.keyStreamId ∨ (Mints s i ∧ i.2.uuid=k) := by
  have h := serve_served libc s i
  generalize (serve libc s i).1 = response at h
  generalize (serve libc s i).2.store = l at h
  cases h with
  | found _ hit =>
    refine (or_iff_left ?_).symm
    rintro ⟨⟨r,hr,-,hmiss⟩,-⟩
    cases hr
    rw [hit] at hmiss
    contradiction
  | @minted r env hnil hmiss =>
    have hm : Mints s (.openConnect r,env) := ⟨r,rfl,hnil,hmiss⟩
    simp only [List.map_append,List.mem_append,List.map_singleton,List.mem_singleton,registration,
      hm,true_and,eq_comm]
  | supplied hnonnil =>
    refine (or_iff_left ?_).symm
    rintro ⟨⟨r,hr,hnil,-⟩,-⟩
    cases hr
    exact hnonnil hnil
  | delivered _ hsplit =>
    rw [hsplit,or_iff_left]
    · simp [KsidInfo.counted]
    · rintro ⟨⟨r,hr,-⟩,-⟩
      cases hr
  | notConnected | closed =>
    refine (or_iff_left ?_).symm
    rintro ⟨⟨r,hr,-⟩,-⟩
    cases hr

/-- The identifiers of the list are those minted by the run. -/
lemma mem_ksids_iff_minted (keyRate : Int32) (qber : ℚ) (prng : σ) (run : List (Request × Env))
    (k : Uuid) :
    k ∈ ((server libc).after (Server.start keyRate qber prng) run).store.map KsidInfo.keyStreamId ↔
      Minted libc (Server.start keyRate qber prng) run k := by
  have h := SerialMachine.after_iff_sometime (M := server libc)
    (P := fun s i => Mints s i ∧ i.2.uuid=k)
    (Q := fun s => k ∈ s.store.map KsidInfo.keyStreamId) (fun s i => serve_ksids libc s i k)
    (Server.start keyRate qber prng) run
  refine h.trans (or_iff_right ?_)
  exact List.not_mem_nil

end Minting

section Deliveries

lemma deliveries_append (hist : List ((Request × Env) × Response)) (x : (Request × Env) × Response)
    (k : Uuid) :
    deliveries (hist ++ [x]) k = deliveries hist k + if deliveredFrom k x then 1 else 0 := by
  rw [deliveries,List.countP_append,List.countP_singleton]
  rfl

/-- What the list records of the requests answered so far. Streams that are not in the list
have delivered nothing, which is what a new node starts from. -/
structure Recorded (hist : List ((Request × Env) × Response)) (l : List KsidInfo) : Prop where
  distinct : DistinctKsids l
  counted : ∀ e ∈ l, e.currentIndex = Int32.ofNat (deliveries hist e.keyStreamId)
  unlisted : ∀ k, k ∉ l.map KsidInfo.keyStreamId → deliveries hist k = 0

/-- A request that delivers nothing, and leaves the list alone. -/
lemma Recorded.append_other {hist : List ((Request × Env) × Response)} {l : List KsidInfo}
    (h : Recorded hist l) {x : (Request × Env) × Response} (hx : ∀ k, deliveredFrom k x = false) :
    Recorded (hist ++ [x]) l := by
  have hd (k : Uuid) : deliveries (hist ++ [x]) k = deliveries hist k := by
    rw [deliveries_append,hx]
    rfl
  refine ⟨h.distinct,?_,?_⟩
  · intro e he
    rw [hd,h.counted e he]
  · intro k hk
    rw [hd,h.unlisted k hk]

/-- The other nodes of a list with distinct identifiers. -/
lemma DistinctKsids.other {before behind : List KsidInfo} {e : KsidInfo}
    (h : DistinctKsids (before ++ e::behind)) {e' : KsidInfo} (he : e' ∈ before ++ behind) :
    e'.keyStreamId ≠ e.keyStreamId := by
  have hn := h.nodup
  rw [List.map_append,List.map_cons,List.nodup_middle,List.nodup_cons] at hn
  intro hk
  apply hn.1
  rw [← hk,← List.map_append]
  exact List.mem_map_of_mem he

/-- A key that is delivered is counted by the node of its stream and by no other. -/
lemma Recorded.append_delivered {hist : List ((Request × Env) × Response)}
    {before behind : List KsidInfo} {e : KsidInfo} (h : Recorded hist (before ++ e::behind))
    {x : (Request × Env) × Response}
    (hx : ∀ k, deliveredFrom k x = decide (e.keyStreamId=k))
    (hdistinct : DistinctKsids (before ++ e.counted::behind)) :
    Recorded (hist ++ [x]) (before ++ e.counted::behind) := by
  have hother (k : Uuid) (hk : k ≠ e.keyStreamId) :
      deliveries (hist ++ [x]) k = deliveries hist k := by
    rw [deliveries_append,hx,decide_eq_false (Ne.symm hk)]
    rfl
  refine ⟨hdistinct,?_,?_⟩
  · intro e' he'
    rw [List.mem_append,List.mem_cons,or_left_comm] at he'
    rcases he' with rfl | he'
    · have hself : deliveries (hist ++ [x]) e.keyStreamId = deliveries hist e.keyStreamId + 1 := by
        rw [deliveries_append,hx,decide_eq_true rfl]
        rfl
      change e.currentIndex + 1 = Int32.ofNat (deliveries (hist ++ [x]) e.keyStreamId)
      rw [hself,Int32.ofNat_add,h.counted e (by simp)]
      rfl
    · have hmem : e' ∈ before ++ e::behind := by
        rw [List.mem_append,List.mem_cons]
        tauto
      rw [hother _ (h.distinct.other (List.mem_append.mpr he')),h.counted e' hmem]
  · intro k hk
    have hk' : k ∉ (before ++ e::behind).map KsidInfo.keyStreamId := by
      simpa [KsidInfo.counted] using hk
    have hne : k ≠ e.keyStreamId := by
      rintro rfl
      exact hk' (List.mem_map_of_mem (by simp))
    rw [hother k hne,h.unlisted k hk']

/-- Serving a request with fresh identifiers keeps the record. -/
lemma serve_recorded (hist : List ((Request × Env) × Response)) (s : Server σ)
    (i : Request × Env) (hfresh : FreshUuid s i) (h : Recorded hist s.store) :
    Recorded (hist ++ [(i,(serve libc s i).1)]) (serve libc s i).2.store := by
  have hdistinct := serve_distinctKsids libc s i hfresh h.distinct
  have hserved := serve_served libc s i
  generalize (serve libc s i).1 = response at hserved ⊢
  generalize (serve libc s i).2.store = l at hdistinct hserved ⊢
  cases hserved with
  | found | supplied | closed => exact h.append_other fun _ => rfl
  | notConnected =>
    have hstatus : QkdStatusCode.gkPeerNotConnected.code ≠ QkdStatusCode.successful.code := by
      decide
    apply h.append_other
    intro k
    exact decide_eq_false fun hk => hstatus hk.2
  | @minted r env hnil hmiss =>
    have hold := h.append_other (x := ((.openConnect r,env),.openConnect
      ⟨QkdStatusCode.successful.code,r.qos,env.uuid⟩)) fun _ => rfl
    obtain ⟨-,hnew⟩ := hfresh ⟨r,rfl,hnil,hmiss⟩
    refine ⟨hdistinct,?_,?_⟩
    · intro e he
      rw [List.mem_append,List.mem_singleton] at he
      rcases he with he | rfl
      · exact hold.counted e he
      · change (0 : Int32) = Int32.ofNat (deliveries _ env.uuid)
        rw [hold.unlisted _ hnew]
        rfl
    · intro k hk
      rw [List.map_append,List.mem_append,not_or] at hk
      exact hold.unlisted k hk.1
  | @delivered g env e before behind hit hsplit =>
    rw [hsplit] at h
    refine h.append_delivered ?_ hdistinct
    intro k
    simp only [deliveredFrom,key_of_lookup hit,and_true]

/-- The list records every run from the empty list. -/
lemma recorded_after (keyRate : Int32) (qber : ℚ) (prng : σ) {run : List (Request × Env)}
    (h : (server libc).Along FreshUuid (Server.start keyRate qber prng) run) :
    Recorded ((server libc).trace (Server.start keyRate qber prng) run)
      ((server libc).after (Server.start keyRate qber prng) run).store := by
  refine h.trace_invariant (J := fun hist s => Recorded hist s.store)
    (fun hist s i => serve_recorded libc hist s i) ⟨⟨?_,?_⟩,?_,?_⟩
  · exact List.nodup_nil
  · exact List.not_mem_nil
  · intro e he
    cases he
  · intro k _
    rfl

end Deliveries

/-- In every run from the empty list that mints fresh identifiers: each GET_KEY is successful
exactly if its stream was minted before it; otherwise it reports that, echoes the request and
changes nothing; and if it is successful, it only counts up the node of its stream. At every
point of the run the counters are the numbers of keys delivered so far, in 32 bits. -/
theorem getKey_answers_minted (keyRate : Int32) (qber : ℚ) (prng : σ) (run : List (Request × Env))
    (hfresh : (server libc).Along FreshUuid (Server.start keyRate qber prng) run) :
    (∀ pre g env post, run = pre ++ (.getKey g,env)::post →
      let s := (server libc).after (Server.start keyRate qber prng) pre
      let p := getKeyResponse libc s g env
      let s' := (serve libc s (.getKey g,env)).2
      (p.status=QkdStatusCode.successful.code ↔
        Minted libc (Server.start keyRate qber prng) pre g.keyStreamId) ∧
      (¬ Minted libc (Server.start keyRate qber prng) pre g.keyStreamId →
        p = ⟨QkdStatusCode.gkPeerNotConnected.code,g.index,QkdBytes.empty,g.metadata⟩ ∧ s'=s) ∧
      (Minted libc (Server.start keyRate qber prng) pre g.keyStreamId →
        ∃ before e behind, s.store = before ++ e::behind ∧ e.keyStreamId=g.keyStreamId ∧
          (∀ e' ∈ before ++ behind, e'.keyStreamId≠g.keyStreamId) ∧
          s'.store = before ++ { e with currentIndex := e.currentIndex+1 }::behind)) ∧
    ∀ pre post, run = pre ++ post →
      ∀ e ∈ ((server libc).after (Server.start keyRate qber prng) pre).store,
        e.currentIndex = Int32.ofNat (deliveries
          ((server libc).trace (Server.start keyRate qber prng) pre) e.keyStreamId) := by
  have hrecorded (pre post : List (Request × Env)) (h : run = pre ++ post) :=
    recorded_after libc keyRate qber prng
      ((SerialMachine.along_append _ _ _ pre post).mp (h ▸ hfresh)).1
  constructor
  · intro pre g env post hrun s p s'
    have hdistinct := (hrecorded pre _ hrun).distinct
    rw [← mem_ksids_iff_minted]
    cases hl : lookup KsidInfo.keyStreamId g.keyStreamId s.store with
    | none =>
      have hnot := lookup_eq_none.mp hl
      have hp : p = ⟨QkdStatusCode.gkPeerNotConnected.code,g.index,QkdBytes.empty,g.metadata⟩ :=
        getKeyResponse_notConnected libc hl
      have hs : s'=s := congrArg Prod.snd (serve_notConnected libc hl)
      refine ⟨iff_of_false ?_ hnot,fun _ => ⟨hp,hs⟩,fun hmem => absurd hmem hnot⟩
      rw [hp]
      change QkdStatusCode.gkPeerNotConnected.code ≠ QkdStatusCode.successful.code
      decide
    | some e =>
      have hmem : g.keyStreamId ∈ s.store.map KsidInfo.keyStreamId :=
        exists_lookup_iff.mp ⟨e,hl⟩
      have hp : p.status=QkdStatusCode.successful.code :=
        congrArg GetKeyResponse.status (getKeyResponse_delivered libc hl)
      refine ⟨iff_of_true hp hmem,fun hnot => absurd hmem hnot,fun _ => ?_⟩
      obtain ⟨before,behind,hsearch,hsplit,-⟩ := getKeySearch_of_lookup_some hl
      have hother : DistinctKsids (before ++ e::behind) := hsplit ▸ hdistinct
      have hk : e.keyStreamId=g.keyStreamId := key_of_lookup hl
      refine ⟨before,e,behind,hsplit,hk,fun e' he' => hk ▸ hother.other he',?_⟩
      simp only [s',serve,qkdGetKeyStruct,serverCalls,StateT.run,hsearch]
  · intro pre post hrun
    exact (hrecorded pre post hrun).counted

/-- A run that mints an identifier, takes two keys from its stream and asks for one of a stream
nobody opened. -/
def countedRun : List (Request × Env) :=
  [(askStream nodeA nodeB 3,yields 1),
   (.getKey (askKey (Uuid.fill 1) 7),yields 2),
   (.getKey (askKey (Uuid.fill 9) 7),yields 3),
   (.getKey (askKey (Uuid.fill 1) 8),yields 4)]

theorem getKey_answers_minted_countedRun :
    (server ansiPrng).Along FreshUuid (Server.start 32768 (49/100) 1) countedRun ∧
    (getKeyResponse ansiPrng ((server ansiPrng).after (Server.start 32768 (49/100) 1)
      (countedRun.take 3)) (askKey (Uuid.fill 1) 8) (yields 4)).status =
        QkdStatusCode.successful.code ∧
    Minted ansiPrng (Server.start 32768 (49/100) 1) (countedRun.take 3) (Uuid.fill 1) ∧
    ((server ansiPrng).after (Server.start 32768 (49/100) 1) countedRun).store.map
      KsidInfo.currentIndex = [2] := by
  have hfresh : (server ansiPrng).Along FreshUuid (Server.start 32768 (49/100) 1) countedRun :=
    ⟨fun _ => ⟨by decide +kernel,by decide +kernel⟩,fun _ => ⟨by decide +kernel,by decide +kernel⟩,
      fun _ => ⟨by decide +kernel,by decide +kernel⟩,fun _ => ⟨by decide +kernel,by decide +kernel⟩,
      trivial⟩
  have h := ((getKey_answers_minted ansiPrng 32768 (49/100) 1 countedRun hfresh).1
    (countedRun.take 3) (askKey (Uuid.fill 1) 8) (yields 4) [] rfl).1
  have hok : (getKeyResponse ansiPrng ((server ansiPrng).after (Server.start 32768 (49/100) 1)
      (countedRun.take 3)) (askKey (Uuid.fill 1) 8) (yields 4)).status =
        QkdStatusCode.successful.code := by decide +kernel
  exact ⟨hfresh,hok,h.mp hok,by decide +kernel⟩

end EtsiQkd004
