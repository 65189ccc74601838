import EtsiQkd004.Server.Steps
import EtsiQkd004.Library.Assignment

/-! The list of key streams over whole runs. It only ever grows at its end, one node for each
pair of endpoints, and refines an assignment of identifiers to pairs of endpoints. -/
namespace EtsiQkd004
open Registry Assignment
variable {σ : Type} (libc : Prng σ)

/-- The request calls `uuid_generate_random`. -/
def Mints (s : Server σ) (i : Request × Env) : Prop :=
  ∃ r, i.1 = .openConnect r ∧ r.keyStreamId=Uuid.nil ∧
    lookup KsidInfo.endpoints (r.source,r.destination) s.store = none

/-- What is assumed of `uuid_generate_random`: neither nil nor an identifier in the list. -/
def FreshUuid (s : Server σ) (i : Request × Env) : Prop :=
  Mints s i → i.2.uuid ≠ Uuid.nil ∧ i.2.uuid ∉ s.store.map KsidInfo.keyStreamId

/-- The three things that can happen to the list. -/
lemma serve_store_cases (s : Server σ) (i : Request × Env) :
    (serve libc s i).2.store = s.store ∨
    (∃ r env, i = (.openConnect r,env) ∧ Mints s i ∧
      (serve libc s i).2.store = s.store ++ [registration r env]) ∨
    ∃ e before behind, s.store = before ++ e::behind ∧
      (serve libc s i).2.store = before ++ e.counted::behind := by
  have h := serve_served libc s i
  generalize (serve libc s i).1 = response at h
  generalize (serve libc s i).2.store = l at h
  cases h with
  | found | supplied | notConnected | closed => exact Or.inl rfl
  | @minted r env hnil hmiss => exact Or.inr (Or.inl ⟨r,env,rfl,⟨r,rfl,hnil,hmiss⟩,rfl⟩)
  | @delivered _ _ e before behind _ hsplit =>
    exact Or.inr (Or.inr ⟨e,before,behind,hsplit,rfl⟩)

/-- One request leaves the registered nodes in place and adds at most one, at the end. -/
lemma serve_store (s : Server σ) (i : Request × Env) :
    ∃ old new, (serve libc s i).2.store = old ++ new ∧
      old.map KsidInfo.stream = s.store.map KsidInfo.stream ∧ new.length ≤ 1 := by
  rcases serve_store_cases libc s i with h | ⟨r,env,-,-,h⟩ | ⟨e,before,behind,hs,h⟩
  · exact ⟨s.store,[],by simp [h],rfl,by simp⟩
  · exact ⟨s.store,[_],h,rfl,by simp⟩
  · exact ⟨before ++ e.counted::behind,[],by simp [h],by simp [hs],by simp⟩

lemma serve_extends (s : Server σ) (i : Request × Env) :
    Extends KsidInfo.stream s.store (serve libc s i).2.store := by
  obtain ⟨old,new,hl,ho,-⟩ := serve_store libc s i
  rw [hl,Extends,List.map_append,ho]
  exact List.prefix_append _ _

/-- The nodes of a state stay in place through every run that starts there. -/
lemma after_extends (s : Server σ) (run : List (Request × Env)) :
    Extends KsidInfo.stream s.store ((server libc).after s run).store :=
  SerialMachine.after_rel (R := fun s t => Extends KsidInfo.stream s.store t.store)
    (fun s => Extends.refl _ s.store) (fun _ _ _ => Extends.trans) (serve_extends libc) s run

/-- A registered identifier keeps finding the same stream. -/
lemma lookup_after {s : Server σ} {k : Uuid} {e : KsidInfo}
    (h : lookup KsidInfo.keyStreamId k s.store = some e) (run : List (Request × Env)) :
    ∃ e', lookup KsidInfo.keyStreamId k ((server libc).after s run).store = some e' ∧
      e'.stream = e.stream :=
  lookup_of_extends (g := fun x => x.1) (fun _ => rfl) (after_extends libc s run) h

lemma serve_endpoints_nodup (s : Server σ) (i : Request × Env)
    (hs : (s.store.map KsidInfo.endpoints).Nodup) :
    ((serve libc s i).2.store.map KsidInfo.endpoints).Nodup := by
  rcases serve_store_cases libc s i with h | ⟨r,env,rfl,hm,h⟩ | ⟨e,before,behind,hl,h⟩
  · rwa [h]
  · obtain ⟨q,hq,-,hmiss⟩ := hm
    cases hq
    rw [h]
    exact nodup_append_one hs (lookup_eq_none.mp hmiss)
  · rw [hl] at hs
    rw [h]
    simpa [KsidInfo.counted,KsidInfo.endpoints] using hs

/-- Identifiers are unique and none of them is nil. -/
structure DistinctKsids (l : List KsidInfo) : Prop where
  nodup : (l.map KsidInfo.keyStreamId).Nodup
  nil_notMem : Uuid.nil ∉ l.map KsidInfo.keyStreamId

lemma serve_distinctKsids (s : Server σ) (i : Request × Env) (hi : FreshUuid s i)
    (hs : DistinctKsids s.store) : DistinctKsids (serve libc s i).2.store := by
  rcases serve_store_cases libc s i with h | ⟨r,env,rfl,hm,h⟩ | ⟨e,before,behind,hl,h⟩
  · rwa [h]
  · obtain ⟨hu,hn⟩ := hi hm
    rw [h]
    refine ⟨nodup_append_one hs.nodup hn,?_⟩
    simp only [List.map_append,List.map_singleton,List.mem_append,List.mem_singleton,not_or]
    exact ⟨hs.nil_notMem,Ne.symm hu⟩
  · rw [hl] at hs
    rw [h]
    refine ⟨?_,?_⟩
    · simpa [KsidInfo.counted] using hs.nodup
    · simpa [KsidInfo.counted] using hs.nil_notMem

/-- The identifier that each pair of endpoints has been given. -/
def directory (l : List KsidInfo) (p : CString × CString) : Option Uuid :=
  (lookup KsidInfo.endpoints p l).map KsidInfo.keyStreamId

/-- The abstract service: only a nil OPEN_CONNECT touches the assignment. -/
def directoryStep (d : CString × CString → Option Uuid) :
    Request × Env → CString × CString → Option Uuid
  | (.openConnect r,env) =>
    if r.keyStreamId=Uuid.nil then grant d (r.source,r.destination) env.uuid else d
  | (.getKey _,_) | (.close _,_) => d

lemma directory_registered (l : List KsidInfo) (r : OpenConnectRequest) (env : Env)
    (hmiss : lookup KsidInfo.endpoints (r.source,r.destination) l = none) :
    directory (l ++ [registration r env]) =
      grant (directory l) (r.source,r.destination) env.uuid := by
  have hd : directory l (r.source,r.destination) = none := by rw [directory,hmiss]; rfl
  funext p
  by_cases hp : p=(r.source,r.destination)
  · subst p
    rw [grant_self,hd,directory,lookup_append_one,hmiss]
    simp [registration,KsidInfo.endpoints]
  · have hr : (registration r env).endpoints ≠ p := fun h => hp h.symm
    rw [grant,Function.update_of_ne hp,directory,lookup_append_one,if_neg hr,Option.or_none]
    rfl

lemma directory_counted (before behind : List KsidInfo) (e : KsidInfo) :
    directory (before ++ e.counted::behind) = directory (before ++ e::behind) := by
  funext p
  have he : e.counted.endpoints = e.endpoints := rfl
  exact lookup_replace KsidInfo.endpoints p KsidInfo.keyStreamId he rfl before behind

/-- Serving a request refines the step of the abstract service. -/
theorem directory_serve (s : Server σ) (i : Request × Env) :
    directory (serve libc s i).2.store = directoryStep (directory s.store) i := by
  have h := serve_served libc s i
  generalize (serve libc s i).1 = response at h
  generalize (serve libc s i).2.store = l at h
  cases h with
  | @found r env e hnil hit =>
    have hd : directory s.store (r.source,r.destination) = some e.keyStreamId := by
      rw [directory,hit]; rfl
    rw [directoryStep,if_pos hnil,grant,hd,Option.getD_some,← hd,Function.update_eq_self]
  | minted hnil hmiss => rw [directoryStep,if_pos hnil,directory_registered _ _ _ hmiss]
  | supplied hnonnil => rw [directoryStep,if_neg hnonnil]
  | delivered _ hsplit => rw [directory_counted,← hsplit]; rfl
  | notConnected | closed => rfl

/-- A nil OPEN_CONNECT is answered with what the assignment then holds for its endpoints. -/
theorem directory_answer (s : Server σ) (r : OpenConnectRequest) (env : Env)
    (hnil : r.keyStreamId=Uuid.nil) :
    ∃ k, (serve libc s (.openConnect r,env)).1 =
        .openConnect ⟨QkdStatusCode.successful.code,r.qos,k⟩ ∧
      directory (serve libc s (.openConnect r,env)).2.store (r.source,r.destination) = some k := by
  rw [directory_serve,directoryStep,if_pos hnil,grant_self]
  cases hl : lookup KsidInfo.endpoints (r.source,r.destination) s.store with
  | some e => exact ⟨e.keyStreamId,by rw [serve_found libc hnil hl],by simp [directory,hl]⟩
  | none => exact ⟨env.uuid,by rw [serve_minted libc hnil hl],by simp [directory,hl]⟩

/-- What is assigned once stays assigned. -/
lemma directory_after (s : Server σ) (run : List (Request × Env)) (p : CString × CString)
    (k : Uuid) (h : directory s.store p = some k) :
    directory ((server libc).after s run).store p = some k := by
  refine SerialMachine.after_invariant (M := server libc)
    (I := fun s => directory s.store p = some k) ?_ h run
  intro s i hs
  change directory (serve libc s i).2.store p = some k
  rw [directory_serve]
  obtain ⟨r,env⟩ := i
  cases r with
  | openConnect r =>
    rw [directoryStep]
    split_ifs
    · exact grant_of_some hs _ _
    · exact hs
  | getKey r => exact hs
  | close r => exact hs

/-- With fresh identifiers the assignment stays distinct. -/
lemma serve_directory_distinct (s : Server σ) (i : Request × Env) (hi : FreshUuid s i)
    (hs : Distinct (directory s.store)) : Distinct (directory (serve libc s i).2.store) := by
  rw [directory_serve]
  obtain ⟨r,env⟩ := i
  cases r with
  | openConnect r =>
    rw [directoryStep]
    split_ifs with hnil
    · apply hs.grant
      intro hd q hq
      have hmiss : lookup KsidInfo.endpoints (r.source,r.destination) s.store = none :=
        Option.map_eq_none_iff.mp hd
      obtain ⟨e,he,hk⟩ := Option.map_eq_some_iff.mp hq
      exact (hi ⟨r,rfl,hnil,hmiss⟩).2 (List.mem_map.mpr ⟨e,mem_of_lookup he,hk⟩)
    · exact hs
  | getKey r => exact hs
  | close r => exact hs

/-- In the run, a nil OPEN_CONNECT for the endpoints `p` was answered with `k`. -/
def Answered (s : Server σ) (run : List (Request × Env)) (p : CString × CString) (k : Uuid) : Prop :=
  ∃ r env response, ((.openConnect r,env),.openConnect response) ∈ (server libc).trace s run ∧
    r.keyStreamId=Uuid.nil ∧ (r.source,r.destination)=p ∧ response.keyStreamId=k

lemma directory_of_answered {s : Server σ} {run : List (Request × Env)} {p : CString × CString}
    {k : Uuid} (h : Answered libc s run p k) :
    directory ((server libc).after s run).store p = some k := by
  obtain ⟨r,env,response,hmem,hnil,rfl,rfl⟩ := h
  obtain ⟨pre,post,rfl,hresponse⟩ := (SerialMachine.mem_trace _).mp hmem
  obtain ⟨k,hk,hd⟩ := directory_answer libc ((server libc).after s pre) r env hnil
  have he : response.keyStreamId=k := by
    have h := hresponse.trans hk
    cases h
    rfl
  rw [SerialMachine.after_append,SerialMachine.after_cons,he]
  exact directory_after libc _ post _ _ hd

/-- After any run from the empty list: one node for each pair of endpoints, each with its own
identifier; every further request only appends; and the nil OPEN_CONNECT requests of the run
were answered with one identifier for each pair of endpoints. -/
theorem store_invariant (keyRate : Int32) (qber : ℚ) (prng : σ) (run : List (Request × Env)) :
    let s₀ := Server.start keyRate qber prng
    let s := (server libc).after s₀ run
    (s.store.map KsidInfo.endpoints).Nodup ∧
    ((server libc).Along FreshUuid s₀ run →
      (s.store.map KsidInfo.keyStreamId).Nodup ∧ Uuid.nil ∉ s.store.map KsidInfo.keyStreamId) ∧
    (∀ i, ∃ old new, (serve libc s i).2.store = old ++ new ∧
      old.map KsidInfo.stream = s.store.map KsidInfo.stream ∧ new.length ≤ 1) ∧
    (∀ p k k', Answered libc s₀ run p k → Answered libc s₀ run p k' → k=k') ∧
    ((server libc).Along FreshUuid s₀ run →
      ∀ p p' k k', p≠p' → Answered libc s₀ run p k → Answered libc s₀ run p' k' → k≠k') := by
  intro s₀ s
  have hempty : s₀.store=[] := rfl
  refine ⟨?_,?_,serve_store libc s,?_,?_⟩
  · have h₀ : (s₀.store.map KsidInfo.endpoints).Nodup := by simp [hempty]
    exact SerialMachine.after_invariant (M := server libc)
      (I := fun s => (s.store.map KsidInfo.endpoints).Nodup) (serve_endpoints_nodup libc) h₀ run
  · intro hf
    have h₀ : DistinctKsids s₀.store := ⟨by simp [hempty],by simp [hempty]⟩
    have hd : DistinctKsids s.store :=
      hf.invariant (I := fun s => DistinctKsids s.store) (serve_distinctKsids libc) h₀
    exact ⟨hd.nodup,hd.nil_notMem⟩
  · intro p k k' h h'
    have hk := directory_of_answered libc h
    rw [directory_of_answered libc h'] at hk
    exact (Option.some.inj hk).symm
  · intro hf p p' k k' hp h h' hk
    have h₀ : Distinct (directory s₀.store) := by
      intro p q k hd
      simp [hempty,directory,lookup] at hd
    have hd : Distinct (directory s.store) :=
      hf.invariant (I := fun s => Distinct (directory s.store)) (serve_directory_distinct libc) h₀
    subst k'
    exact hp (hd p p' k (directory_of_answered libc h) (directory_of_answered libc h'))

/-- Two pairs of endpoints, one of them asked for twice. -/
theorem store_invariant_twoPairs :
    let s₀ := Server.start 32768 (49/100) (1 : UInt32)
    let run := [(askStream ⟨[65],by decide⟩ ⟨[66],by decide⟩ 3,yields 1),
      (askStream ⟨[66],by decide⟩ ⟨[65],by decide⟩ 2,yields 2),
      (askStream ⟨[65],by decide⟩ ⟨[66],by decide⟩ 5,yields 3)]
    (server ansiPrng).Along FreshUuid s₀ run ∧
    (((server ansiPrng).after s₀ run).store.map KsidInfo.keyStreamId).Nodup ∧
    ((server ansiPrng).after s₀ run).store.map KsidInfo.keyStreamId = [Uuid.fill 1,Uuid.fill 2] := by
  intro s₀ run
  have hfresh : (server ansiPrng).Along FreshUuid s₀ run :=
    ⟨fun _ => ⟨by decide +kernel,by decide +kernel⟩,fun _ => ⟨by decide +kernel,by decide +kernel⟩,
      fun _ => ⟨by decide +kernel,by decide +kernel⟩,trivial⟩
  have h := (store_invariant ansiPrng 32768 (49/100) 1 run).2.1 hfresh
  exact ⟨hfresh,h.1,by decide +kernel⟩

end EtsiQkd004
