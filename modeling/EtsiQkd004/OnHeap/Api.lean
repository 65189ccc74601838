import EtsiQkd004.OnHeap.Client
import EtsiQkd004.Client.Api

/-! The client API over the heap. It frees the text that it is given where this is no identifier,
so what a program may still use of its texts depends on what they say. -/
namespace EtsiQkd004.OnHeap.Api
open Heaps

/-- The process at the other end, and the circumstances of the calls to come. -/
abbrev World (σ : Type) := EtsiQkd004.Process σ × (ℕ → Circumstances)

section Calls
variable {σ : Type} (uuid : LibUuid) (libc : Prng σ) (A : Allocator)

/-- A call of the client library. -/
def overNetwork [OpenSsl] {δ : Type}
    (call : Env → CallMemory → EtsiQkd004.Process σ → HeapM Block (δ × EtsiQkd004.Process σ))
    (w : World σ) : HeapM Block (δ × World σ) := do
  let y ← call (w.2 0).env (w.2 0).memory
    ((EtsiQkd004.socketServerInit libc).after w.1 (w.2 0).others)
  pure (y.1,(y.2,fun n => w.2 (n+1)))

/-- The part of `openConnect` behind the default of its identifier. The literal that names the
mimetype is at `json`. -/
def connect [OpenSsl] (json myUuid peerUuid ksid : ℕ) (keyLength : Int32) (w : World σ) :
    HeapM Block (ℕ × World σ) := do
  let str ← loadStr ksid
  match uuid.parse str with
  | none => do
    free ksid
    pure (0,w)
  | some keyStreamId => do
    let request : OpenConnectRequestCell :=
      ⟨myUuid,peerUuid,qosCell (qosFor keyLength.toUInt32) json,keyStreamId⟩
    let y ← overNetwork libc (fun env memory =>
      Client.qkdOpenConnectStruct libc A env memory request) w
    let resultKeyStreamId ← malloc A (.bytes (qkdStrToStream (uuid.unparse y.1.keyStreamId)))
    pure (resultKeyStreamId,y.2)

/-- The copy that stands in for a missing identifier is not freed. -/
def openConnect [OpenSsl] (json myUuid peerUuid ksid : ℕ) (keyLength : Int32) (w : World σ) :
    HeapM Block (ℕ × World σ) :=
  if ksid=0 then do
    let ksid ← malloc A (.bytes (qkdStrToStream nilText))
    connect uuid libc A json myUuid peerUuid ksid keyLength w
  else connect uuid libc A json myUuid peerUuid ksid keyLength w

/-- The variable `key_info` has a block of its own until the function returns. -/
def getKey [OpenSsl] (_keyType : UInt8) (index : Int32) (ksid : ℕ) (w : World σ) :
    HeapM Block (GetKeyResponseCell × World σ) := do
  let keyInfoPtr ← malloc A (.bytes (keyInfo QkdKeyInfoType.symmetric.code 0x00).data)
  let str ← loadStr ksid
  match uuid.parse str with
  | none => do
    free keyInfoPtr
    pure (⟨0,0,.zero,.zero⟩,w)
  | some keyStreamId => do
    let request : GetKeyRequestCell := ⟨keyStreamId,index.toUInt32,⟨2,keyInfoPtr⟩⟩
    let y ← overNetwork libc (fun env memory => Client.qkdGetKeyStruct libc A env memory request) w
    free keyInfoPtr
    pure y

def close [OpenSsl] (ksid : ℕ) (w : World σ) : HeapM Block (CloseResponse × World σ) := do
  let str ← loadStr ksid
  overNetwork libc (fun env memory =>
    Client.qkdCloseStruct libc A env memory ⟨(uuid.parse str).getD Uuid.nil⟩) w

end Calls

section Network
variable {σ : Type} {libc : Prng σ} {A : Allocator}

/-- The result of a program over the network, and the world it leaves. -/
def outcome [OpenSsl] (libc : Prng σ) {α : Type} (program : EtsiQkd004.Client Unit α) (w : World σ) :
    Option α × World σ :=
  let y := (network libc).hold (program ()) w
  (y.1.1,y.2)

lemma outcome_map [OpenSsl] {α β : Type} (program : EtsiQkd004.Client Unit α) (g : α → β) (w : World σ) :
    outcome libc (do
      let a ← program
      pure (g a)) w = ((outcome libc program w).1.map g,(outcome libc program w).2) := by
  rw [outcome,Client.hold_map]
  rfl

/-- What a call of the client library does over the values, it does over the network. -/
lemma overNetwork_follows [OpenSsl] {γ δ : Type} {pre : Blocks Block} {post : γ → δ → Blocks Block → Prop}
    {call : Env → CallMemory → EtsiQkd004.Process σ → HeapM Block (δ × EtsiQkd004.Process σ)}
    {value : Env → CallMemory → OptionT (StateM (EtsiQkd004.Process σ)) γ}
    (h : ∀ env memory p, Client.Follows (call env memory p) pre (value env memory p) post)
    {q : Request} {wrap : γ → Response} {kind : Response → Option γ}
    (hwrap : ∀ c, kind (wrap c) = some c)
    (hserve : ∀ env memory p, exchangeServe libc (q,env,memory) p =
      ((value env memory p).1.map wrap,(value env memory p).2)) (w : World σ) :
    Client.Follows (overNetwork libc call w) pre (outcome libc (EtsiQkd004.Client.call q kind) w)
      post := by
  have hcall := h (w.2 0).env (w.2 0).memory
    ((EtsiQkd004.socketServerInit libc).after w.1 (w.2 0).others)
  have hvalue : outcome libc (EtsiQkd004.Client.call q kind) w =
      let x := exchangeServe libc (q,(w.2 0).env,(w.2 0).memory)
        ((EtsiQkd004.socketServerInit libc).after w.1 (w.2 0).others)
      (x.1.bind kind,(x.2,fun n => w.2 (n+1))) := rfl
  rw [hvalue,hserve]
  generalize value (w.2 0).env (w.2 0).memory
    ((EtsiQkd004.socketServerInit libc).after w.1 (w.2 0).others) = x at hcall
  obtain ⟨o,p⟩ := x
  cases o with
  | none => exact Exits.bind hcall
  | some c =>
    simp only [Option.map_some,Option.bind_some,hwrap]
    apply Spec.bind hcall
    rintro ⟨y,_⟩ own ⟨rfl,hy⟩
    exact Spec.pure ⟨rfl,hy⟩

end Network

section Texts
variable {σ : Type} (uuid : LibUuid) (libc : Prng σ) (A : Allocator) (w : World σ) {pre : Blocks Block}
  {json pk : ℕ} {str : CString}

/-- The name of the mimetype. -/
def literal (json : ℕ) : ℕ × Block := text json (qosFor 0).metadataMimetype

/-- Texts that are no identifiers get no call. -/
def callsFor (str : CString) : ℕ := if (uuid.parse str).isSome then 1 else 0

/-- What `openConnect` leaves: the text of the identifier and `n` blocks that are lost, or just the
blocks `freed`. -/
def Opened (pre freed : Blocks Block) (n : ℕ) : Option CString → ℕ → Blocks Block → Prop
  | none,p,own => p=0 ∧ own=freed ∧ n=0
  | some str,p,own => ∃ lost, own = text p str ::ₘ (pre + lost) ∧ lost.card=n

section Open
variable {myUuid peerUuid : CString} {pme ppeer : ℕ} (hme : text pme myUuid ∈ pre)
  (hpeer : text ppeer peerUuid ∈ pre) (hjson : literal json ∈ pre)
  (keyLength : Int32)
include hme hpeer hjson

lemma connect_follows [OpenSsl] {rest : Blocks Block} (hpre : pre = text pk str ::ₘ rest) :
    Client.Follows (connect uuid libc A json pme ppeer pk keyLength w) pre
      (outcome libc (EtsiQkd004.Api.connect uuid true myUuid peerUuid str keyLength) w)
      (Opened pre rest (3*callsFor uuid str)) := by
  have hmem : text pk str ∈ pre := hpre ▸ Multiset.mem_cons_self _ _
  apply Client.Follows.reads (reads_str hmem)
  rw [EtsiQkd004.Api.connect,callsFor]
  cases uuid.parse str with
  | none =>
    apply (Spec.free hpre).andThen
    intro _
    exact Spec.pure ⟨rfl,rfl,rfl,rfl⟩
  | some keyStreamId =>
    simp only [if_true]
    rw [outcome_map]
    have hpasses : Client.Passes pre
        (.openConnect (EtsiQkd004.Api.openRequest myUuid peerUuid keyLength keyStreamId))
        (.openConnect ⟨pme,ppeer,qosCell (qosFor keyLength.toUInt32) json,keyStreamId⟩) :=
      ⟨pme,ppeer,json,rfl,hme,hpeer,hjson⟩
    have hcall := overNetwork_follows (q := .openConnect
        (EtsiQkd004.Api.openRequest myUuid peerUuid keyLength keyStreamId))
      (fun env memory => Client.openConnectStruct_follows libc A env memory hpasses)
      (fun _ => rfl : ∀ c, Response.openConnect? (.openConnect c) = some c)
      (fun env memory p => exchange_map _ _ p) w
    refine Client.Follows.value (hcall.andThen ?_)
    rintro c _ _ ⟨_,lost,⟨pm,rfl,rfl⟩,rfl,hlost⟩
    apply (Spec.malloc A _).andThen
    intro p
    refine Spec.pure ⟨rfl,{text pm c.qos.metadataMimetype} + lost,?_,?_⟩
    · rw [add_assoc]
      rfl
    · rw [Multiset.card_add,hlost]
      rfl

lemma openConnect_follows [OpenSsl] {rest : Blocks Block} (hpre : pre = text pk str ::ₘ rest) :
    Client.Follows (openConnect uuid libc A json pme ppeer pk keyLength w) pre
      (outcome libc (EtsiQkd004.Api.openConnect uuid true true myUuid peerUuid (some str) keyLength) w)
      (Opened pre rest (3*callsFor uuid str)) := by
  refine Client.Follows.ne_null (hpre ▸ Multiset.mem_cons_self _ _) fun hpk => ?_
  rw [openConnect,if_neg hpk]
  exact connect_follows uuid libc A w hme hpeer hjson keyLength hpre

lemma openConnect_null_follows [OpenSsl] :
    Client.Follows (openConnect uuid libc A json pme ppeer 0 keyLength w) pre
      (outcome libc (EtsiQkd004.Api.openConnect uuid true true myUuid peerUuid none keyLength) w)
      (Opened pre pre 4) := by
  apply Client.Follows.after (Spec.malloc A _)
  rintro copy _ rfl
  refine Client.Follows.imp (connect_follows uuid libc A w (Multiset.mem_cons_of_mem hme)
    (Multiset.mem_cons_of_mem hpeer) (Multiset.mem_cons_of_mem hjson) keyLength rfl) ?_
  have hcalls : 3*callsFor uuid nilText = 3 := by
    rw [callsFor,uuid.parse_nil]
    rfl
  rw [hcalls]
  intro result p own hown
  cases result with
  | none => cases hown.2.2
  | some result =>
    obtain ⟨lost,rfl,hlost⟩ := hown
    refine ⟨text copy nilText ::ₘ lost,?_,by rw [Multiset.card_cons,hlost]⟩
    rw [Multiset.add_cons,Multiset.cons_add]
    rfl

end Open

/-- A response in memory. The one for a text that is no identifier has no buffers. -/
def Fetched (p : GetKeyResponse) (cell : GetKeyResponseCell) (own : Blocks Block) : Prop :=
  cell.status=p.status ∧ cell.index=p.index ∧ ∃ key metadata, Holds cell.keyBuffer p.keyBuffer key ∧
    Holds cell.metadata p.metadata metadata ∧ own = key + metadata

lemma getKey_follows [OpenSsl] (hmem : text pk str ∈ pre) (keyType : UInt8) (index : Int32) :
    Client.Follows (getKey uuid libc A keyType index pk w) pre
      (outcome libc (EtsiQkd004.Api.getKey uuid keyType index (some str)) w)
      fun p cell own => ∃ kept lost, Fetched p cell kept ∧ own = pre + kept + lost ∧
        lost.card = callsFor uuid str := by
  apply Client.Follows.after (Spec.malloc A _)
  rintro pinfo _ rfl
  apply Client.Follows.reads (reads_str (Multiset.mem_cons_of_mem hmem))
  rw [EtsiQkd004.Api.getKey,callsFor]
  cases uuid.parse str with
  | none =>
    apply (Spec.free rfl).andThen
    intro _
    refine Spec.pure ⟨rfl,0,0,⟨rfl,rfl,0,0,?_,?_,rfl⟩,by rw [add_zero,add_zero],rfl⟩
    · exact ⟨rfl,Or.inl ⟨rfl,rfl,rfl⟩⟩
    · exact ⟨rfl,Or.inl ⟨rfl,rfl,rfl⟩⟩
  | some keyStreamId =>
    let request : GetKeyRequest :=
      ⟨keyStreamId,index.toUInt32,keyInfo QkdKeyInfoType.symmetric.code 0x00⟩
    let info := (pinfo,Block.bytes request.metadata.data)
    have hpasses : Client.Passes (info ::ₘ pre) (.getKey request)
        (.getKey ⟨keyStreamId,index.toUInt32,⟨2,pinfo⟩⟩) := ⟨pinfo,rfl,Multiset.mem_cons_self _ _⟩
    have hcall := overNetwork_follows (q := .getKey request)
      (fun env memory => Client.getKeyStruct_follows libc A env memory hpasses)
      (fun _ => rfl : ∀ c, Response.getKey? (.getKey c) = some c)
      (fun env memory p => exchange_map _ _ p) w
    refine hcall.andThen ?_
    rintro c _ _ ⟨_,lost,⟨pkey,pmeta,rfl,rfl⟩,rfl,hlost⟩
    have hfree (kept : Blocks Block) : info ::ₘ pre + kept + lost = info ::ₘ (pre + kept + lost) := by
      rw [Multiset.cons_add,Multiset.cons_add]
    apply (Spec.free (hfree _)).andThen
    intro _
    exact Spec.pure ⟨rfl,_,lost,⟨rfl,rfl,_,_,holds_data _ _,holds_data _ _,rfl⟩,rfl,hlost⟩

end Texts

section Slots

/-- A variable of a program: no text, a text of its own, or one that is not its own any more. -/
inductive Slot
  | null
  | text (str : CString)
  | freed

/-- A variable in memory, with the block of its text. -/
def Held : Slot → ℕ → Blocks Block → Prop
  | .null,p,own => p=0 ∧ own=0
  | .text str,p,own => own={text p str}
  | .freed,_,own => own=0

/-- The text of a variable, if it may be read. -/
def textAt (slots : List Slot) (i : ℕ) : Option CString :=
  match slots[i]? with
  | some (.text str) => some str
  | some .null | some .freed | none => none

/-- What a variable points to, if it may be used. -/
def pointerAt (slots : List Slot) (i : ℕ) : Option (Option CString) :=
  match slots[i]? with
  | some (.text str) => some (some str)
  | some .null => some none
  | some .freed | none => none

variable {slots : List Slot} {ps : List ℕ} {own : Blocks Block} {i : ℕ} {str : CString}

lemma getElem?_of_textAt (h : textAt slots i = some str) : slots[i]? = some (.text str) := by
  rw [textAt] at h
  split at h
  · cases h
    assumption
  · cases h
  · cases h
  · cases h

lemma getElem?_of_pointerAt {o : Option CString} (h : pointerAt slots i = some o) :
    slots[i]? = some (o.elim .null .text) := by
  rw [pointerAt] at h
  split at h
  · cases h
    assumption
  · cases h
    assumption
  · cases h
  · cases h

lemma held_freed (p : ℕ) : Held .freed p 0 := rfl

lemma mem_of_textAt (h : Each Held slots ps own) (hi : textAt slots i = some str) :
    ∃ p, ps[i]? = some p ∧ text p str ∈ own := by
  obtain ⟨p,_,rest,hp,rfl,-,rfl⟩ := h.take (getElem?_of_textAt hi) held_freed
  exact ⟨p,hp,Multiset.mem_add.mpr (Or.inl (Multiset.mem_singleton_self _))⟩

end Slots

section Programs
variable {σ : Type} (uuid : LibUuid) (libc : Prng σ) (A : Allocator)

/-- A call of the API, with the variables it is passed. -/
inductive Op
  | openConnect (myUuid peerUuid ksid : ℕ) (keyLength : Int32)
  | getKey (keyType : UInt8) (index : Int32) (ksid : ℕ)
  | close (ksid : ℕ)

inductive Answer
  | opened
  | key (response : GetKeyResponse)
  | closed (response : CloseResponse)

inductive AnswerCell
  | opened
  | key (response : GetKeyResponseCell)
  | closed (response : CloseResponse)

/-- What comes of the variables: the result of `openConnect` is put into a new one, and a text that
was turned down is the program's no more. -/
def opened (slots : List Slot) (ksid : ℕ) : Option CString → List Slot
  | none => slots.set ksid .freed ++ [.null]
  | some str => slots ++ [.text str]

/-- What a call is for. Nothing is said of a program that uses a text it has lost. -/
def Op.step [OpenSsl] (slots : List Slot) (w : World σ) : Op → Option (Answer × List Slot × World σ)
  | .openConnect myUuid peerUuid ksid keyLength => do
    let me ← textAt slots myUuid
    let peer ← textAt slots peerUuid
    let str ← pointerAt slots ksid
    let y := outcome libc (EtsiQkd004.Api.openConnect uuid true true me peer str keyLength) w
    let result ← y.1
    pure (.opened,opened slots ksid result,y.2)
  | .getKey keyType index ksid => do
    let str ← textAt slots ksid
    let y := outcome libc (EtsiQkd004.Api.getKey uuid keyType index (some str)) w
    let response ← y.1
    pure (.key response,slots,y.2)
  | .close ksid => do
    let str ← textAt slots ksid
    let y := outcome libc (EtsiQkd004.Api.close uuid (some str)) w
    let response ← y.1
    pure (.closed response,slots,y.2)

/-- How many blocks a call leaves that nobody can free. -/
def Op.leaves (slots : List Slot) : Op → ℕ
  | .openConnect _ _ ksid _ =>
    match pointerAt slots ksid with
    | some (some str) => 3*callsFor uuid str
    | some none => 4
    | none => 0
  | .getKey _ _ ksid => ((textAt slots ksid).map (callsFor uuid)).getD 0
  | .close _ => 1

/-- The same call over the heap. -/
def Op.run [OpenSsl] (json : ℕ) (ps : List ℕ) (w : World σ) : Op → HeapM Block (AnswerCell × List ℕ × World σ)
  | .openConnect myUuid peerUuid ksid keyLength =>
    match ps[myUuid]?,ps[peerUuid]?,ps[ksid]? with
    | some myUuid,some peerUuid,some ksid => do
      let y ← Api.openConnect uuid libc A json myUuid peerUuid ksid keyLength w
      pure (.opened,ps ++ [y.1],y.2)
    | _,_,_ => fault
  | .getKey keyType index ksid =>
    match ps[ksid]? with
    | some ksid => do
      let y ← Api.getKey uuid libc A keyType index ksid w
      pure (.key y.1,ps,y.2)
    | none => fault
  | .close ksid =>
    match ps[ksid]? with
    | some ksid => do
      let y ← Api.close uuid libc A ksid w
      pure (.closed y.1,ps,y.2)
    | none => fault

/-- An answer in memory, with the blocks it brings. -/
def Gives : Answer → AnswerCell → Blocks Block → Prop
  | .opened,.opened,own => own=0
  | .key p,.key cell,own => Fetched p cell own
  | .closed p,.closed cell,own => cell=p ∧ own=0
  | _,_,_ => False

/-- What is in memory behind a call: the literal, the variables, the answer, and blocks that are
lost. -/
def Behind (json : ℕ) (answer : Answer) (slots : List Slot) (w : World σ) (n : ℕ)
    (y : AnswerCell × List ℕ × World σ) (own : Blocks Block) : Prop :=
  ∃ held kept lost, y.2.2=w ∧ Each Held slots y.2.1 held ∧ Gives answer y.1 kept ∧
    own = literal json ::ₘ (held + kept + lost) ∧ lost.card=n

section Step
variable {slots slots' : List Slot} {ps : List ℕ} {held : Blocks Block} {json : ℕ} {w w' : World σ}
  {answer : Answer} (hheld : Each Held slots ps held)
include hheld

lemma spec_openConnect [OpenSsl] {myUuid peerUuid ksid : ℕ} {keyLength : Int32}
    (h : (Op.openConnect myUuid peerUuid ksid keyLength).step uuid libc slots w =
      some (answer,slots',w')) :
    Spec ((Op.openConnect myUuid peerUuid ksid keyLength).run uuid libc A json ps w)
      (literal json ::ₘ held)
      (Behind json answer slots' w' ((Op.openConnect myUuid peerUuid ksid keyLength).leaves uuid slots)) := by
  obtain ⟨me,hme,h⟩ := Option.bind_eq_some_iff.mp h
  obtain ⟨peer,hpeer,h⟩ := Option.bind_eq_some_iff.mp h
  obtain ⟨o,ho,h⟩ := Option.bind_eq_some_iff.mp h
  obtain ⟨result,hresult,h⟩ := Option.bind_eq_some_iff.mp h
  cases h
  obtain ⟨pme,hpme,hme⟩ := mem_of_textAt hheld hme
  obtain ⟨ppeer,hppeer,hpeer⟩ := mem_of_textAt hheld hpeer
  obtain ⟨pk,here,rest,hpk,hhere,hrest,rfl⟩ := hheld.take (getElem?_of_pointerAt ho) held_freed
  have hme := Multiset.mem_cons_of_mem (b := literal json) hme
  have hpeer := Multiset.mem_cons_of_mem (b := literal json) hpeer
  have hjson := Multiset.mem_cons_self (literal json) (here + rest)
  simp only [Op.run,hpme,hppeer,hpk]
  have hopen : Client.Follows (openConnect uuid libc A json pme ppeer pk keyLength w)
      (literal json ::ₘ (here + rest))
      (outcome libc (EtsiQkd004.Api.openConnect uuid true true me peer o keyLength) w)
      (Opened (literal json ::ₘ (here + rest)) (literal json ::ₘ rest)
        ((Op.openConnect myUuid peerUuid ksid keyLength).leaves uuid slots)) := by
    cases o with
    | none =>
      obtain ⟨rfl,rfl⟩ : pk=0 ∧ here=0 := hhere
      simp only [Op.leaves,ho,zero_add] at hme hpeer hjson ⊢
      exact openConnect_null_follows uuid libc A w hme hpeer hjson keyLength
    | some str =>
      obtain rfl : here = {text pk str} := hhere
      simp only [Op.leaves,ho]
      apply openConnect_follows uuid libc A w hme hpeer hjson keyLength
      rw [Multiset.singleton_add]
      exact Multiset.cons_swap _ _ _
  apply (hopen.spec (Prod.ext hresult rfl)).bind
  rintro ⟨p,_⟩ own ⟨rfl,hopened⟩
  cases result with
  | none =>
    obtain ⟨rfl,rfl,hn⟩ := hopened
    refine Spec.pure ⟨rest,0,0,rfl,?_,rfl,?_,hn.symm⟩
    · have hnull : Held .null 0 0 := ⟨rfl,rfl⟩
      have hpush := hrest.push hnull
      rwa [add_zero] at hpush
    · rw [add_zero,add_zero]
  | some str =>
    obtain ⟨lost,rfl,hlost⟩ := hopened
    have hnew : Held (.text str) p {text p str} := rfl
    refine Spec.pure ⟨_,0,lost,rfl,hheld.push hnew,rfl,?_,hlost⟩
    simp only [← Multiset.singleton_add]
    abel

lemma spec_getKey [OpenSsl] {keyType : UInt8} {index : Int32} {ksid : ℕ}
    (h : (Op.getKey keyType index ksid).step uuid libc slots w = some (answer,slots',w')) :
    Spec ((Op.getKey keyType index ksid).run uuid libc A json ps w) (literal json ::ₘ held)
      (Behind json answer slots' w' ((Op.getKey keyType index ksid).leaves uuid slots)) := by
  obtain ⟨str,hstr,h⟩ := Option.bind_eq_some_iff.mp h
  obtain ⟨response,hresponse,h⟩ := Option.bind_eq_some_iff.mp h
  cases h
  obtain ⟨pk,hpk,hmem⟩ := mem_of_textAt hheld hstr
  simp only [Op.run,hpk,Op.leaves,hstr,Option.map_some,Option.getD_some]
  have hget := getKey_follows uuid libc A w (Multiset.mem_cons_of_mem (b := literal json) hmem)
    keyType index
  apply (hget.spec (Prod.ext hresponse rfl)).bind
  rintro ⟨cell,_⟩ _ ⟨rfl,kept,lost,hkept,rfl,hlost⟩
  refine Spec.pure ⟨held,kept,lost,rfl,hheld,hkept,?_,hlost⟩
  rw [Multiset.cons_add,Multiset.cons_add]

end Step

/-- What has come of a program. -/
structure Ran (σ : Type) where
  answers : List Answer
  slots : List Slot
  world : World σ
  lost : ℕ

/-- What a program of calls is for. -/
def program [OpenSsl] : List Op → List Slot → World σ → Option (Ran σ)
  | [],slots,w => some ⟨[],slots,w,0⟩
  | op::ops,slots,w => do
    let y ← op.step uuid libc slots w
    let ran ← program ops y.2.1 y.2.2
    pure ⟨y.1::ran.answers,ran.slots,ran.world,op.leaves uuid slots + ran.lost⟩

/-- A heap with the texts of two endpoints and one that is no identifier. -/
def endpoints : Heap Block where
  blocks := [literal 1,text 2 nodeA,text 3 nodeB,text 4 nodeA]
  allocated := 4
  nodup := by decide
  null := by decide

section Plain
open PlainSsl

end Plain

end Programs

end EtsiQkd004.OnHeap.Api
