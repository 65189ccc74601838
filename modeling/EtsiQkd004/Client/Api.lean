import EtsiQkd004.Client.Program

/-! The client API, which names key streams by the text of their identifiers. -/
namespace EtsiQkd004
open Registry

/-- The text of the nil identifier. -/
def nilText : CString := ⟨ascii "00000000-0000-0000-0000-000000000000",by decide⟩

/-- What is used of the identifier library. A text is parsed as the identifier that it was printed
for; which case its digits are printed in is left open. -/
structure LibUuid where
  parse : CString → Option Uuid
  unparse : Uuid → CString
  parse_unparse : ∀ u, parse (unparse u) = some u
  parse_nil : parse nilText = some Uuid.nil

section Hex

/-- A lower-case hexadecimal digit. -/
def hexDigit (n : ℕ) : UInt8 := UInt8.ofNat (if n < 10 then 48 + n else 87 + n)

/-- The value of a hexadecimal digit of either case. -/
def hexValue (c : UInt8) : Option ℕ :=
  if 48 ≤ c.toNat ∧ c.toNat ≤ 57 then some (c.toNat - 48)
  else if 97 ≤ c.toNat ∧ c.toNat ≤ 102 then some (c.toNat - 87)
  else if 65 ≤ c.toNat ∧ c.toNat ≤ 70 then some (c.toNat - 55)
  else none

def hexByte (b : UInt8) : Bytes := [hexDigit (b.toNat/16),hexDigit (b.toNat%16)]

/-- The bytes of a text of hexadecimal digits. -/
def readHex : Bytes → Option Bytes
  | [] => some []
  | [_] => none
  | c::c'::text => do
    let high ← hexValue c
    let low ← hexValue c'
    let bytes ← readHex text
    pure (UInt8.ofNat (16*high + low)::bytes)

lemma readHex_flatMap (bytes : Bytes) : readHex (bytes.flatMap hexByte) = some bytes := by
  have hdigit : ∀ n < 16, hexValue (hexDigit n) = some n := by decide
  induction bytes with
  | nil => rfl
  | cons b bytes ih =>
    have hlt := b.toNat_lt
    have hb : UInt8.ofNat (16*(b.toNat/16) + b.toNat%16) = b := by
      rw [Nat.div_add_mod,UInt8.ofNat_toNat]
    have hhigh := hdigit (b.toNat/16) (by omega)
    have hlow := hdigit (b.toNat%16) (by omega)
    have hcons : readHex ((b::bytes).flatMap hexByte) = (hexValue (hexDigit (b.toNat/16))).bind
        fun high => (hexValue (hexDigit (b.toNat%16))).bind fun low =>
          (readHex (bytes.flatMap hexByte)).bind fun rest =>
            some (UInt8.ofNat (16*high + low)::rest) := rfl
    rw [hcons,hhigh,hlow,ih,Option.bind_some,Option.bind_some,Option.bind_some,hb]

/-- The places of the hyphens. -/
def hyphens : List ℕ := [8,13,18,23]

/-- The text of an identifier. -/
def uuidText (bytes : Bytes) : Bytes :=
  let part (i n : ℕ) := ((bytes.drop i).take n).flatMap hexByte
  part 0 4 ++ [45] ++ part 4 2 ++ [45] ++ part 6 2 ++ [45] ++ part 8 2 ++ [45] ++ part 10 6

/-- The identifier that a text of 36 characters stands for. -/
def readUuid (text : Bytes) : Option Bytes :=
  if text.length=36 ∧ ∀ i ∈ hyphens, text[i]? = some 45 then
    readHex (text.take 8 ++ (text.drop 9).take 4 ++ (text.drop 14).take 4 ++
      (text.drop 19).take 4 ++ text.drop 24)
  else none

lemma readUuid_uuidText (u : Uuid) : readUuid (uuidText u.bytes) = some u.bytes := by
  obtain ⟨bytes,h⟩ := u
  match bytes,h with
  | [b₀,b₁,b₂,b₃,b₄,b₅,b₆,b₇,b₈,b₉,c₀,c₁,c₂,c₃,c₄,c₅],_ =>
    have htext : uuidText [b₀,b₁,b₂,b₃,b₄,b₅,b₆,b₇,b₈,b₉,c₀,c₁,c₂,c₃,c₄,c₅] =
        [b₀,b₁,b₂,b₃].flatMap hexByte ++ 45::([b₄,b₅].flatMap hexByte ++
          45::([b₆,b₇].flatMap hexByte ++ 45::([b₈,b₉].flatMap hexByte ++
            45::[c₀,c₁,c₂,c₃,c₄,c₅].flatMap hexByte))) := by
      simp [uuidText]
    have hdigits := readHex_flatMap [b₀,b₁,b₂,b₃,b₄,b₅,b₆,b₇,b₈,b₉,c₀,c₁,c₂,c₃,c₄,c₅]
    rw [readUuid,if_pos]
    · simpa [htext,hexByte] using hdigits
    · simp [htext,hexByte,hyphens]

lemma uuidText_noNul (bytes : Bytes) : 0 ∉ uuidText bytes := by
  have hdigit : ∀ n < 16, hexDigit n ≠ 0 := by decide
  have hbyte (b : UInt8) : 0 ∉ hexByte b := by
    have hlt := b.toNat_lt
    simp only [hexByte,List.mem_cons,List.not_mem_nil,or_false,not_or]
    exact ⟨(hdigit _ (by omega)).symm,(hdigit _ (by omega)).symm⟩
  have hpart (bytes : Bytes) : 0 ∉ bytes.flatMap hexByte := by
    intro h
    obtain ⟨b,-,hb⟩ := List.mem_flatMap.mp h
    exact hbyte b hb
  simp [uuidText,hpart]

/-- Identifiers as text with lower-case digits, read in either case. -/
def lowerCase : LibUuid where
  parse t := (readUuid t.chars).bind fun bytes =>
    if h : bytes.length=16 then some ⟨bytes,h⟩ else none
  unparse u := ⟨uuidText u.bytes,uuidText_noNul u.bytes⟩
  parse_unparse u := by
    rw [readUuid_uuidText,Option.bind_some,dif_pos u.length_eq]
  parse_nil := by decide

end Hex

namespace Api
variable {φ : Type} (uuid : LibUuid)

/-- The request for a stream. -/
def openRequest (myUuid peerUuid : CString) (keyLength : Int32) (keyStreamId : Uuid) :
    OpenConnectRequest where
  source := myUuid
  destination := peerUuid
  qos := qosFor keyLength.toUInt32
  keyStreamId := keyStreamId

/-- The part of `openConnect` behind the default of its identifier. The result of `malloc` is
written to without a check. -/
def connect (malloc : Bool) (myUuid peerUuid ksid : CString) (keyLength : Int32) :
    Client φ (Option CString) :=
  match uuid.parse ksid with
  | none => pure none
  | some keyStreamId => do
    let ocResponse ← Client.openConnectStruct
      (openRequest myUuid peerUuid keyLength keyStreamId)
    if malloc then pure (some (uuid.unparse ocResponse.keyStreamId)) else failure

/-- The text of the identifier, or NULL. The flags say whether the allocations succeed. -/
def openConnect (strdup malloc : Bool) (myUuid peerUuid : CString) (ksid : Option CString)
    (keyLength : Int32) : Client φ (Option CString) :=
  match ksid with
  | none => if strdup then connect uuid malloc myUuid peerUuid nilText keyLength else pure none
  | some ksid => connect uuid malloc myUuid peerUuid ksid keyLength

/-- A null pointer is read through. A text that is no identifier gives a zeroed response, and the
key type that is asked for is not looked at. -/
def getKey (_keyType : UInt8) (index : Int32) (ksid : Option CString) : Client φ GetKeyResponse :=
  match ksid with
  | none => failure
  | some ksid =>
    match uuid.parse ksid with
    | none => pure ⟨0,0,QkdBytes.empty,QkdBytes.empty⟩
    | some keyStreamId =>
      Client.getKeyStruct ⟨keyStreamId,index.toUInt32,keyInfo QkdKeyInfoType.symmetric.code 0x00⟩

/-- A text that is no identifier leaves the request zeroed. -/
def close (ksid : Option CString) : Client φ CloseResponse :=
  match ksid with
  | none => failure
  | some ksid => Client.closeStruct ⟨(uuid.parse ksid).getD Uuid.nil⟩

section Streams
variable {uuid} {σ : Type} {libc : Prng σ} {w : Server σ × (ℕ → Circumstances)}

/-- What a call with an identifier, or with none, comes down to. -/
lemma hold_openConnect [OpenSsl] {ksid : Option CString} {k : Uuid}
    (hk : uuid.parse (ksid.getD nilText) = some k) {myUuid peerUuid : CString} {keyLength : Int32}
    {files files' : φ} {p : OpenConnectResponse} {w' : Server σ × (ℕ → Circumstances)}
    (h : (handlers libc).hold (Client.openConnectStruct (openRequest myUuid peerUuid keyLength k)
      files) w = ((some p,files'),w')) :
    (handlers libc).hold (openConnect uuid true true myUuid peerUuid ksid keyLength files) w =
      ((some (some (uuid.unparse p.keyStreamId)),files'),w') := by
  have hksid : (openConnect uuid true true myUuid peerUuid ksid keyLength :
      Client φ (Option CString)) =
        connect uuid true myUuid peerUuid (ksid.getD nilText) keyLength := by
    cases ksid with
    | none => rfl
    | some t => rfl
  rw [hksid,connect,hk]
  exact Client.hold_bind h _

/-- What stays of a stream that was opened through the API, where all allocations succeed. Whatever
any clients do afterwards, adaptively and in any company, the pair of endpoints and the text, if it is
not that of the nil identifier, keep naming it, and its key under an index stays the same, for whatever
key type it is asked. All this as long as every call finds the loop listening, and its two frames fit
into one record. -/
theorem stream_lasts [OpenSsl] {myUuid peerUuid : CString} {keyLength : Int32} {files : φ}
    (hopen : (network libc).Throughout (CallReaches libc)
      (openConnect uuid true true myUuid peerUuid none keyLength files) (listening w)) :
    ∃ (t : CString) (keys : UInt32 → Bytes) (w₁ : Server σ × (ℕ → Circumstances)),
      (network libc).hold (openConnect uuid true true myUuid peerUuid none keyLength files)
        (listening w) = ((some (some t),files),listening w₁) ∧
      ∀ {α : Type} {program : Dialogue Request (Option Response) α},
        (network libc).Throughout (CallReaches libc) program (listening w₁) →
      ∃ a w₂, (network libc).hold program (listening w₁) = (a,listening w₂) ∧
        (∀ me peer ksid keyLength', ksid=none ∧ me=myUuid ∧ peer=peerUuid ∨
            ksid=some t ∧ uuid.parse t≠some Uuid.nil →
          (network libc).Throughout (CallReaches libc)
            (openConnect uuid true true me peer ksid keyLength' files) (listening w₂) →
          ∃ w₃, (network libc).hold (openConnect uuid true true me peer ksid keyLength' files)
            (listening w₂) = ((some (some t),files),listening w₃)) ∧
        ∀ keyType index, (network libc).Throughout (CallReaches libc)
            (getKey uuid keyType index (some t) files) (listening w₂) →
          (w₂.2 0).env.allocated=true →
          ∃ p w₃, (network libc).hold (getKey uuid keyType index (some t) files) (listening w₂) =
              ((some p,files),listening w₃) ∧
            p.status=QkdStatusCode.successful.code ∧ p.index=index.toUInt32 ∧
            p.keyBuffer.data = keys index.toUInt32 := by
  obtain ⟨k,s,-,hdir,hfirst⟩ := hold_first_open (Later.refl libc w.1)
    (r := openRequest myUuid peerUuid keyLength Uuid.nil) rfl files
  have hdir : directory s.store (myUuid,peerUuid) = some k := hdir
  have hparse := uuid.parse_unparse k
  refine ⟨uuid.unparse k,fun index => (pairKey libc s (myUuid,peerUuid) index).getD [],_,
    network_hold hopen (hold_openConnect uuid.parse_nil hfirst),?_⟩
  intro α program hprogram
  have hlater := (Later.refl libc s).hold (w := (s,fun n => w.2 (n+1))) program
  refine ⟨_,_,network_hold hprogram rfl,?_,?_⟩
  · intro me peer ksid keyLength' hksid hreach
    obtain ⟨k',hk',hsecond⟩ : ∃ k', uuid.parse (ksid.getD nilText) = some k' ∧
        (k'=Uuid.nil ∧ me=myUuid ∧ peer=peerUuid ∨ k'=k ∧ k≠Uuid.nil) := by
      rcases hksid with ⟨rfl,hme,hpeer⟩ | ⟨rfl,hne⟩
      · exact ⟨_,uuid.parse_nil,Or.inl ⟨rfl,hme,hpeer⟩⟩
      · refine ⟨_,hparse,Or.inr ⟨rfl,?_⟩⟩
        rintro rfl
        exact hne hparse
    obtain ⟨u,-,hhold⟩ := hold_second_open hlater hdir (r := openRequest me peer keyLength' k')
      hsecond files
    exact ⟨_,network_hold hreach (hold_openConnect hk' hhold)⟩
  · intro keyType index hreach halloc
    obtain ⟨key,hkey⟩ := exists_pairKey libc hdir index.toUInt32
    obtain ⟨p,u,-,hstatus,hindex,hdata,hhold⟩ := hold_pairKey hlater hdir hkey halloc
      (rfl : (keyInfo QkdKeyInfoType.symmetric.code 0x00).data = _) files
    have hget : getKey uuid keyType index (some (uuid.unparse k)) = Client.getKeyStruct (φ := φ)
        ⟨k,index.toUInt32,keyInfo QkdKeyInfoType.symmetric.code 0x00⟩ := by
      rw [getKey,hparse]
    rw [if_pos (Or.inl rfl)] at hdata
    rw [← hget] at hhold
    refine ⟨p,_,network_hold hreach hhold,hstatus,hindex,?_⟩
    simp only [hdata,hkey,Option.getD_some]

end Streams

section Scenario

/-- Short names and keys make for moderate requests. -/
lemma openConnect_only {myUuid peerUuid : CString} {keyLength : Int32}
    (hnames : myUuid.chars.length + peerUuid.chars.length ≤ 4096)
    (hlength : keyLength.toUInt32.toNat ≤ 8192) (strdup malloc : Bool) (ksid : Option CString) :
    Client.Only Request.Moderate
      (openConnect uuid strdup malloc myUuid peerUuid ksid keyLength : Client φ (Option CString)) := by
  have hconnect (ksid : CString) : Client.Only Request.Moderate
      (connect uuid malloc myUuid peerUuid ksid keyLength : Client φ (Option CString)) := by
    rw [connect]
    cases uuid.parse ksid with
    | none => exact Client.only_pure _ _
    | some k =>
      refine Client.Only.bind (Client.only_call ⟨of_decide_eq_true rfl,hnames,hlength⟩ _) fun _ => ?_
      cases malloc with
      | true => exact Client.only_pure _ _
      | false => exact fun _ => trivial
  cases ksid with
  | some ksid => exact hconnect ksid
  | none =>
    cases strdup with
    | true => exact hconnect nilText
    | false => exact Client.only_pure _ _

lemma getKey_only (keyType : UInt8) (index : Int32) (ksid : Option CString) :
    Client.Only Request.Moderate (getKey uuid keyType index ksid : Client φ GetKeyResponse) := by
  cases ksid with
  | none => exact fun _ => trivial
  | some ksid =>
    rw [getKey]
    cases uuid.parse ksid with
    | none => exact Client.only_pure _ _
    | some k => exact Client.only_call (of_decide_eq_true rfl : 2 ≤ 4096) _

lemma close_only (ksid : Option CString) :
    Client.Only Request.Moderate (close uuid ksid : Client φ CloseResponse) := by
  cases ksid with
  | none => exact fun _ => trivial
  | some ksid => exact Client.only_call trivial _

end Scenario

section Plain
open PlainSsl

/-- A stream is closed, and opened for other endpoints as well. Its text is given out again, and its
key can still be fetched, while other clients open streams and fetch keys before each call. -/
theorem stream_lasts_busy :
    let start : Server UInt32 × (ℕ → Circumstances) :=
      (Server.start 32768 (49/100) 1,fun _ => busy)
    let further (t : CString) : Client Unit (Option CString) := do
      let _ ← close lowerCase (some t)
      openConnect lowerCase true true nodeB nodeA (some t) 5
    ∃ t w₁ w₂ w₃ p w₄,
      (network ansiPrng).hold (openConnect lowerCase true true nodeA nodeB none 3 ())
        (listening start) = ((some (some t),()),w₁) ∧
      ((network ansiPrng).hold (further t ()) w₁).2 = w₂ ∧
      (network ansiPrng).hold (openConnect lowerCase true true nodeA nodeB none 7 ()) w₂ =
        ((some (some t),()),w₃) ∧
      (network ansiPrng).hold (getKey lowerCase 1 7 (some t) ()) w₂ = ((some p,()),w₄) ∧
      p.status=QkdStatusCode.successful.code := by
  intro start further
  have hworld : ModerateWorld (listening start) := ⟨⟨_,rfl,moderate_start⟩,fun _ => busy_moderate⟩
  have hopen : (network ansiPrng).Throughout (CallReaches ansiPrng)
      (openConnect lowerCase true true nodeA nodeB none 3 ()) (listening start) :=
    moderate_reaches (openConnect_only _ (by decide) (by decide) _ _ _ ()) hworld
  obtain ⟨t,keys,w₁,hw₁,hlasts⟩ := stream_lasts hopen
  have hworld₁ := moderate_hold (openConnect_only _ (by decide) (by decide) _ _ _ ()) hworld hw₁
  have honly : Client.Only Request.Moderate (further t) :=
    (close_only _ _).bind fun _ => openConnect_only _ (by decide) (by decide) _ _ _
  obtain ⟨a,w₂,hw₂,hagain,hkeys⟩ := hlasts (moderate_reaches (honly ()) hworld₁)
  have hworld₂ := moderate_hold (honly ()) hworld₁ hw₂
  have halloc : (w₂.2 0).env.allocated=true := by
    obtain ⟨k,hk⟩ := circumstances_of_hold hw₂
    obtain ⟨k',hk'⟩ := circumstances_of_hold hw₁
    have hbusy : w₂.2 0 = busy := (hk 0).trans (hk' _)
    rw [hbusy]
    rfl
  obtain ⟨w₃,hw₃⟩ := hagain nodeA nodeB none 7 (Or.inl ⟨rfl,rfl,rfl⟩)
    (moderate_reaches (openConnect_only _ (by decide) (by decide) _ _ _ ()) hworld₂)
  obtain ⟨p,w₄,hp,hstatus,-⟩ := hkeys 1 7 (moderate_reaches (getKey_only _ _ _ _ ()) hworld₂) halloc
  exact ⟨t,_,_,_,p,_,hw₁,congrArg Prod.snd hw₂,hw₃,hp,hstatus⟩

end Plain
end Api
end EtsiQkd004
