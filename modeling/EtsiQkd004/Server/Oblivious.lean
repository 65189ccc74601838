import EtsiQkd004.Server.KeyAgreement

/-! The keys of an oblivious transfer: the sender of a stream holds pairs of bits, the receiver
for each pair a choice and the bit chosen. Both come from the symmetric key of the stream. -/
namespace EtsiQkd004
open Registry

/-- Bit `k` of a byte. -/
def bit (byte : UInt8) (k : ℕ) : Bool := byte.toNat.testBit k

/-- Which bit of the sender's pair `j` in byte `i` the receiver has. -/
def selected (i j : ℕ) : ℕ := if i%2=0 then 2*j else 2*j+1

section Masks

lemma bit_or (x y : UInt8) (k : ℕ) : bit (x ||| y) k = (bit x k || bit y k) := by
  rw [bit,UInt8.toNat_or,Nat.testBit_or]
  rfl

lemma bit_shift_and (x y : UInt8) (k : ℕ) :
    bit ((x >>> 1) &&& y) k = (bit x (k+1) && bit y k) := by
  rw [bit,UInt8.toNat_and,Nat.testBit_and,UInt8.toNat_shiftRight,Nat.testBit_shiftRight,
    Nat.add_comm]
  rfl

/-- The masks alternate between the two columns of bits. -/
lemma bit_masks {j : ℕ} (hj : j < 4) :
    bit 0xAA (2*j+1) = true ∧ bit 0xAA (2*j) = false ∧
      bit 0x55 (2*j+1) = false ∧ bit 0x55 (2*j) = true := by
  have h : ∀ j < 4, bit 0xAA (2*j+1) = true ∧ bit 0xAA (2*j) = false ∧
      bit 0x55 (2*j+1) = false ∧ bit 0x55 (2*j) = true := by decide
  exact h j hj

/-- The choice bit of a pair, and the bit of the sender's pair next to it. -/
lemma obliviousMask_bits (i : ℕ) (byte : UInt8) {j : ℕ} (hj : j < 4) :
    bit (obliviousMask i byte) (2*j+1) = decide (i%2=0) ∧
      bit (obliviousMask i byte) (2*j) = bit byte (selected i j) := by
  obtain ⟨hA,hA',h5,h5'⟩ := bit_masks hj
  by_cases hi : i%2=0
  · simp [obliviousMask,selected,hi,bit_or,hA,hA']
  · simp [obliviousMask,selected,hi,bit_shift_and,h5,h5']

/-- A byte is its four pairs of bits. -/
lemma byte_eq_of_pairs {x y : UInt8}
    (h : ∀ j < 4, bit x (2*j+1) = bit y (2*j+1) ∧ bit x (2*j) = bit y (2*j)) : x=y := by
  apply UInt8.toNat_inj.mp
  apply Nat.eq_of_testBit_eq
  intro k
  by_cases hk : k < 8
  · obtain ⟨hodd,heven⟩ := h (k/2) (by omega)
    rcases Nat.mod_two_eq_zero_or_one k with h2 | h2
    · have he : 2*(k/2) = k := by omega
      rwa [he] at heven
    · have he : 2*(k/2)+1 = k := by omega
      rwa [he] at hodd
  · have hlarge (z : UInt8) : z.toNat.testBit k = false := by
      apply Nat.testBit_lt_two_pow
      calc z.toNat < 2^8 := z.toNat_lt
        _ ≤ 2^k := Nat.pow_le_pow_right (by decide) (by omega)
    rw [hlarge x,hlarge y]

lemma obliviousMask_eq_iff (i : ℕ) (x y : UInt8) :
    obliviousMask i x = obliviousMask i y ↔ ∀ j < 4, bit x (selected i j) = bit y (selected i j) := by
  constructor
  · intro h j hj
    rw [← (obliviousMask_bits i x hj).2,h,(obliviousMask_bits i y hj).2]
  · intro h
    apply byte_eq_of_pairs
    intro j hj
    obtain ⟨hx,hx'⟩ := obliviousMask_bits i x hj
    obtain ⟨hy,hy'⟩ := obliviousMask_bits i y hj
    exact ⟨hx.trans hy.symm,hx'.trans ((h j hj).trans hy'.symm)⟩

/-- Both keys of a byte position have the same bits where the receiver sees them. -/
def SelectedAgree (S S' : Bytes) : Prop :=
  ∀ i x y, S[i]? = some x → S'[i]? = some y → ∀ j < 4, bit x (selected i j) = bit y (selected i j)

/-- The receiver's key hides all but the selected bits, and shows these. -/
lemma mapIdx_obliviousMask_eq_iff {S S' : Bytes} (hlen : S.length=S'.length) :
    S.mapIdx obliviousMask = S'.mapIdx obliviousMask ↔ SelectedAgree S S' := by
  constructor
  · intro h i x y hx hy
    have hi := congrArg (fun l : Bytes => l[i]?) h
    simp only [List.getElem?_mapIdx,hx,hy,Option.map_some,Option.some.injEq] at hi
    exact (obliviousMask_eq_iff i x y).mp hi
  · intro h
    apply List.ext_getElem?
    intro i
    rw [List.getElem?_mapIdx,List.getElem?_mapIdx]
    by_cases hi : i < S.length
    · have hi' : i < S'.length := hlen ▸ hi
      have hx := List.getElem?_eq_getElem hi
      have hy := List.getElem?_eq_getElem hi'
      rw [hx,hy,Option.map_some,Option.map_some,
        (obliviousMask_eq_iff i _ _).mpr (h i _ _ hx hy)]
    · rw [List.getElem?_eq_none (by omega),List.getElem?_eq_none (by omega)]

end Masks

variable {σ : Type} (libc : Prng σ)

/-- The sender's key is the key as drawn. -/
lemma keyFor_sender {e : KsidInfo} {r : GetKeyRequest} {env : Env} {prng : σ}
    (hrole : r.metadata.data[1]? = some 0x10) (halloc : env.allocated=true) :
    (keyFor libc e r env prng).data = drawnKey libc e r.index := by
  have h1 := metadataByte_of_getElem? hrole env.beyondMetadata
  rw [keyFor_data,if_pos halloc,if_pos (Or.inr h1)]

lemma keyFor_receiver {e : KsidInfo} {r : GetKeyRequest} {env : Env} {prng : σ} {role : UInt8}
    (htype : r.metadata.data[0]? = some QkdKeyInfoType.oblivious.code)
    (hrole : r.metadata.data[1]? = some role) (hother : role ≠ 0x10)
    (halloc : env.allocated=true) :
    (keyFor libc e r env prng).data = (drawnKey libc e r.index).mapIdx obliviousMask := by
  have h0 := metadataByte_of_getElem? htype env.beyondMetadata
  have h1 := metadataByte_of_getElem? hrole env.beyondMetadata
  rw [keyFor_data,if_pos halloc,if_neg]
  rw [h0,h1,not_or]
  exact ⟨by decide,hother⟩

/-- The keys that one run hands out to the sender (who need not ask for an oblivious key) and to
the receiver of one stream for one index: the sender's is the symmetric key; the receiver's has
as many bytes, its choice bits alternate from byte to byte and each stands next to the bit of the
sender's pair it chooses; and other keys of the sender would give the same receiver's key exactly
if they agreed on these bits. -/
theorem oblivious_correlation (keyRate : Int32) (qber : ℚ) (prng : σ) (run : List (Request × Env))
    {r₁ r₂ : GetKeyRequest} {env₁ env₂ : Env} {p₁ p₂ : GetKeyResponse} {role : UInt8}
    (h₁ : ((.getKey r₁,env₁),.getKey p₁) ∈
      (server libc).trace (Server.start keyRate qber prng) run)
    (h₂ : ((.getKey r₂,env₂),.getKey p₂) ∈
      (server libc).trace (Server.start keyRate qber prng) run)
    (hok₁ : p₁.status=QkdStatusCode.successful.code)
    (hok₂ : p₂.status=QkdStatusCode.successful.code)
    (hrole₁ : r₁.metadata.data[1]? = some 0x10)
    (htype₂ : r₂.metadata.data[0]? = some QkdKeyInfoType.oblivious.code)
    (hrole₂ : r₂.metadata.data[1]? = some role)
    (hother : role ≠ 0x10) (halloc₁ : env₁.allocated=true) (halloc₂ : env₂.allocated=true)
    (hksid : r₁.keyStreamId=r₂.keyStreamId) (hindex : r₁.index=r₂.index) :
    (∀ r env p, ((.getKey r,env),.getKey p) ∈
        (server libc).trace (Server.start keyRate qber prng) run →
      p.status=QkdStatusCode.successful.code →
      r.metadata.data[0]? = some QkdKeyInfoType.symmetric.code → env.allocated=true →
      r.keyStreamId=r₁.keyStreamId → r.index=r₁.index → p₁.keyBuffer=p.keyBuffer) ∧
    p₂.keyBuffer.data.length = p₁.keyBuffer.data.length ∧
    (∀ i x y, p₁.keyBuffer.data[i]? = some x → p₂.keyBuffer.data[i]? = some y → ∀ j < 4,
      (bit y (2*j+1) = true ↔ i%2=0) ∧
      bit y (2*j) = if bit y (2*j+1) then bit x (2*j) else bit x (2*j+1)) ∧
    p₂.keyBuffer.data = p₁.keyBuffer.data.mapIdx obliviousMask ∧
    ∀ S S' : Bytes, S.length=S'.length →
      (S.mapIdx obliviousMask = S'.mapIdx obliviousMask ↔ SelectedAgree S S') := by
  obtain ⟨e₁,_,hl₁,hk₁⟩ := stream_of_successful libc h₁ hok₁
  obtain ⟨e₂,_,hl₂,hk₂⟩ := stream_of_successful libc h₂ hok₂
  rw [keyFor_sender libc hrole₁ halloc₁] at hk₁
  rw [keyFor_receiver libc htype₂ hrole₂ hother halloc₂] at hk₂
  rw [← hksid,hl₁,Option.some.injEq] at hl₂
  subst hl₂
  rw [← hindex,← hk₁] at hk₂
  refine ⟨?_,?_,?_,hk₂,fun S S' => mapIdx_obliviousMask_eq_iff⟩
  · intro r env p h hok htype halloc hr hi
    obtain ⟨e,_,hl,hk⟩ := stream_of_successful libc h hok
    rw [hr,hl₁,Option.some.injEq] at hl
    subst hl
    apply QkdBytes.eq_of_data
    rw [hk₁,hk,keyFor_symmetric libc htype halloc,hi]
  · rw [hk₂,List.length_mapIdx]
  · intro i x y hx hy j hj
    rw [hk₂,List.getElem?_mapIdx,hx,Option.map_some,Option.some.injEq] at hy
    obtain ⟨hchoice,hvalue⟩ := obliviousMask_bits i x hj
    rw [hy] at hchoice hvalue
    rw [hchoice,hvalue,selected]
    by_cases hi : i%2=0
    · simp [hi]
    · simp [hi]

section Scenario

/-- A request for an oblivious key. -/
def askOblivious (k : Uuid) (index : UInt32) (role : UInt8) : GetKeyRequest :=
  ⟨k,index,⟨2,[QkdKeyInfoType.oblivious.code,role],rfl⟩⟩

/-- The receiver asks first, and the sender after a key of another index. -/
def transferRun : List (Request × Env) :=
  [(askStream nodeA nodeB 3,yields 1),
   (.getKey (askOblivious (Uuid.fill 1) 7 0x11),yields 2),
   (.getKey (askKey (Uuid.fill 1) 8),yields 3),
   (.getKey (askOblivious (Uuid.fill 1) 7 0x10),yields 4)]

theorem oblivious_correlation_transferRun :
    ∃ p₁ p₂ : GetKeyResponse,
      ((.getKey (askOblivious (Uuid.fill 1) 7 0x10),yields 4),.getKey p₁) ∈
        (server ansiPrng).trace (Server.start 32768 (49/100) 1) transferRun ∧
      ((.getKey (askOblivious (Uuid.fill 1) 7 0x11),yields 2),.getKey p₂) ∈
        (server ansiPrng).trace (Server.start 32768 (49/100) 1) transferRun ∧
      p₁.keyBuffer.data.length=3 ∧ p₂.keyBuffer.data = p₁.keyBuffer.data.mapIdx obliviousMask := by
  let s₀ : Server UInt32 := Server.start 32768 (49/100) 1
  let p₁ := ((qkdGetKeyStruct (serverCalls ansiPrng (yields 4))
    (askOblivious (Uuid.fill 1) 7 0x10)).run ((server ansiPrng).after s₀ (transferRun.take 3))).1
  let p₂ := ((qkdGetKeyStruct (serverCalls ansiPrng (yields 2))
    (askOblivious (Uuid.fill 1) 7 0x11)).run ((server ansiPrng).after s₀ (transferRun.take 1))).1
  have h₁ : ((.getKey (askOblivious (Uuid.fill 1) 7 0x10),yields 4),.getKey p₁) ∈
      (server ansiPrng).trace s₀ transferRun := List.mem_iff_getElem?.mpr ⟨3,rfl⟩
  have h₂ : ((.getKey (askOblivious (Uuid.fill 1) 7 0x11),yields 2),.getKey p₂) ∈
      (server ansiPrng).trace s₀ transferRun := List.mem_iff_getElem?.mpr ⟨1,rfl⟩
  have h := oblivious_correlation ansiPrng 32768 (49/100) 1 transferRun h₁ h₂ (by decide +kernel)
    (by decide +kernel) rfl rfl rfl (by decide) rfl rfl rfl rfl
  exact ⟨p₁,p₂,h₁,h₂,by decide +kernel,h.2.2.2.1⟩

end Scenario
end EtsiQkd004
