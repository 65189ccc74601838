import Mathlib.Data.List.Basic
import Mathlib.Tactic.Common

/-! Bounds-checked cursor decoders over finite words, and their exact correspondence
with encoders. A decoder fails precisely when it would read past the end of the word. -/
namespace WireCodec

/-- A cursor over a finite word: the decoded value and the unread rest, or no value when
the cursor would leave the word. -/
abbrev Decoder (β α : Type) := StateT (List β) Option α

variable {α β γ : Type}

@[simp] theorem run_bind_eq_some (d : Decoder β α) (f : α → Decoder β γ) (p : List β) (c : γ)
    (rest : List β) :
    (d >>= f).run p = some (c,rest) ↔
      ∃ a p', d.run p = some (a,p') ∧ (f a).run p' = some (c,rest) := by
  simp only [StateT.run_bind,Option.bind_eq_bind,Option.bind_eq_some_iff,Prod.exists]

@[simp] theorem run_pure_eq_some (a c : α) (p rest : List β) :
    (pure a : Decoder β α).run p = some (c,rest) ↔ a=c ∧ p=rest := by
  simp only [StateT.run_pure,Option.pure_def,Option.some.injEq,Prod.mk.injEq]

/-- Acceptance, decoded value and cursor position all at once: the decoder stops after `a`
with `rest` unread exactly on the words that start with the encoding of `a`. -/
def Exact (e : α → List β) (d : Decoder β α) : Prop :=
  ∀ p a rest, d.run p = some (a,rest) ↔ p = e a ++ rest

namespace Exact
variable {e : α → List β} {d : Decoder β α}

theorem decode_encode (h : Exact e d) (a : α) (rest : List β) :
    d.run (e a ++ rest) = some (a,rest) := (h _ _ _).mpr rfl

theorem encode_decode (h : Exact e d) {p rest : List β} {a : α}
    (hd : d.run p = some (a,rest)) : e a ++ rest = p := ((h _ _ _).mp hd).symm

theorem accepts_iff (h : Exact e d) (p : List β) :
    (∃ a rest, d.run p = some (a,rest)) ↔ ∃ a rest, p = e a ++ rest := by
  constructor
  · rintro ⟨a,rest,hd⟩
    exact ⟨a,rest,(h _ _ _).mp hd⟩
  · rintro ⟨a,rest,hp⟩
    exact ⟨a,rest,(h _ _ _).mpr hp⟩

/-- A successful decoding is blind to whatever follows the word. -/
theorem extend (h : Exact e d) {p rest : List β} {a : α} (hd : d.run p = some (a,rest))
    (t : List β) : d.run (p ++ t) = some (a,rest ++ t) := by
  rw [h] at hd ⊢
  rw [hd,List.append_assoc]

/-- Two encodings can only start the same word if they are the same. -/
theorem append_inj (h : Exact e d) {a b : α} {r r' : List β} (hab : e a ++ r = e b ++ r') :
    a=b ∧ r=r' := by
  have hd := h.decode_encode a r
  rw [hab,h.decode_encode] at hd
  simp only [Option.some.injEq,Prod.mk.injEq] at hd
  exact ⟨hd.1.symm,hd.2.symm⟩

end Exact

/-- One symbol. -/
def symbol : Decoder β β
  | [] => none
  | b::p => some (b,p)

@[simp] theorem symbol_eq_some (p rest : List β) (b : β) :
    (symbol : Decoder β β).run p = some (b,rest) ↔ p = b::rest := by
  cases p with
  | nil => simp [symbol,StateT.run]
  | cons c p => simp [symbol,StateT.run]

/-- A block of `n` symbols. -/
def block (n : ℕ) : Decoder β {xs : List β // xs.length=n} := fun p =>
  if h : n ≤ p.length then some (⟨p.take n,by simp [h]⟩,p.drop n) else none

theorem block_exact (n : ℕ) : Exact (fun xs => xs.val) (block n : Decoder β _) := by
  rintro p ⟨xs,hxs⟩ rest
  simp only [block,StateT.run]
  constructor
  · intro h
    split at h
    · simp only [Option.some.injEq,Prod.mk.injEq,Subtype.mk.injEq] at h
      rw [← h.1,← h.2,List.take_append_drop]
    · contradiction
  · rintro rfl
    simp [← hxs]

/-- The symbols before the first occurrence of the terminator `z`, which is consumed too. -/
def terminated [DecidableEq β] (z : β) : Decoder β {xs : List β // z ∉ xs}
  | [] => none
  | b::p =>
    if h : b=z then some (⟨[],by simp⟩,p)
    else (terminated z p).map fun x => (⟨b::x.1.val,by
      simp only [List.mem_cons,not_or]
      exact ⟨Ne.symm h,x.1.property⟩⟩,x.2)

theorem terminated_exact [DecidableEq β] (z : β) :
    Exact (fun xs => xs.val ++ [z]) (terminated z : Decoder β _) := by
  intro p
  induction p with
  | nil => rintro ⟨xs,hxs⟩ rest; simp [terminated,StateT.run]
  | cons b p ih =>
    rintro ⟨xs,hxs⟩ rest
    simp only [StateT.run] at ih ⊢
    by_cases hb : b=z
    · subst b
      cases xs with
      | nil => simp [terminated]
      | cons x xs =>
        have hx : z ≠ x := by intro hx; exact hxs (by simp [hx])
        simp [terminated,hx]
    · simp only [terminated,hb,dite_false,Option.map_eq_some_iff,Prod.exists,Prod.mk.injEq,
        Subtype.mk.injEq]
      cases xs with
      | nil => simp [hb]
      | cons x xs =>
        have hz : z ∉ xs := fun h => hxs (List.mem_cons_of_mem _ h)
        constructor
        · rintro ⟨ys,q,hq,hc,rfl⟩
          obtain ⟨rfl,hy⟩ := List.cons.inj hc
          rw [ih] at hq
          rw [hq,hy]
          simp
        · intro h
          simp only [List.cons_append,List.cons.injEq] at h
          exact ⟨⟨xs,hz⟩,rest,(ih _ _).mpr h.2,by rw [h.1],rfl⟩

/-- A fixed word. -/
def literal [DecidableEq β] (w : List β) : Decoder β Unit := fun p =>
  if p.take w.length = w then some ((),p.drop w.length) else none

theorem literal_exact [DecidableEq β] (w : List β) : Exact (fun _ => w) (literal w) := by
  intro p a rest
  simp only [literal,StateT.run]
  constructor
  · intro h
    split at h
    case isTrue hw =>
      simp only [Option.some.injEq,Prod.mk.injEq] at h
      rw [← h.2]
      nth_rewrite 1 [← hw]
      rw [List.take_append_drop]
    case isFalse => contradiction
  · rintro rfl
    simp

/-- Values up to the end of the word, at most `fuel` of them. -/
def sequence (d : Decoder β α) : ℕ → List β → Option (List α)
  | _,[] => some []
  | 0,_::_ => none
  | fuel+1,b::p => do
    let (a,rest) ← d.run (b::p)
    return a::(← sequence d fuel rest)

/-- A concatenation of nonempty encodings, none of which the decoder reads past. -/
theorem sequence_flatMap (as : List α) {e : α → List β} {d : Decoder β γ} {f : α → γ}
    (hne : ∀ a, e a ≠ []) (hd : ∀ a ∈ as, ∀ rest, d.run (e a ++ rest) = some (f a,rest))
    {fuel : ℕ} (hf : (as.flatMap e).length ≤ fuel) :
    sequence d fuel (as.flatMap e) = some (as.map f) := by
  induction as generalizing fuel with
  | nil => cases fuel <;> rfl
  | cons a as ih =>
    have hrun := hd a List.mem_cons_self (as.flatMap e)
    rw [List.flatMap_cons] at hf ⊢
    have hlen := List.length_append ▸ hf
    cases he : e a with
    | nil => exact absurd he (hne a)
    | cons b p =>
      rw [he,List.length_cons] at hlen
      cases fuel with
      | zero => omega
      | succ fuel =>
        rw [he,List.cons_append] at hrun
        rw [List.cons_append,sequence,hrun]
        simp [ih (fun a ha => hd a (List.mem_cons_of_mem _ ha)) (by omega : _ ≤ fuel)]

/-- Behind any word, `n` copies of the symbol `z` are enough for the decoder to succeed. -/
def SatedBy (z : β) (n : ℕ) (d : Decoder β α) : Prop :=
  ∀ p, ∃ a rest, d.run (p ++ List.replicate n z) = some (a,rest)

theorem SatedBy.pure (z : β) (a : α) : SatedBy z 0 (Pure.pure a : Decoder β α) :=
  fun p => ⟨a,p,by simp⟩

theorem SatedBy.bind {z : β} {m n : ℕ} {e : α → List β} {d : Decoder β α} {f : α → Decoder β γ}
    (he : Exact e d) (hd : SatedBy z m d) (hf : ∀ a, SatedBy z n (f a)) :
    SatedBy z (m+n) (d >>= f) := by
  intro p
  obtain ⟨a,p',ha⟩ := hd p
  obtain ⟨c,rest,hc⟩ := hf a p'
  refine ⟨c,rest,(run_bind_eq_some d f _ c rest).mpr ⟨a,p' ++ List.replicate n z,?_,hc⟩⟩
  rw [← List.replicate_append_replicate,← List.append_assoc]
  exact he.extend ha _

theorem block_sated (z : β) {m n : ℕ} (h : m ≤ n) : SatedBy z n (block m : Decoder β _) := by
  intro p
  have hm : m ≤ (p ++ List.replicate n z).length := by
    rw [List.length_append,List.length_replicate]
    omega
  exact ⟨_,_,dif_pos hm⟩

theorem terminated_sated [DecidableEq β] (z : β) : SatedBy z 1 (terminated z) := by
  intro p
  have hz : z ∈ p ++ List.replicate 1 z := by simp
  obtain ⟨xs,rest,h,hxs⟩ := List.eq_append_cons_of_mem hz
  exact ⟨⟨xs,hxs⟩,rest,(terminated_exact z _ _ _).mpr (h.trans (by simp))⟩

end WireCodec
