import EtsiQkd004.Library.Registry
import Mathlib.Algebra.Order.Group.Multiset
import Mathlib.Data.Multiset.Filter
import Mathlib.Tactic.Ring

/-! A heap of blocks that are allocated, read, overwritten and freed as wholes, and total
correctness of programs over it in terms of the blocks they own. A program that touches a block
that is not live ends with a fault, which is told apart from any other end. -/
namespace Heaps
open Registry
variable {α β γ κ ρ : Type}

/-- The live blocks by their addresses, and the number of blocks that have been allocated so far. No
two are in the same place, and none is at null. -/
structure Heap (β : Type) where
  blocks : List (ℕ × β)
  allocated : ℕ
  nodup : (blocks.map Prod.fst).Nodup
  null : 0 ∉ blocks.map Prod.fst

/-- Where the block number `n` is put, from the addresses of those that are live. As no number comes
twice, this is any choice of free addresses. An address may be used again once its block has been
freed. -/
structure Allocator where
  fresh (n : ℕ) (live : List ℕ) : ℕ
  fresh_ne_null (n : ℕ) (live : List ℕ) : fresh n live ≠ 0
  fresh_notMem (n : ℕ) (live : List ℕ) : fresh n live ∉ live

/-- A new block above all others. -/
def Allocator.top : Allocator where
  fresh _ live := live.foldr max 0 + 1
  fresh_ne_null _ _ := Nat.succ_ne_zero _
  fresh_notMem _ live h := by
    have hle : ∀ (l : List ℕ), ∀ p ∈ l, p ≤ l.foldr max 0 := by
      intro l
      induction l with
      | nil => simp
      | cons q l ih =>
        intro p hp
        rcases List.mem_cons.mp hp with rfl | hp
        · exact Nat.le_max_left _ _
        · exact (ih p hp).trans (Nat.le_max_right _ _)
    exact absurd (hle live _ h) (by omega)

/-- How a program ends that does not return: by a fault, or with the process that runs it. -/
inductive Stop
  | fault
  | exited
  deriving DecidableEq

/-- Programs over the heap. -/
abbrev HeapM (β α : Type) := StateT (Heap β) (Except Stop) α

/-- A set of blocks that a program owns. -/
abbrev Blocks (β : Type) := Multiset (ℕ × β)

def Heap.owned (h : Heap β) : Blocks β := h.blocks

def Heap.empty : Heap β := ⟨[],0,List.nodup_nil,List.not_mem_nil⟩

section Programs

def fault : HeapM β α := fun _ => .error .fault

/-- The process ends. -/
def exit : HeapM β α := fun _ => .error .exited

def malloc (A : Allocator) (b : β) : HeapM β ℕ := fun h =>
  let p := A.fresh h.allocated (h.blocks.map Prod.fst)
  .ok (p,
    { blocks := (p,b)::h.blocks
      allocated := h.allocated+1
      nodup := List.nodup_cons.mpr ⟨A.fresh_notMem _ _,h.nodup⟩
      null := by
        rw [List.map_cons,List.mem_cons,not_or]
        exact ⟨(A.fresh_ne_null _ _).symm,h.null⟩ })

def load (p : ℕ) : HeapM β β := fun h =>
  match lookup Prod.fst p h.blocks with
  | none => .error .fault
  | some x => .ok (x.2,h)

/-- The null pointer may be freed. -/
def free (p : ℕ) : HeapM β Unit := fun h =>
  if p=0 then .ok ((),h)
  else if p ∈ h.blocks.map Prod.fst then
    .ok ((),
      { blocks := h.blocks.filter fun x => x.1≠p
        allocated := h.allocated
        nodup := h.nodup.sublist (List.filter_sublist.map _)
        null := fun h0 => h.null ((List.filter_sublist.map _).subset h0) })
  else .error .fault

def store (p : ℕ) (b : β) : HeapM β Unit := fun h =>
  if p ∈ h.blocks.map Prod.fst then
    have hmap : (h.blocks.map fun x => (x.1,if x.1=p then b else x.2)).map Prod.fst =
        h.blocks.map Prod.fst := by
      rw [List.map_map]
      rfl
    .ok ((),
      { blocks := h.blocks.map fun x => (x.1,if x.1=p then b else x.2)
        allocated := h.allocated
        nodup := hmap ▸ h.nodup
        null := hmap ▸ h.null })
  else .error .fault

/-- At most `n` rounds of a loop. -/
def rounds (body : κ → HeapM β (κ ⊕ ρ)) : ℕ → κ → HeapM β ρ
  | 0,_ => fault
  | n+1,k => do
    match ← body k with
    | .inl k => rounds body n k
    | .inr r => pure r

/-- A loop along links. One that has made more rounds than there are blocks goes round in a
circle, and does not end. -/
def loop (body : κ → HeapM β (κ ⊕ ρ)) (k : κ) : HeapM β ρ := fun h =>
  rounds body (h.blocks.length+1) k h

end Programs

section Owned
variable {h : Heap β} {p : ℕ} {b : β} {rest : Blocks β}

lemma mem_blocks {x : ℕ × β} {own frame : Blocks β} (howned : h.owned = own + frame)
    (hx : x ∈ own) : x ∈ h.blocks := by
  have hmem : x ∈ h.owned := by
    rw [howned]
    exact Multiset.mem_add.mpr (Or.inl hx)
  exact Multiset.mem_coe.mp hmem

lemma lookup_blocks (hmem : (p,b) ∈ h.blocks) : lookup Prod.fst p h.blocks = some (p,b) := by
  obtain ⟨x,hx⟩ := exists_lookup_iff.mpr (List.mem_map_of_mem (f := Prod.fst) hmem)
  have hkey : x.1 = p := key_of_lookup hx
  have hinj := List.inj_on_of_nodup_map h.nodup (mem_of_lookup hx) hmem hkey
  rw [hx,hinj]

/-- The blocks beside an owned one are elsewhere. -/
lemma ne_of_owned (howned : h.owned = (p,b) ::ₘ rest) {x : ℕ × β} (hx : x ∈ rest) : x.1 ≠ p := by
  have hnodup : (h.owned.map Prod.fst).Nodup := h.nodup
  rw [howned,Multiset.map_cons,Multiset.nodup_cons] at hnodup
  intro hp
  exact hnodup.1 (Multiset.mem_map.mpr ⟨x,hx,hp⟩)

end Owned

/-- From every heap that consists of the blocks `pre` and of any others, the program ends with a
value and with blocks that satisfy `post`, and leaves the others as they are. -/
def Spec (prog : HeapM β α) (pre : Blocks β) (post : α → Blocks β → Prop) : Prop :=
  ∀ h frame, h.owned = pre + frame →
    ∃ a own h', prog h = .ok (a,h') ∧ post a own ∧ h'.owned = own + frame

namespace Spec
variable {pre own rest : Blocks β} {post : α → Blocks β → Prop} {p : ℕ} {b b' : β}

lemma imp {prog : HeapM β α} {post' : α → Blocks β → Prop} (h : Spec prog pre post)
    (himp : ∀ a own, post a own → post' a own) : Spec prog pre post' := by
  intro heap frame howned
  obtain ⟨a,own,heap',hrun,hpost,howned'⟩ := h heap frame howned
  exact ⟨a,own,heap',hrun,himp a own hpost,howned'⟩

lemma pure {a : α} (h : post a pre) : Spec (Pure.pure a) pre post :=
  fun heap _ howned => ⟨a,pre,heap,rfl,h,howned⟩

/-- What a program leaves alone may be owned as well. -/
lemma frame {prog : HeapM β α} (h : Spec prog own post) (rest : Blocks β) :
    Spec prog (own + rest) (fun a x => ∃ own', post a own' ∧ x = own' + rest) := by
  intro heap others howned
  obtain ⟨a,own',heap',hrun,hpost,howned'⟩ := h heap (rest + others) (by rw [howned,add_assoc])
  exact ⟨a,own' + rest,heap',hrun,⟨own',hpost,rfl⟩,by rw [howned',add_assoc]⟩

lemma bind {prog : HeapM β γ} {next : γ → HeapM β α} {mid : γ → Blocks β → Prop}
    (h : Spec prog pre mid) (hnext : ∀ c own, mid c own → Spec (next c) own post) :
    Spec (prog >>= next) pre post := by
  intro heap frame howned
  obtain ⟨c,own,heap',hrun,hmid,howned'⟩ := h heap frame howned
  obtain ⟨a,own',heap'',hrun',hpost,howned''⟩ := hnext c own hmid heap' frame howned'
  refine ⟨a,own',heap'',?_,hpost,howned''⟩
  change (prog heap).bind (fun x => next x.1 x.2) = _
  rw [hrun]
  exact hrun'

/-- A step that uses a part of what is owned. -/
lemma step {prog : HeapM β γ} {next : γ → HeapM β α} {mid : γ → Blocks β → Prop}
    (h : Spec prog own mid) (hpre : pre = own + rest)
    (hnext : ∀ c own', mid c own' → Spec (next c) (own' + rest) post) :
    Spec (prog >>= next) pre post := by
  rw [hpre]
  apply (h.frame rest).bind
  rintro c _ ⟨own',hmid,rfl⟩
  exact hnext c own' hmid

/-- No owned block is at null. -/
lemma ne_null {prog : HeapM β α} (hmem : (p,b) ∈ pre) (h : p ≠ 0 → Spec prog pre post) :
    Spec prog pre post := by
  intro heap frame howned
  refine h ?_ heap frame howned
  rintro rfl
  exact heap.null (List.mem_map_of_mem (mem_blocks howned hmem))

/-- A step after which the blocks owned are known up to its value. -/
lemma andThen {prog : HeapM β γ} {next : γ → HeapM β α} {mid : γ → Blocks β}
    (h : Spec prog pre fun c own => own = mid c) (hnext : ∀ c, Spec (next c) (mid c) post) :
    Spec (prog >>= next) pre post := by
  apply h.bind
  rintro c _ rfl
  exact hnext c

lemma malloc (A : Allocator) (b : β) :
    Spec (malloc A b) pre (fun p own => own = (p,b) ::ₘ pre) := by
  intro heap frame howned
  refine ⟨_,_,_,rfl,rfl,?_⟩
  rw [Multiset.cons_add,← howned]
  rfl

lemma free (hpre : pre = (p,b) ::ₘ rest) : Spec (free p) pre (fun _ own => own = rest) := by
  subst hpre
  have hmem : (p,b) ∈ (p,b) ::ₘ rest := Multiset.mem_cons_self _ _
  refine ne_null hmem fun hp => ?_
  intro heap frame howned
  have hlive : p ∈ heap.blocks.map Prod.fst :=
    List.mem_map_of_mem (f := Prod.fst) (mem_blocks howned hmem)
  refine ⟨(),rest,_,by rw [Heaps.free,if_neg hp,if_pos hlive],rfl,?_⟩
  have hfilter : Multiset.filter (fun x => x.1 ≠ p) heap.owned = rest + frame := by
    rw [howned,Multiset.cons_add,Multiset.filter_cons_of_neg _ (by simp)]
    rw [Multiset.cons_add] at howned
    exact Multiset.filter_eq_self.mpr fun x hx => ne_of_owned howned hx
  exact hfilter

lemma free_null : Spec (Heaps.free 0) pre (fun _ own => own = pre) :=
  fun heap _ howned => ⟨(),pre,heap,rfl,rfl,howned⟩

lemma store (hpre : pre = (p,b) ::ₘ rest) :
    Spec (store p b') pre (fun _ own => own = (p,b') ::ₘ rest) := by
  subst hpre
  intro heap frame howned
  have hmem := mem_blocks howned (Multiset.mem_cons_self _ _)
  have hlive : p ∈ heap.blocks.map Prod.fst := List.mem_map_of_mem (f := Prod.fst) hmem
  refine ⟨(),_,_,by rw [Heaps.store,if_pos hlive],rfl,?_⟩
  rw [Multiset.cons_add] at howned ⊢
  have hmap : Multiset.map (fun x => (x.1,if x.1=p then b' else x.2)) heap.owned =
      (p,b') ::ₘ (rest + frame) := by
    rw [howned,Multiset.map_cons,if_pos rfl]
    congr 1
    refine (Multiset.map_congr rfl ?_).trans (Multiset.map_id _)
    intro x hx
    rw [if_neg (ne_of_owned howned hx)]
    rfl
  exact hmap

/-- The loop rule. Each round keeps the invariant `I` and lowers its measure, which is at most
the number of blocks owned, or ends the loop. -/
lemma loop {body : κ → HeapM β (κ ⊕ ρ)} {I : ℕ → κ → Blocks β → Prop}
    {post : ρ → Blocks β → Prop} {n : ℕ} {k : κ} (hI : I n k own) (hn : n ≤ own.card)
    (hbody : ∀ n k own, I n k own → Spec (body k) own fun r own' =>
      match r with
      | .inl k' => ∃ m < n, I m k' own'
      | .inr r => post r own') :
    Spec (loop body k) own post := by
  have hrounds (fuel : ℕ) : ∀ n k own, I n k own → n < fuel →
      Spec (rounds body fuel k) own post := by
    induction fuel with
    | zero =>
      intro n k own _ hn
      omega
    | succ fuel ih =>
      intro n k own hI hn
      rw [rounds]
      apply (hbody n k own hI).bind
      intro r own' hr
      cases r with
      | inl k' =>
        obtain ⟨m,hm,hI'⟩ := hr
        exact ih m k' own' hI' (by omega)
      | inr r => exact pure hr
  intro heap frame howned
  have hcard : own.card ≤ heap.blocks.length := by
    have hlen := congrArg Multiset.card howned
    rw [Multiset.card_add] at hlen
    change heap.blocks.length = _ at hlen
    omega
  exact hrounds (heap.blocks.length+1) n k own hI (by omega) heap frame howned

end Spec

/-- From every heap that consists of the blocks `pre` and of any others, the program ends the
process, without a fault. -/
def Exits (prog : HeapM β α) (pre : Blocks β) : Prop :=
  ∀ h frame, h.owned = pre + frame → prog h = .error .exited

lemma exits_exit (pre : Blocks β) : Exits (exit : HeapM β α) pre := fun _ _ _ => rfl

lemma Exits.bind {prog : HeapM β γ} {next : γ → HeapM β α} {pre : Blocks β} (h : Exits prog pre) :
    Exits (prog >>= next) pre := by
  intro heap frame howned
  change (prog heap).bind _ = _
  rw [h heap frame howned]
  rfl

lemma Spec.bind_exits {prog : HeapM β γ} {next : γ → HeapM β α} {pre : Blocks β}
    {mid : γ → Blocks β → Prop} (h : Spec prog pre mid)
    (hnext : ∀ c own, mid c own → Exits (next c) own) : Exits (prog >>= next) pre := by
  intro heap frame howned
  obtain ⟨c,own,heap',hrun,hmid,howned'⟩ := h heap frame howned
  change (prog heap).bind _ = _
  rw [hrun]
  exact hnext c own hmid heap' frame howned'

/-- The program only reads the blocks `pre`, or others, and returns `v`. -/
def Reads (prog : HeapM β α) (pre : Blocks β) (v : α) : Prop :=
  Spec prog pre fun a own => a=v ∧ own=pre

namespace Reads
variable {pre : Blocks β} {v : γ} {prog : HeapM β γ}

lemma bind {post : α → Blocks β → Prop} {next : γ → HeapM β α} (h : Reads prog pre v)
    (hnext : Spec (next v) pre post) : Spec (prog >>= next) pre post := by
  apply Spec.bind h
  rintro _ _ ⟨rfl,rfl⟩
  exact hnext

lemma pure (v : γ) (pre : Blocks β) : Reads (Pure.pure v) pre v := Spec.pure ⟨rfl,rfl⟩

lemma load {p : ℕ} {b : β} (hmem : (p,b) ∈ pre) : Reads (load p) pre b := by
  intro heap frame howned
  refine ⟨b,pre,heap,?_,⟨rfl,rfl⟩,howned⟩
  rw [Heaps.load,lookup_blocks (mem_blocks howned hmem)]

end Reads

section Linked
variable {cell : ℕ → ℕ → γ → Blocks β → Prop}

/-- The blocks of a linked list from the node at `p` up to the link `q`. A node at `p` with the
value `x` and the link `next` owns the blocks of which `cell p next x` holds. -/
def Linked (cell : ℕ → ℕ → γ → Blocks β → Prop) : ℕ → ℕ → List γ → Blocks β → Prop
  | p,q,[],own => p=q ∧ own=0
  | p,q,x::xs,own => p≠0 ∧ ∃ next here rest,
      cell p next x here ∧ Linked cell next q xs rest ∧ own = here + rest

lemma linked_append {p q : ℕ} {xs ys : List γ} {own : Blocks β} :
    Linked cell p q (xs ++ ys) own ↔ ∃ r own₁ own₂,
      Linked cell p r xs own₁ ∧ Linked cell r q ys own₂ ∧ own = own₁ + own₂ := by
  induction xs generalizing p own with
  | nil =>
    constructor
    · intro h
      exact ⟨p,0,own,⟨rfl,rfl⟩,h,(zero_add own).symm⟩
    · rintro ⟨r,_,own₂,⟨rfl,rfl⟩,h,rfl⟩
      rwa [zero_add]
  | cons x xs ih =>
    constructor
    · rintro ⟨hp,next,here,rest,hcell,h,rfl⟩
      obtain ⟨r,own₁,own₂,h₁,h₂,rfl⟩ := ih.mp h
      exact ⟨r,here + own₁,own₂,⟨hp,next,here,own₁,hcell,h₁,rfl⟩,h₂,(add_assoc _ _ _).symm⟩
    · rintro ⟨r,_,own₂,⟨hp,next,here,own₁,hcell,h₁,rfl⟩,h₂,rfl⟩
      exact ⟨hp,next,here,own₁ + own₂,hcell,ih.mpr ⟨r,own₁,own₂,h₁,h₂,rfl⟩,add_assoc _ _ _⟩

/-- Every value of the list has the same number of blocks. -/
lemma linked_card {n : ℕ} (hcell : ∀ p next x own, cell p next x own → own.card = n) {p q : ℕ}
    {xs : List γ} {own : Blocks β} (h : Linked cell p q xs own) : own.card = n*xs.length := by
  induction xs generalizing p own with
  | nil =>
    obtain ⟨-,rfl⟩ := h
    rfl
  | cons x xs ih =>
    obtain ⟨-,next,here,rest,hx,h,rfl⟩ := h
    rw [Multiset.card_add,hcell _ _ _ _ hx,ih h,List.length_cons]
    ring

/-- A list that ends with null is empty if it starts with null. -/
lemma linked_null {xs : List γ} {own : Blocks β} (h : Linked cell 0 0 xs own) : xs=[] := by
  cases xs with
  | nil => rfl
  | cons x xs => exact absurd rfl h.1

end Linked

section Each
variable {R : γ → κ → Blocks β → Prop} {x x' : γ} {xs : List γ} {y : κ} {ys : List κ}
  {own here : Blocks β}

/-- The values `xs` have the representations `ys`, each with blocks of its own. -/
def Each (R : γ → κ → Blocks β → Prop) : List γ → List κ → Blocks β → Prop
  | [],[],own => own=0
  | x::xs,y::ys,own => ∃ here rest, R x y here ∧ Each R xs ys rest ∧ own = here + rest
  | _,_,_ => False

/-- A value may give up its blocks for one that needs none. -/
lemma Each.take {i : ℕ} (h : Each R xs ys own) (hi : xs[i]? = some x) (hx' : ∀ y, R x' y 0) :
    ∃ y here rest, ys[i]? = some y ∧ R x y here ∧ Each R (xs.set i x') ys rest ∧
      own = here + rest := by
  induction xs generalizing ys own i with
  | nil => cases hi
  | cons first xs ih =>
    cases ys with
    | nil => exact h.elim
    | cons z ys =>
      obtain ⟨here,rest,hfirst,hrest,rfl⟩ := h
      cases i with
      | zero =>
        obtain rfl : first=x := Option.some.inj hi
        exact ⟨z,here,rest,rfl,hfirst,⟨0,rest,hx' z,hrest,(zero_add rest).symm⟩,rfl⟩
      | succ i =>
        obtain ⟨y,there,others,hy,hx,hothers,rfl⟩ := ih hrest hi
        exact ⟨y,there,here + others,hy,hx,⟨here,others,hfirst,hothers,rfl⟩,
          add_left_comm here there others⟩

/-- A new value. -/
lemma Each.push (h : Each R xs ys own) (hx : R x y here) :
    Each R (xs ++ [x]) (ys ++ [y]) (own + here) := by
  induction xs generalizing ys own with
  | nil =>
    cases ys with
    | nil =>
      obtain rfl : own=0 := h
      exact ⟨here,0,hx,rfl,by rw [zero_add,add_zero]⟩
    | cons z ys => exact h.elim
  | cons first xs ih =>
    cases ys with
    | nil => exact h.elim
    | cons z ys =>
      obtain ⟨there,rest,hfirst,hrest,rfl⟩ := h
      exact ⟨there,rest + here,hfirst,ih hrest,add_assoc there rest here⟩

end Each

end Heaps
