import Mathlib.Data.List.Nodup
import Mathlib.Tactic.Common

/-! Registers kept as lists: an entry is found by a first-match scan, new entries go to the
end, and the part of an entry that `f` projects never changes. -/
namespace Registry
variable {ε φ κ : Type*}

/-- `l'` is `l` with its entries in place, up to what `f` forgets of them, and perhaps new
entries behind them. -/
def Extends (f : ε → φ) (l l' : List ε) : Prop := l.map f <+: l'.map f

theorem Extends.refl (f : ε → φ) (l : List ε) : Extends f l l := List.prefix_refl _

theorem Extends.trans {f : ε → φ} {l₁ l₂ l₃ : List ε} (h₁ : Extends f l₁ l₂)
    (h₂ : Extends f l₂ l₃) : Extends f l₁ l₃ := List.IsPrefix.trans h₁ h₂

theorem nodup_append_one {key : ε → κ} {l : List ε} (hl : (l.map key).Nodup) {e : ε}
    (he : key e ∉ l.map key) : ((l ++ [e]).map key).Nodup := by
  rw [List.map_append,List.map_singleton]
  exact List.nodup_append.mpr ⟨hl,List.nodup_singleton _,by
    intro a ha b hb hab
    rw [List.mem_singleton] at hb
    exact he (hb ▸ hab ▸ ha)⟩

/-- The first entry with key `k`. -/
def lookup [DecidableEq κ] (key : ε → κ) (k : κ) (l : List ε) : Option ε :=
  l.find? fun e => decide (key e=k)

section Lookup
variable [DecidableEq κ] {key : ε → κ} {k : κ} {l l' : List ε}

theorem mem_of_lookup {e : ε} (h : lookup key k l = some e) : e ∈ l :=
  List.mem_of_find?_eq_some h

theorem key_of_lookup {e : ε} (h : lookup key k l = some e) : key e=k := by
  simpa using List.find?_some h

theorem lookup_eq_none : lookup key k l = none ↔ k ∉ l.map key := by
  simp [lookup,List.find?_eq_none]

theorem exists_lookup_iff : (∃ e, lookup key k l = some e) ↔ k ∈ l.map key := by
  rw [← Option.ne_none_iff_exists',Ne,lookup_eq_none,not_not]

/-- A new entry at the end is found if no entry before it is. -/
theorem lookup_append_one (e : ε) :
    lookup key k (l ++ [e]) = (lookup key k l).or (if key e=k then some e else none) := by
  rw [lookup,List.find?_append,← lookup]
  by_cases hk : key e=k
  · simp [hk]
  · simp [hk]

/-- An entry may be replaced by one with the same key: what `g` projects of the entries found
stays the same if it is the same for these two. -/
theorem lookup_replace (key : ε → κ) (k : κ) (g : ε → φ) {e e' : ε} (hkey : key e' = key e)
    (hg : g e' = g e) (before behind : List ε) :
    (lookup key k (before ++ e'::behind)).map g = (lookup key k (before ++ e::behind)).map g := by
  simp only [lookup,List.find?_append,List.find?_cons,hkey]
  cases before.find? (fun x => decide (key x=k)) with
  | some x => rfl
  | none =>
    by_cases hk : key e=k
    · simp [hk,hg]
    · simp [hk]

/-- A key the projection retains keeps its entry in every extension. -/
theorem lookup_of_extends {f : ε → φ} {g : φ → κ} (hg : ∀ e, g (f e) = key e)
    (h : Extends f l l') {e : ε} (he : lookup key k l = some e) :
    ∃ e', lookup key k l' = some e' ∧ f e' = f e := by
  have hmap (m : List ε) : (m.map f).find? (fun x => decide (g x=k)) = (lookup key k m).map f := by
    rw [List.find?_map,lookup]
    congr 2
    funext x
    simp only [Function.comp_apply,hg]
  obtain ⟨new,hnew⟩ := h
  have hl' := hmap l'
  rw [← hnew,List.find?_append,hmap l,he] at hl'
  exact Option.map_eq_some_iff.mp hl'.symm

end Lookup
end Registry
