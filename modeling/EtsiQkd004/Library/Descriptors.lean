import Mathlib.Data.Finset.Card
import Mathlib.Order.Interval.Finset.Nat

/-! A table of descriptors as an operating system keeps one for a process: the lowest unused one is
given out, up to a limit, and may be given out again once it has been returned. -/
namespace Descriptors

/-- The descriptors in use. All are below the limit. -/
@[ext] structure Table where
  limit : ℕ
  used : Finset ℕ
  lt_limit : ∀ fd ∈ used, fd < limit

namespace Table
variable {t t' : Table} {fd : ℕ}

/-- How many descriptors are left. -/
def left (t : Table) : ℕ := t.limit - t.used.card

def lowest (t : Table) : Option ℕ := (List.range t.limit).find? fun fd => fd ∉ t.used

lemma lowest_eq_some (h : t.lowest = some fd) : fd < t.limit ∧ fd ∉ t.used := by
  have hmem := List.mem_of_find?_eq_some h
  have hunused := List.find?_some h
  exact ⟨List.mem_range.mp hmem,of_decide_eq_true hunused⟩

/-- The table with one more descriptor in use. -/
def take (t : Table) (fd : ℕ) (h : fd < t.limit) : Table where
  limit := t.limit
  used := insert fd t.used
  lt_limit := by
    intro fd' hfd'
    rcases Finset.mem_insert.mp hfd' with rfl | hfd'
    · exact h
    · exact t.lt_limit fd' hfd'

def acquire (t : Table) : Option (ℕ × Table) :=
  match h : t.lowest with
  | none => none
  | some fd => some (fd,t.take fd (lowest_eq_some h).1)

def release (t : Table) (fd : ℕ) : Table where
  limit := t.limit
  used := t.used.erase fd
  lt_limit fd' h := t.lt_limit fd' (Finset.mem_of_mem_erase h)

/-- What is given out is new, and nothing else changes. -/
lemma acquire_eq_some (h : t.acquire = some (fd,t')) :
    fd ∉ t.used ∧ t'.limit=t.limit ∧ t'.used = insert fd t.used := by
  unfold acquire at h
  split at h
  · cases h
  · rename_i hlowest
    cases h
    exact ⟨(lowest_eq_some hlowest).2,rfl,rfl⟩

lemma used_subset (t : Table) : t.used ⊆ Finset.range t.limit :=
  fun fd hfd => Finset.mem_range.mpr (t.lt_limit fd hfd)

lemma card_le (t : Table) : t.used.card ≤ t.limit := by
  have hcard := Finset.card_le_card t.used_subset
  rwa [Finset.card_range] at hcard

/-- There is none to give out exactly when all are in use. -/
lemma acquire_eq_none_iff : t.acquire = none ↔ t.left=0 := by
  have hlowest : t.acquire = none ↔ t.lowest = none := by
    unfold acquire
    split
    · simpa using ‹_›
    · simp [*]
  rw [hlowest,lowest,List.find?_eq_none,left,Nat.sub_eq_zero_iff_le]
  constructor
  · intro h
    have hsub : Finset.range t.limit ⊆ t.used := by
      intro fd hfd
      have hused := h fd (List.mem_range.mpr (Finset.mem_range.mp hfd))
      simpa using hused
    have hcard := Finset.card_le_card hsub
    rwa [Finset.card_range] at hcard
  · intro h fd hfd
    have hall := Finset.eq_of_subset_of_card_le t.used_subset (by rwa [Finset.card_range])
    rw [hall]
    simpa using hfd

lemma left_acquire (h : t.acquire = some (fd,t')) : t.left = t'.left + 1 := by
  obtain ⟨hfd,hlimit,hused⟩ := acquire_eq_some h
  have hle := t'.card_le
  rw [hlimit,hused,Finset.card_insert_of_notMem hfd] at hle
  rw [left,left,hlimit,hused,Finset.card_insert_of_notMem hfd]
  omega

/-- What is returned at once was not used. -/
lemma release_acquire (h : t.acquire = some (fd,t')) : t'.release fd = t := by
  obtain ⟨hfd,hlimit,hused⟩ := acquire_eq_some h
  refine Table.ext hlimit ?_
  change t'.used.erase fd = t.used
  rw [hused,Finset.erase_insert hfd]

end Table
end Descriptors
