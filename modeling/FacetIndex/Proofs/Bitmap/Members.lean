import FacetIndex.Proofs.Bitmap.Canonical
import Mathlib.Data.Finset.Sort
import Mathlib.Data.Finset.SymmDiff

/-!
# Bitmaps as finite sets of indexes

The ones that a bitmap stores are a finite set of indexes
(`FacetIndex.Bitmap.members`). Nothing of the words and blocks is left in it: with the size
it determines the bitmap (`FacetIndex.Bitmap.ext_members`), sorted it is the list of the
bitmap (`FacetIndex.Bitmap.toList_eq_sort`), and each operation does to it what its name
says.

| operation | members afterwards | theorem |
|---|---|---|
| growing | the same | `FacetIndex.Bitmap.members_growTo` |
| putting a one | one more | `FacetIndex.Bitmap.members_insert` |
| complementing | the indexes below the size that were none | `FacetIndex.Bitmap.members_complement` |
| combining | `∩`, `∪`, `∆` and `\` | `FacetIndex.Bitmap.members_inter` and its companions |

So an equation between bitmaps is an equation between sizes and one between finite sets,
and a count is a number of elements. Ones in the padding are members as well; what can be
seen of a bitmap are its members below the size, and of a canonical bitmap these are all.
-/

namespace FacetIndex.Bitmap

open scoped symmDiff

variable {s t : Bitmap} {i : Nat}

/-- The indexes of the ones that are stored. -/
def members (s : Bitmap) : Finset Nat := s.toList.toFinset

theorem mem_members : i ∈ s.members ↔ s.stored i = true := by
  rw [members, List.mem_toFinset, mem_toList_iff]

/-- **The list is the members in ascending order**, each of them once. -/
theorem toList_eq_sort (s : Bitmap) : s.toList = s.members.sort := by
  have hsorted : s.toList.Pairwise (· ≤ ·) := s.pairwise_lt_toList.imp Nat.le_of_lt
  exact ((List.toFinset_sort _ s.nodup_toList).2 hsorted).symm

/-- Two bitmaps that store the same list the same. -/
theorem toList_congr (h : ∀ i, s.stored i = t.stored i) : s.toList = t.toList := by
  have hmembers : s.members = t.members := by
    ext i
    rw [mem_members, mem_members, h]
  rw [toList_eq_sort, toList_eq_sort, hmembers]

theorem card_members (s : Bitmap) : s.members.card = s.toList.length :=
  List.toFinset_card_of_nodup s.nodup_toList

/-- **The size and the members determine a bitmap** with the right number of blocks. -/
theorem ext_members (hs : s.WellSized) (ht : t.WellSized) (hsize : s.size = t.size)
    (h : s.members = t.members) : s = t := by
  refine ext_stored hs ht hsize fun i => ?_
  rw [Bool.eq_iff_iff, ← mem_members, ← mem_members, h]

/-! ### What can be seen -/

/-- An index can be seen in a bitmap if it is a member and below the size. -/
theorem contains_iff_mem : s.contains i = true ↔ i ∈ s.members ∩ Finset.range s.size := by
  rw [contains_eq, Bool.and_eq_true, decide_eq_true_eq, Finset.mem_inter, Finset.mem_range,
    mem_members, and_comm]

/-- **A canonical bitmap shows all its members.** -/
theorem Canonical.members_subset (h : s.Canonical) : s.members ⊆ Finset.range s.size := by
  intro i hi
  exact Finset.mem_range.2 (h.lt_size (mem_members.1 hi))

theorem Canonical.contains_iff_mem (h : s.Canonical) : s.contains i = true ↔ i ∈ s.members := by
  rw [h.contains_eq, mem_members]

/-! ### The members after an operation -/

@[simp] theorem members_zeros (n : Nat) : (zeros n).members = ∅ := by
  ext i
  simp [mem_members]

theorem members_empty : empty.members = ∅ := members_zeros 0

@[simp] theorem members_ones (n : Nat) : (ones n).members = Finset.range n := by
  ext i
  rw [mem_members, stored_ones, decide_eq_true_eq, Finset.mem_range]

@[simp] theorem members_growTo (s : Bitmap) (n : Nat) : (s.growTo n).members = s.members := by
  ext i
  rw [mem_members, mem_members, stored_growTo]

theorem members_insert (h : s.WellSized) (i : Nat) :
    (s.insert i).members = Insert.insert i s.members := by
  ext j
  rw [mem_members, stored_insert h, Bool.or_eq_true, beq_iff_eq, Finset.mem_insert, mem_members,
    or_comm]

/-- Whatever the padding held, the complement has none of it. -/
theorem members_complement (h : s.WellSized) :
    s.complement.members = Finset.range s.size \ s.members := by
  ext i
  rw [mem_members, stored_complement h, Bool.and_eq_true, decide_eq_true_eq, Bool.not_eq_true',
    Finset.mem_sdiff, Finset.mem_range, mem_members, Bool.not_eq_true]

theorem members_inter (s t : Bitmap) : (s.inter t).members = s.members ∩ t.members := by
  ext i
  rw [mem_members, stored_inter, Bool.and_eq_true, Finset.mem_inter, mem_members, mem_members]

theorem members_union (s t : Bitmap) : (s.union t).members = s.members ∪ t.members := by
  ext i
  rw [mem_members, stored_union, Bool.or_eq_true, Finset.mem_union, mem_members, mem_members]

theorem members_diff (s t : Bitmap) : (s.diff t).members = s.members \ t.members := by
  ext i
  rw [mem_members, stored_diff, Bool.and_eq_true, Bool.not_eq_true', Finset.mem_sdiff,
    mem_members, mem_members, Bool.not_eq_true]

theorem members_symmDiff (s t : Bitmap) : (s.symmDiff t).members = s.members ∆ t.members := by
  ext i
  rw [mem_members, stored_symmDiff, Finset.mem_symmDiff, mem_members, mem_members]
  cases s.stored i <;> cases t.stored i <;> decide

end FacetIndex.Bitmap
