import FacetIndex.Proofs.Bitmap.Canonical
import FacetIndex.Proofs.Registry.Census

/-!
# The bitmap of the live items

`FacetIndex.Registry.liveSet` goes through the slots and puts a one at every index in
use. All these indexes are below the capacity, which the bitmap covers from the start,
so it never grows; and nothing but these indexes is written, so it has a one exactly
where there is an item (`FacetIndex.Registry.stored_liveSet_iff`).
-/

namespace FacetIndex.Registry

/-- Of the slots from index `k` on, the first is that of `k`, and the others are those from
`k + 1` on. -/
theorem any_getElem?_cons (slot : Option String) (slots : List (Option String)) (k i : Nat) :
    (decide (k ≤ i) && (slot :: slots)[i - k]?.any Option.isSome) =
      (i == k && slot.isSome ||
        decide (k + 1 ≤ i) && slots[i - (k + 1)]?.any Option.isSome) := by
  rcases Nat.lt_trichotomy i k with hlt | rfl | hgt
  · rw [decide_eq_false (by omega), decide_eq_false (by omega),
      beq_eq_false_iff_ne.2 (Nat.ne_of_lt hlt)]
    rfl
  · rw [decide_eq_true (Nat.le_refl i), decide_eq_false (Nat.not_succ_le_self i)]
    simp
  · have hshift : i - k = i - (k + 1) + 1 := by omega
    rw [hshift, List.getElem?_cons_succ, decide_eq_true (Nat.le_of_lt hgt),
      decide_eq_true (show k + 1 ≤ i from hgt), beq_eq_false_iff_ne.2 (Nat.ne_of_gt hgt)]
    rfl

/-- Going through the slots from index `k` on puts ones at the indexes in use, and does
not make a bitmap longer that covers them all. -/
theorem foldl_enter (slots : List (Option String)) (k : Nat) {s : Bitmap}
    (hs : s.Canonical) (hsize : k + slots.length ≤ s.size) :
    ((slots.zipIdx k).foldl enter s).Canonical ∧
      ((slots.zipIdx k).foldl enter s).size = s.size ∧
      ∀ i, ((slots.zipIdx k).foldl enter s).stored i =
        (s.stored i || (decide (k ≤ i) && slots[i - k]?.any Option.isSome)) := by
  induction slots generalizing k s with
  | nil => exact ⟨hs, rfl, fun i => by simp⟩
  | cons slot slots ih =>
    rw [List.length_cons] at hsize
    rw [List.zipIdx_cons, List.foldl_cons]
    rcases slot with _ | item
    · obtain ⟨hcanonical, hsame, hstored⟩ := ih (k + 1) hs (by omega)
      refine ⟨hcanonical, hsame, fun i => (hstored i).trans ?_⟩
      rw [any_getElem?_cons, Option.isSome_none, Bool.and_false, Bool.false_or]
    · have hinsert : (s.insert k).size = s.size := by
        rw [Bitmap.size_insert]
        omega
      obtain ⟨hcanonical, hsame, hstored⟩ := ih (k + 1) (hs.insert k) (by omega)
      refine ⟨hcanonical, hsame.trans hinsert, fun i => (hstored i).trans ?_⟩
      rw [any_getElem?_cons, Option.isSome_some, Bool.and_true, Bitmap.stored_insert hs.wellSized,
        Bool.or_assoc]

variable (r : Registry)

theorem liveSet_spec :
    r.liveSet.Canonical ∧ r.liveSet.size = r.capacity ∧
      ∀ i, r.liveSet.stored i = r.slots[i]?.any Option.isSome := by
  rw [liveSet]
  obtain ⟨hcanonical, hsize, hstored⟩ := foldl_enter r.slots.toList 0
    (Bitmap.canonical_zeros r.capacity) (by simp [capacity, Bitmap.size_zeros])
  refine ⟨hcanonical, hsize, fun i => (hstored i).trans ?_⟩
  simp

theorem canonical_liveSet : r.liveSet.Canonical := r.liveSet_spec.1

/-- The bitmap of the live items covers the indexes made so far, and no more. -/
theorem size_liveSet : r.liveSet.size = r.capacity := r.liveSet_spec.2.1

/-- **There is a one exactly at the indexes of live items.** -/
theorem stored_liveSet_iff {i : Nat} :
    r.liveSet.stored i = true ↔ ∃ item, r.slots[i]? = some (some item) := by
  rw [r.liveSet_spec.2.2 i]
  rcases r.slots[i]? with _ | _ | item <;> simp

end FacetIndex.Registry
