import FacetIndex.Bitmap.Bits
import FacetIndex.Facet
import FacetIndex.Proofs.Registry.Census

/-!
# What a facet is asked for, and when it is refused

Reading and writing a facet whose catalog is there goes through the registry. An item is
resolved to its index (`FacetIndex.Registry.indexOf`); an index is held against the
capacity and, for a one, against the item there. What is left is the bitmap, which
refuses only an index that no bitmap can grow to cover (`FacetIndex.Facet.write?_eq`).

The statements go through the cases of `FacetIndex.Registry.slot_cases`, one for each
request and case, so that nothing later opens a request again.
-/

namespace FacetIndex.Facet

variable {r : Registry} {item : String} {i : Nat}

/-! ### The bitmap -/

/-- The facet with a one at index `i`, which it is made to cover. -/
def mark (f : Facet) (i : Nat) : Facet := { f with bits := f.bits.insert i }

/-- The facet with a zero at index `i`, which it is made to cover. -/
def unmark (f : Facet) (i : Nat) : Facet := { f with bits := f.bits.erase i }

theorem write?_eq (f : Facet) (i : Nat) :
    f.write? i = if i < maxIndex then .ok (f.mark i) else .error (.noRoom i) := by
  rw [write?, Bitmap.set?_eq]
  split <;> rfl

theorem wipe?_eq (f : Facet) (i : Nat) :
    f.wipe? i = if i < maxIndex then .ok (f.unmark i) else .error (.noRoom i) := by
  rw [wipe?, Bitmap.unset?_eq]
  split <;> rfl

/-- A one that was written is read. -/
theorem contains_mark {f : Facet} (h : f.bits.WellSized) (i : Nat) :
    (f.mark i).bits.contains i = true := by
  rw [mark, Bitmap.contains, Bitmap.size_insert, Bitmap.stored_insert h, beq_self_eq_true,
    Bool.or_true, Bool.and_true, decide_eq_true_iff]
  omega

/-- A zero that was written is read. -/
theorem contains_unmark {f : Facet} (h : f.bits.WellSized) (i : Nat) :
    (f.unmark i).bits.contains i = false := by
  rw [unmark, Bitmap.contains, Bitmap.stored_erase h, bne_self_eq_false, Bool.and_false,
    Bool.and_false]

/-! ### Through an index -/

theorem getIndex?_of_lt (f : Facet) (h : i < r.capacity) :
    f.getIndex? (some r) i = .ok (f.bits.contains i) := by
  simp only [getIndex?, requireOwner, bind, Except.bind, Registry.checkInRange_of_lt h]
  rfl

theorem getIndex?_of_le (f : Facet) (h : r.capacity ≤ i) :
    f.getIndex? (some r) i = .error (.indexOutOfRange i r.capacity) := by
  simp only [getIndex?, requireOwner, bind, Except.bind, Registry.checkInRange_of_le h]

/-- A one can be written where there is an item. -/
theorem setIndex?_of_item (f : Facet) (h : r.slots[i]? = some (some item)) :
    f.setIndex? (some r) i = f.write? i := by
  simp only [setIndex?, requireOwner, bind, Except.bind,
    Registry.checkInRange_of_lt (Registry.lt_capacity h), Registry.itemAt_eq_ok_iff.2 h]

theorem setIndex?_of_vacant (f : Facet) (h : r.slots[i]? = some none) :
    f.setIndex? (some r) i = .error (.indexNotFound i) := by
  simp only [setIndex?, requireOwner, bind, Except.bind,
    Registry.checkInRange_of_lt (Registry.lt_capacity h), Registry.itemAt, h]

theorem setIndex?_of_le (f : Facet) (h : r.capacity ≤ i) :
    f.setIndex? (some r) i = .error (.indexOutOfRange i r.capacity) := by
  simp only [setIndex?, requireOwner, bind, Except.bind, Registry.checkInRange_of_le h]

/-- A zero can be written at every index that was made, vacant or not. -/
theorem unsetIndex?_of_lt (f : Facet) (h : i < r.capacity) :
    f.unsetIndex? (some r) i = f.wipe? i := by
  simp only [unsetIndex?, requireOwner, bind, Except.bind, Registry.checkInRange_of_lt h]

theorem unsetIndex?_of_le (f : Facet) (h : r.capacity ≤ i) :
    f.unsetIndex? (some r) i = .error (.indexOutOfRange i r.capacity) := by
  simp only [unsetIndex?, requireOwner, bind, Except.bind, Registry.checkInRange_of_le h]

/-! ### Through an item -/

theorem getItem?_of_live (f : Facet) (h : r.indexes[item]? = some i) :
    f.getItem? (some r) item = .ok (f.bits.contains i) := by
  simp only [getItem?, requireOwner, bind, Except.bind, Registry.indexOf_eq_ok_iff.2 h]
  rfl

theorem getItem?_of_absent (f : Facet) (h : r.indexes[item]? = none) :
    f.getItem? (some r) item = .error (.itemNotFound item) := by
  simp only [getItem?, requireOwner, bind, Except.bind, Registry.indexOf_of_absent h]

theorem setItem?_of_live (f : Facet) (h : r.indexes[item]? = some i) :
    f.setItem? (some r) item = f.write? i := by
  simp only [setItem?, requireOwner, bind, Except.bind, Registry.indexOf_eq_ok_iff.2 h]

theorem setItem?_of_absent (f : Facet) (h : r.indexes[item]? = none) :
    f.setItem? (some r) item = .error (.itemNotFound item) := by
  simp only [setItem?, requireOwner, bind, Except.bind, Registry.indexOf_of_absent h]

theorem unsetItem?_of_live (f : Facet) (h : r.indexes[item]? = some i) :
    f.unsetItem? (some r) item = f.wipe? i := by
  simp only [unsetItem?, requireOwner, bind, Except.bind, Registry.indexOf_eq_ok_iff.2 h]

theorem unsetItem?_of_absent (f : Facet) (h : r.indexes[item]? = none) :
    f.unsetItem? (some r) item = .error (.itemNotFound item) := by
  simp only [unsetItem?, requireOwner, bind, Except.bind, Registry.indexOf_of_absent h]

/-! ### What was written

Read backwards: whenever a request is granted, there is a registry that allows it and one
bit was written. -/

variable {f f' : Facet} {owner : Option Registry}

theorem eq_mark_of_write? (h : f.write? i = .ok f') : f' = f.mark i := by
  rw [write?_eq] at h
  split at h
  · exact (Except.ok.inj h).symm
  · cases h

theorem eq_unmark_of_wipe? (h : f.wipe? i = .ok f') : f' = f.unmark i := by
  rw [wipe?_eq] at h
  split at h
  · exact (Except.ok.inj h).symm
  · cases h

theorem setIndex?_eq_ok (h : f.setIndex? owner i = .ok f') :
    ∃ r item, owner = some r ∧ r.slots[i]? = some (some item) ∧ f' = f.mark i := by
  rcases owner with _ | r
  · cases h
  · rcases r.slot_cases i with ⟨item, hi⟩ | hi | ⟨-, hi⟩
    · rw [setIndex?_of_item f hi] at h
      exact ⟨r, item, rfl, hi, eq_mark_of_write? h⟩
    · rw [setIndex?_of_vacant f hi] at h
      cases h
    · rw [setIndex?_of_le f hi] at h
      cases h

theorem setItem?_eq_ok (h : f.setItem? owner item = .ok f') :
    ∃ r i, owner = some r ∧ r.indexes[item]? = some i ∧ f' = f.mark i := by
  rcases owner with _ | r
  · cases h
  · rcases hi : r.indexes[item]? with _ | i
    · rw [setItem?_of_absent f hi] at h
      cases h
    · rw [setItem?_of_live f hi] at h
      exact ⟨r, i, rfl, hi, eq_mark_of_write? h⟩

theorem unsetIndex?_eq_ok (h : f.unsetIndex? owner i = .ok f') :
    ∃ r, owner = some r ∧ i < r.capacity ∧ f' = f.unmark i := by
  rcases owner with _ | r
  · cases h
  · rcases Nat.lt_or_ge i r.capacity with hi | hi
    · rw [unsetIndex?_of_lt f hi] at h
      exact ⟨r, rfl, hi, eq_unmark_of_wipe? h⟩
    · rw [unsetIndex?_of_le f hi] at h
      cases h

theorem unsetItem?_eq_ok (h : f.unsetItem? owner item = .ok f') :
    ∃ r i, owner = some r ∧ r.indexes[item]? = some i ∧ f' = f.unmark i := by
  rcases owner with _ | r
  · cases h
  · rcases hi : r.indexes[item]? with _ | i
    · rw [unsetItem?_of_absent f hi] at h
      cases h
    · rw [unsetItem?_of_live f hi] at h
      exact ⟨r, i, rfl, hi, eq_unmark_of_wipe? h⟩

end FacetIndex.Facet
