import FacetIndex.Registry.Basic

/-!
# Consistent registries

A registry keeps three records of one matter: which item has which index, what is at
each index, and which indexes are free. They agree
(`FacetIndex.Registry.Consistent`) if the first two are inverse to each other and
the free list holds the vacant indexes, each once. The empty registry is consistent,
and making an item live or removing one keeps a registry so
(`FacetIndex.Registry.Consistent.upsert`, `FacetIndex.Registry.Consistent.vacate`).

Consistency is what makes the indexes safe: an index that comes out of the free list
is in range and vacant, and the index of an item is in range and holds the item.
-/

namespace FacetIndex.Registry

/-- The three records of a registry agree. -/
structure Consistent (r : Registry) : Prop where
  /-- An item has an index exactly when it is at that index. -/
  inverse : ∀ (item : String) (i : Nat), r.indexes[item]? = some i ↔ r.slots[i]? = some (some item)
  /-- An index is free exactly when it is vacant. -/
  vacant : ∀ i : Nat, i ∈ r.free.indexes ↔ r.slots[i]? = some none
  /-- No index is free twice. -/
  nodup : r.free.indexes.Nodup

theorem consistent_empty : empty.Consistent where
  inverse item i := by simp [empty]
  vacant i := by simp [empty, FreeList.empty]
  nodup := List.nodup_nil

/-! ### Looking up after a change -/

theorem getElem?_indexes_insert (r : Registry) (item other : String) (i : Nat) :
    (r.indexes.insert item i)[other]? = if item = other then some i else r.indexes[other]? := by
  simp [Std.ExtTreeMap.getElem?_insert]

theorem getElem?_indexes_erase (r : Registry) (item other : String) :
    (r.indexes.erase item)[other]? = if item = other then none else r.indexes[other]? := by
  simp [Std.ExtTreeMap.getElem?_erase]

theorem getElem?_indexes_vacate (r : Registry) (item : String) (i : Nat) (other : String) :
    (r.vacate item i).indexes[other]? = if item = other then none else r.indexes[other]? :=
  getElem?_indexes_erase r item other

theorem getElem?_slots_set (r : Registry) (slot : Option String) {i : Nat} (h : i < r.slots.size)
    (j : Nat) :
    (r.slots.setIfInBounds i slot)[j]? = if i = j then some slot else r.slots[j]? := by
  rw [Array.getElem?_setIfInBounds, if_pos h]

theorem getElem?_slots_push (r : Registry) (slot : Option String) (j : Nat) :
    (r.slots.push slot)[j]? = if j = r.slots.size then some slot else r.slots[j]? :=
  Array.getElem?_push

namespace Consistent

variable {r : Registry}

/-- The item at an index that is in use is nowhere else. -/
theorem index_unique (h : r.Consistent) {item : String} {i j : Nat}
    (hi : r.slots[i]? = some (some item)) (hj : r.slots[j]? = some (some item)) : i = j := by
  have hi := (h.inverse item i).2 hi
  have hj := (h.inverse item j).2 hj
  rw [hi] at hj
  exact Option.some.inj hj

/-- The index that comes out of the free list is vacant. -/
theorem vacant_of_pop? (h : r.Consistent) {i : Nat} {free : FreeList}
    (hpop : r.free.pop? = some (i, free)) : r.slots[i]? = some none :=
  (h.vacant i).1 (by rw [FreeList.eq_push_of_pop? hpop]; exact List.mem_cons_self)

/-- Putting a new item at the index that comes out of the free list. -/
theorem recycle (h : r.Consistent) {item : String} (hnew : r.indexes[item]? = none) {i : Nat}
    {free : FreeList} (hpop : r.free.pop? = some (i, free)) :
    (r.recycle item i free).Consistent := by
  have hvacant := h.vacant_of_pop? hpop
  have hlt : i < r.slots.size := (Array.getElem?_eq_some_iff.1 hvacant).1
  have hfree : r.free.indexes = i :: free.indexes := by rw [FreeList.eq_push_of_pop? hpop]; rfl
  have hnodup := h.nodup
  rw [hfree, List.nodup_cons] at hnodup
  refine ⟨fun other j => ?_, fun j => ?_, hnodup.2⟩
  · have hother := h.inverse other j
    simp only [Registry.recycle, getElem?_indexes_insert, getElem?_slots_set _ _ hlt]
    by_cases hij : i = j
    · subst hij
      by_cases ho : item = other
      · simp [ho]
      · simpa [ho, hvacant] using hother
    · by_cases ho : item = other
      · subst ho
        simpa [hij, hnew] using hother
      · simpa [ho, hij] using hother
  · have hj := h.vacant j
    rw [hfree, List.mem_cons] at hj
    simp only [Registry.recycle, getElem?_slots_set _ _ hlt]
    by_cases hij : i = j
    · subst hij
      simpa using hnodup.1
    · simpa [hij, Ne.symm hij] using hj

/-- Putting a new item at a fresh index. -/
theorem append (h : r.Consistent) {item : String} (hnew : r.indexes[item]? = none) :
    (r.append item).Consistent := by
  have hfresh : r.slots[r.slots.size]? = none := Array.getElem?_eq_none (Nat.le_refl _)
  refine ⟨fun other j => ?_, fun j => ?_, h.nodup⟩
  · have hother := h.inverse other j
    simp only [Registry.append, getElem?_indexes_insert, getElem?_slots_push]
    by_cases hj : j = r.slots.size
    · subst hj
      by_cases ho : item = other
      · simp [ho]
      · simpa [ho, hfresh] using hother
    · by_cases ho : item = other
      · subst ho
        simpa [hj, Ne.symm hj, hnew] using hother
      · simpa [ho, hj] using hother
  · have hv := h.vacant j
    simp only [Registry.append, getElem?_slots_push]
    by_cases hj : j = r.slots.size
    · subst hj
      simpa [hfresh] using hv
    · simpa [hj] using hv

/-- Taking a live item from its index. -/
theorem vacate (h : r.Consistent) {item : String} {i : Nat} (hlive : r.indexes[item]? = some i) :
    (r.vacate item i).Consistent := by
  have hslot := (h.inverse item i).1 hlive
  have hlt : i < r.slots.size := (Array.getElem?_eq_some_iff.1 hslot).1
  refine ⟨fun other j => ?_, fun j => ?_, ?_⟩
  · have hother := h.inverse other j
    simp only [Registry.vacate, getElem?_indexes_erase, getElem?_slots_set _ _ hlt]
    by_cases hij : i = j
    · subst hij
      by_cases ho : item = other
      · simp [ho]
      · simpa [ho, hslot] using hother
    · by_cases ho : item = other
      · subst ho
        have : r.slots[j]? ≠ some (some item) := fun hj => hij (h.index_unique hslot hj)
        simpa [hij] using this
      · simpa [ho, hij] using hother
  · have hj := h.vacant j
    simp only [Registry.vacate, FreeList.push, List.mem_cons, getElem?_slots_set _ _ hlt]
    by_cases hij : i = j
    · subst hij
      simp
    · simpa [hij, Ne.symm hij] using hj
  · refine List.nodup_cons.2 ⟨fun hmem => ?_, h.nodup⟩
    have := (h.vacant i).1 hmem
    simp [hslot] at this

theorem upsert (h : r.Consistent) (item : String) : (r.upsert item).2.Consistent := by
  unfold Registry.upsert
  split
  · exact h
  · next hnew =>
    split
    · next hpop => exact h.recycle hnew hpop
    · exact h.append hnew

end Consistent

end FacetIndex.Registry
