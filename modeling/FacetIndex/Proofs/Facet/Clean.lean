import FacetIndex.Proofs.Facet.Access
import FacetIndex.Proofs.Registry.LiveSet

/-!
# Facets without stale bits

A facet is clean with respect to a registry (`FacetIndex.Facet.Clean`) if every one that
it stores is at the index of a live item. Its bitmap may be shorter than the registry,
never longer, and has nothing in the padding: a one there would come into view when the
bitmap grows.

Cleanliness is kept by all that happens to a facet or to its registry. The delicate one
is removing an item: the facet gives up the index (`FacetIndex.Facet.forget`) at the
moment the registry vacates it, and not a bit else
(`FacetIndex.Facet.Clean.forget_vacate`). Making an item live needs nothing of the
facets, because the index was out of use before (`FacetIndex.Facet.Clean.of_admits`).
-/

namespace FacetIndex.Facet

/-- **Every one of the facet is at the index of a live item.** -/
structure Clean (f : Facet) (r : Registry) : Prop where
  /-- There are as many blocks as the size asks for, and no one past the size. -/
  canonical : f.bits.Canonical
  /-- The facet covers no index that was never made. -/
  size_le : f.bits.size ≤ r.capacity
  /-- Where a one is stored there is an item. -/
  live : ∀ i, f.bits.stored i = true → ∃ item, r.slots[i]? = some (some item)

/-- Nothing that is written to the facet through the registry, and nothing that it
forgets, is at an index that no bitmap can grow to cover. -/
structure HasRoom (f : Facet) (r : Registry) : Prop where
  setIndex : ∀ i n, f.setIndex? (some r) i ≠ .error (.noRoom n)
  setItem : ∀ item n, f.setItem? (some r) item ≠ .error (.noRoom n)
  unsetIndex : ∀ i n, f.unsetIndex? (some r) i ≠ .error (.noRoom n)
  unsetItem : ∀ item n, f.unsetItem? (some r) item ≠ .error (.noRoom n)
  /-- What is forgotten could have been unset as well. -/
  forget : ∀ i, f.bits.contains i = true → f.bits.unset? i = .ok (true, (f.forget i).bits)

variable {f : Facet} {r r' : Registry} {item : String} {i : Nat}

/-- A new facet is clean. -/
theorem clean_zeros (name displayName aspect : String) (r : Registry) :
    Clean ⟨name, displayName, aspect, .zeros r.capacity⟩ r where
  canonical := Bitmap.canonical_zeros r.capacity
  size_le := Nat.le_of_eq (Bitmap.size_zeros r.capacity)
  live i hi := by
    rw [Bitmap.stored_zeros] at hi
    cases hi

/-! ### Forgetting an index -/

/-- **Forgetting an index takes the one from there** and changes nothing else; a facet
that does not reach the index is not made longer. -/
theorem forget_spec (h : f.bits.Canonical) (i : Nat) :
    (f.forget i).bits.Canonical ∧ (f.forget i).bits.size = f.bits.size ∧
      ∀ j, (f.forget i).bits.stored j = (f.bits.stored j && j != i) := by
  rw [Facet.forget]
  split
  · next hi =>
    have hlt : i < f.bits.size := h.lt_size ((h.contains_eq i).symm.trans hi)
    refine ⟨h.erase i, ?_, Bitmap.stored_erase h.wellSized i⟩
    rw [Bitmap.size_erase]
    omega
  · next hi =>
    refine ⟨h, rfl, ?_⟩
    intro j
    rcases eq_or_ne j i with rfl | hne
    · rw [h.contains_eq, Bool.not_eq_true] at hi
      rw [hi]
      rfl
    · rw [bne_iff_ne.2 hne, Bool.and_true]

namespace Clean

/-! ### What keeps a facet clean -/

theorem mark (h : f.Clean r) (hi : r.slots[i]? = some (some item)) : (f.mark i).Clean r where
  canonical := h.canonical.insert i
  size_le := by
    have hlt := Registry.lt_capacity hi
    have hle := h.size_le
    rw [Facet.mark, Bitmap.size_insert]
    omega
  live j hj := by
    rw [Facet.mark, Bitmap.stored_insert h.canonical.wellSized, Bool.or_eq_true, beq_iff_eq] at hj
    rcases hj with hj | rfl
    · exact h.live j hj
    · exact ⟨item, hi⟩

theorem unmark (h : f.Clean r) (hi : i < r.capacity) : (f.unmark i).Clean r where
  canonical := h.canonical.erase i
  size_le := by
    have hle := h.size_le
    rw [Facet.unmark, Bitmap.size_erase]
    omega
  live j hj := by
    rw [Facet.unmark, Bitmap.stored_erase h.canonical.wellSized, Bool.and_eq_true] at hj
    exact h.live j hj.1

/-- **Vacating an index and forgetting it at once leaves no stale bit.** -/
theorem forget_vacate (h : f.Clean r) (item : String) (i : Nat) :
    (f.forget i).Clean (r.vacate item i) := by
  obtain ⟨hcanonical, hsize, hstored⟩ := forget_spec h.canonical i
  refine ⟨hcanonical, ?_, fun j hj => ?_⟩
  · have hle := h.size_le
    rw [hsize]
    simpa [Registry.capacity, Registry.vacate] using hle
  · -- A one that is left is at another index, where the item did not change.
    rw [hstored, Bool.and_eq_true, bne_iff_ne] at hj
    obtain ⟨other, hother⟩ := h.live j hj.1
    refine ⟨other, ?_⟩
    rw [Registry.vacate, Array.getElem?_setIfInBounds, if_neg (Ne.symm hj.2), hother]

theorem of_admits (h : f.Clean r) (ha : r.Admits item i r') : f.Clean r' where
  canonical := h.canonical
  size_le := Nat.le_trans h.size_le ha.capacity_le
  live j hj := by
    obtain ⟨other, hother⟩ := h.live j hj
    rcases eq_or_ne j i with rfl | hne
    -- There was no one at the index of the new item, since no item was there.
    · exact absurd hother (ha.unused other)
    · exact ⟨other, by rw [ha.slots, if_neg hne, hother]⟩

/-! ### What a clean facet answers -/

/-- **An index that is out of use has no property.** -/
theorem stored_eq_false (h : f.Clean r) (hi : ∀ item, r.slots[i]? ≠ some (some item)) :
    f.bits.stored i = false := by
  rw [Bool.eq_false_iff]
  intro hone
  obtain ⟨item, hitem⟩ := h.live i hone
  exact hi item hitem

theorem contains_eq (h : f.Clean r) (i : Nat) : f.bits.contains i = f.bits.stored i :=
  h.canonical.contains_eq i

theorem slot_of_mem_indexes (h : f.Clean r) (hi : i ∈ f.indexes) :
    ∃ item, r.slots[i]? = some (some item) :=
  h.live i ((Bitmap.mem_toList_iff f.bits i).1 hi)

/-- The items of a clean facet can be listed. -/
theorem items?_eq_ok (h : f.Clean r) :
    ∃ items, f.items? (some r) = .ok items ∧
      List.Forall₂ (fun i item => r.slots[i]? = some (some item)) f.indexes items :=
  Registry.mapM_itemAt f.indexes fun _ hi => h.slot_of_mem_indexes hi

theorem length_indexes (h : f.Clean r) : f.indexes.length = f.count :=
  h.canonical.count_eq_length_toList.symm

/-- No index of a clean facet is missing among those of the live items. -/
theorem diffCount_liveSet (h : f.Clean r) : f.bits.diffCount r.liveSet = 0 := by
  have hnone : (f.bits.diff r.liveSet).toList = [] := by
    refine List.eq_nil_iff_forall_not_mem.2 fun i hi => ?_
    rw [Bitmap.mem_toList_iff, Bitmap.stored_diff, Bool.and_eq_true, Bool.not_eq_true'] at hi
    have hlive := (Registry.stored_liveSet_iff r).2 (h.live i hi.1)
    rw [hi.2] at hlive
    cases hlive
  rw [Bitmap.diffCount, Bitmap.combineCount_eq_length]
  exact congrArg List.length hnone

end Clean

/-! ### Room -/

theorem write?_ne_noRoom (hi : i < maxIndex) (n : Nat) : f.write? i ≠ .error (.noRoom n) := by
  rw [write?_eq, if_pos hi]
  exact fun h => by cases h

theorem wipe?_ne_noRoom (hi : i < maxIndex) (n : Nat) : f.wipe? i ≠ .error (.noRoom n) := by
  rw [wipe?_eq, if_pos hi]
  exact fun h => by cases h

/-- **As long as indexes can be written in sixty-four bits, room never runs out**: every
index that passes the registry is below the capacity. -/
theorem Clean.hasRoom (h : f.Clean r) (hconsistent : r.Consistent)
    (hcapacity : r.capacity ≤ maxIndex) : f.HasRoom r where
  setIndex i n := by
    rcases r.slot_cases i with ⟨item, hi⟩ | hi | ⟨-, hi⟩
    · rw [setIndex?_of_item f hi]
      exact write?_ne_noRoom (Nat.lt_of_lt_of_le (Registry.lt_capacity hi) hcapacity) n
    · rw [setIndex?_of_vacant f hi]
      exact fun h => by cases h
    · rw [setIndex?_of_le f hi]
      exact fun h => by cases h
  setItem item n := by
    rcases hi : r.indexes[item]? with _ | i
    · rw [setItem?_of_absent f hi]
      exact fun h => by cases h
    · have hlt := Registry.lt_capacity (hconsistent.slot_of_indexes hi)
      rw [setItem?_of_live f hi]
      exact write?_ne_noRoom (Nat.lt_of_lt_of_le hlt hcapacity) n
  unsetIndex i n := by
    rcases Nat.lt_or_ge i r.capacity with hi | hi
    · rw [unsetIndex?_of_lt f hi]
      exact wipe?_ne_noRoom (Nat.lt_of_lt_of_le hi hcapacity) n
    · rw [unsetIndex?_of_le f hi]
      exact fun h => by cases h
  unsetItem item n := by
    rcases hi : r.indexes[item]? with _ | i
    · rw [unsetItem?_of_absent f hi]
      exact fun h => by cases h
    · have hlt := Registry.lt_capacity (hconsistent.slot_of_indexes hi)
      rw [unsetItem?_of_live f hi]
      exact wipe?_ne_noRoom (Nat.lt_of_lt_of_le hlt hcapacity) n
  forget i hi := by
    have hstored : f.bits.stored i = true := (h.contains_eq i).symm.trans hi
    have hlt : i < maxIndex := by
      have := h.canonical.lt_size hstored
      have := h.size_le
      omega
    rw [Bitmap.unset?, Bitmap.checkRoom, if_pos hlt, hstored, Facet.forget, if_pos hi]
    rfl

end FacetIndex.Facet
