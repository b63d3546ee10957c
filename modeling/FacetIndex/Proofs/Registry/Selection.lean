import FacetIndex.Proofs.Facet.Clean
import Mathlib.Data.Set.Card

/-!
# Bitmaps that select items

A bitmap over the indexes of a registry stands for a property of items
(`FacetIndex.Registry.Selects`): at the index of a live item it has a one exactly if the
item has the property. About the indexes that are free nothing is said. A complement has
ones there, and so may whatever is built from it; this is why the bitmap is intersected
with that of the live items before it is read as a set of items
(`FacetIndex.Registry.Selects.mem_toList_inter_liveSet`).

Properties are combined as bitmaps are. The bitmaps may differ in size, as long as none
is longer than the registry: where one ends it reads as a zero, and what it says of the
items there is that they lack the property.
-/

namespace FacetIndex.Registry

/-- **The bitmap selects the items with the property `sat` among the live ones.** -/
structure Selects (r : Registry) (s : Bitmap) (sat : String → Bool) : Prop where
  /-- There are as many blocks as the size asks for, and no one past the size. -/
  canonical : s.Canonical
  /-- The bitmap covers no index that was never made. -/
  size_le : s.size ≤ r.capacity
  /-- At the index of a live item stands whether the item has the property. -/
  stored : ∀ {item : String} {i : Nat}, r.slots[i]? = some (some item) → s.stored i = sat item

variable {r : Registry} {s t : Bitmap} {p q : String → Bool}

/-! ### Building bitmaps -/

theorem selects_emptySet (r : Registry) : r.Selects r.emptySet fun _ => false where
  canonical := Bitmap.canonical_zeros r.capacity
  size_le := Nat.le_of_eq (Bitmap.size_zeros r.capacity)
  stored _ := Bitmap.stored_zeros r.capacity _

theorem selects_liveSet (r : Registry) : r.Selects r.liveSet fun _ => true where
  canonical := r.canonical_liveSet
  size_le := Nat.le_of_eq r.size_liveSet
  stored hi := r.stored_liveSet_iff.2 ⟨_, hi⟩

/-- **Combining bitmaps combines the properties.** -/
theorem Selects.combine {op : WordOp} {f : Bool → Bool → Bool}
    (hf : Word.Pointwise op.combine f) (hzero : f false false = false)
    (hs : r.Selects s p) (ht : r.Selects t q) :
    r.Selects (Bitmap.combine op s t) fun item => f (p item) (q item) where
  canonical := hs.canonical.combine (hf.keepsZeros hzero) ht.canonical
  size_le := by
    rw [Bitmap.size_combine]
    exact Nat.max_le.2 ⟨hs.size_le, ht.size_le⟩
  stored hi := by rw [Bitmap.stored_combine_of_zero hf hzero, hs.stored hi, ht.stored hi]

/-- **Complementing over the capacity negates the property**, however short the bitmap
is: it covers the index of every live item by then. -/
theorem Selects.complementWithin (hs : r.Selects s p) :
    r.Selects (s.complementWithin r.capacity) fun item => !p item where
  canonical := hs.canonical.complementWithin r.capacity
  size_le := by
    rw [Bitmap.size_complementWithin]
    exact Nat.max_le.2 ⟨hs.size_le, Nat.le_refl _⟩
  stored {item i} hi := by
    have hcovered : i < max s.size r.capacity :=
      Nat.lt_of_lt_of_le (lt_capacity hi) (Nat.le_max_right ..)
    rw [Bitmap.stored_complementWithin hs.canonical.wellSized, decide_eq_true hcovered,
      hs.stored hi, Bool.true_and]

/-! ### Reading bitmaps -/

namespace Selects

/-- At the index of an item the bitmap says whether the item has the property. -/
theorem contains_eq (hs : r.Selects s p) (h : r.Consistent) {item : String} {i : Nat}
    (hi : r.indexOf item = .ok i) : s.contains i = p item := by
  rw [hs.canonical.contains_eq]
  exact hs.stored (h.slot_of_indexes (indexOf_eq_ok_iff.1 hi))

/-- Intersected with the live items, the bitmap lists the indexes of the items with the
property. -/
theorem mem_toList_inter_liveSet (hs : r.Selects s p) {i : Nat} :
    i ∈ (s.inter r.liveSet).toList ↔
      ∃ item, r.slots[i]? = some (some item) ∧ p item = true := by
  rw [Bitmap.mem_toList_iff, Bitmap.stored_inter, Bool.and_eq_true, stored_liveSet_iff]
  constructor
  · rintro ⟨hone, item, hitem⟩
    exact ⟨item, hitem, (hs.stored hitem).symm.trans hone⟩
  · rintro ⟨item, hitem, hsat⟩
    exact ⟨(hs.stored hitem).trans hsat, item, hitem⟩

/-- **Counting without building counts the live items with the property.** -/
theorem interCount_liveSet (hs : r.Selects s p) (h : r.Consistent) :
    s.interCount r.liveSet = {item | r.contains item = true ∧ p item = true}.ncard := by
  obtain ⟨items, -, hlength, hnodup, hmem⟩ :=
    h.mapM_itemAt_spec (s.inter r.liveSet).nodup_toList fun i => hs.mem_toList_inter_liveSet
  have hset : {item | r.contains item = true ∧ p item = true} = ↑items.toFinset := by
    ext item
    rw [Finset.mem_coe, List.mem_toFinset, hmem]
    exact Iff.rfl
  rw [hset, Set.ncard_coe_finset, List.toFinset_card_of_nodup hnodup, hlength]
  exact Bitmap.combineCount_eq_length _ s r.liveSet

end Selects

/-! ### Facets -/

/-- **A clean facet selects the items that it answers yes to.** -/
theorem Consistent.selects_bits (h : r.Consistent) {f : Facet} (hf : f.Clean r) :
    r.Selects f.bits fun item => f.getItem? (some r) item = .ok true where
  canonical := hf.canonical
  size_le := hf.size_le
  stored hi := by
    rw [f.getItem?_of_live (h.indexes_of_slot hi), hf.contains_eq]
    cases f.bits.stored _ <;> rfl

end FacetIndex.Registry
