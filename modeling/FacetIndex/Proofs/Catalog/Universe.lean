import FacetIndex.Proofs.Catalog.Complements
import FacetIndex.Proofs.Registry.Selection

/-!
# The live items among the indexes that were made

What is live can be asked of four records: the slots, the index of the names, the free list
and the bitmap `FacetIndex.Registry.liveSet`. They give the same answer, and in the same
order: the bitmap lists the indexes in use from the first to the last, and at these indexes
are the items as they are listed (`FacetIndex.Registry.forall₂_toList_liveSet`). It is made
over all indexes from the start and never has to grow
(`FacetIndex.Registry.size_foldl_enter`), and it is all ones exactly if no index is free
(`FacetIndex.Registry.Consistent.liveSet_eq_ones_iff`).

With the list in step with the bitmap, whatever a bitmap selects is counted among the items
(`FacetIndex.Registry.Selects.interCount_eq_countP`). A facet selects those that have the
property, and its complement those that lack it, so that the two counts add up to that of
all live items. The complement by itself has the free indexes as well, which is the
difference between what lacks the property and what is without it.
-/

namespace FacetIndex

/-! ### The bitmap, the list and the counts -/

/-- A combination that stores the ones of a canonical bitmap has the count of it. -/
theorem Bitmap.Canonical.combineCount_of_stored {op : WordOp} {s t u : Bitmap} (hu : u.Canonical)
    (h : ∀ i, (Bitmap.combine op s t).stored i = u.stored i) : combineCount op s t = u.count := by
  rw [combineCount_eq_length, toList_congr h, hu.count_eq_length_toList]

namespace Registry

variable {r : Registry} {s : Bitmap} {p : String → Bool}

/-- The places that are filled, in ascending order, hold the entries in their order. -/
theorem forall₂_filter_range {α : Type} (slots : List (Option α)) :
    List.Forall₂ (fun i a => slots[i]? = some (some a))
      ((List.range slots.length).filter fun i => slots[i]?.any Option.isSome)
      (slots.filterMap id) := by
  induction slots with
  | nil => exact .nil
  | cons slot slots ih =>
    have hrest : List.Forall₂ (fun i a => (slot :: slots)[i]? = some (some a))
        (((List.range slots.length).filter fun i => slots[i]?.any Option.isSome).map Nat.succ)
        (slots.filterMap id) :=
      List.forall₂_map_left_iff.2 ih
    rw [filter_range_cons]
    cases slot with
    | none => exact hrest
    | some a => exact .cons rfl hrest

/-- **The indexes in use, from the first to the last, hold the items as they are
listed.** -/
theorem forall₂_toList_liveSet (r : Registry) :
    List.Forall₂ (fun i item => r.slots[i]? = some (some item)) r.liveSet.toList r.items := by
  have hplaces := forall₂_filter_range r.slots.toList
  simp only [Array.getElem?_toList, Array.length_toList] at hplaces
  rw [r.canonical_liveSet.toList_eq, r.size_liveSet, funext r.liveSet_spec.2.2]
  exact hplaces

/-- Resolving the indexes in use gives the list of the items. -/
theorem mapM_itemAt_liveSet (r : Registry) : r.liveSet.toList.mapM r.itemAt = .ok r.items := by
  have hall := r.forall₂_toList_liveSet
  generalize r.liveSet.toList = indexes, r.items = items at hall
  induction hall with
  | nil => rfl
  | cons hitem _ ih =>
    rw [List.mapM_cons, itemAt_eq_ok_iff.2 hitem, ih]
    rfl

theorem contains_liveSet_iff (r : Registry) (i : Nat) :
    r.liveSet.contains i = true ↔ ∃ item, r.itemAt i = .ok item := by
  rw [r.canonical_liveSet.contains_eq, stored_liveSet_iff]
  exact exists_congr fun item => itemAt_eq_ok_iff.symm

/-- **While the bitmap of the live items is built it never grows**: it covers every index
from the start. -/
theorem size_foldl_enter (r : Registry) {seen : List (Option String)}
    (hseen : seen <+: r.slots.toList) :
    (seen.zipIdx.foldl enter r.emptySet).size = r.capacity := by
  have hlength := hseen.length_le
  rw [Array.length_toList] at hlength
  refine (foldl_enter seen 0 (Bitmap.canonical_zeros r.capacity) ?_).2.1
  rw [Nat.zero_add]
  exact hlength

/-- **The indexes in use are as many as the names.** -/
theorem Consistent.count_liveSet (h : r.Consistent) : r.liveSet.count = r.count := by
  rw [r.canonical_liveSet.count_eq_length_toList, r.forall₂_toList_liveSet.length_eq,
    h.length_items]

/-- **All indexes are in use exactly if none is free.** -/
theorem Consistent.liveSet_eq_ones_iff (h : r.Consistent) :
    r.liveSet = .ones r.capacity ↔ r.free.isEmpty = true := by
  rw [FreeList.isEmpty, List.isEmpty_iff]
  constructor
  · intro heq
    refine List.eq_nil_iff_forall_not_mem.2 fun i hi => ?_
    have hvacant := (h.vacant i).1 hi
    have hone : r.liveSet.stored i = true := by
      rw [heq, Bitmap.stored_ones]
      exact decide_eq_true (lt_capacity hvacant)
    obtain ⟨item, hitem⟩ := r.stored_liveSet_iff.1 hone
    rw [hvacant] at hitem
    cases hitem
  · intro hfree
    refine Bitmap.ext_stored r.canonical_liveSet.wellSized
      (Bitmap.canonical_ones r.capacity).wellSized r.size_liveSet fun i => ?_
    rw [Bitmap.stored_ones, Bool.eq_iff_iff, stored_liveSet_iff, decide_eq_true_iff]
    -- A vacant index would be free, and none is.
    rcases r.slot_cases i with ⟨item, hi⟩ | hi | ⟨hi, hle⟩
    · exact iff_of_true ⟨item, hi⟩ (lt_capacity hi)
    · have hmem := (h.vacant i).2 hi
      rw [hfree] at hmem
      cases hmem
    · refine iff_of_false ?_ (Nat.not_lt.2 hle)
      rintro ⟨item, hitem⟩
      rw [hi] at hitem
      cases hitem

/-- The selected indexes in use are listed in step with the selected items. -/
theorem Selects.toList_inter_liveSet (hs : r.Selects s p) :
    (s.inter r.liveSet).toList = r.liveSet.toList.filter s.stored := by
  have hcanonical : (s.inter r.liveSet).Canonical :=
    hs.canonical.combine WordOp.keepsZeros_and r.canonical_liveSet
  have hsize : (s.inter r.liveSet).size = r.liveSet.size := by
    rw [Bitmap.inter, Bitmap.size_combine, r.size_liveSet, Nat.max_eq_right hs.size_le]
  rw [hcanonical.toList_eq, r.canonical_liveSet.toList_eq, List.filter_filter, hsize]
  exact List.filter_congr fun i _ => Bitmap.stored_inter s r.liveSet i

/-- **What a bitmap selects is counted among the items.** -/
theorem Selects.interCount_eq_countP (hs : r.Selects s p) :
    s.interCount r.liveSet = r.items.countP p := by
  have hfilter : List.Forall₂ (fun i item => r.slots[i]? = some (some item))
      (r.liveSet.toList.filter s.stored) (r.items.filter p) :=
    List.rel_filter (fun _ _ hitem => Bool.eq_iff_iff.1 (hs.stored hitem)) r.forall₂_toList_liveSet
  rw [Bitmap.interCount, Bitmap.combineCount_eq_length, List.countP_eq_length_filter,
    ← hfilter.length_eq, ← hs.toList_inter_liveSet]
  rfl

end Registry

/-! ### The items of a facet and of its complement -/

namespace Facet

variable {f : Facet} {r : Registry}

/-- **The complement of a clean facet selects the items that the facet answers no to.** -/
theorem Clean.selects_complement (h : f.Clean r) (hr : r.Consistent) :
    r.Selects (f.complement (some r)) fun item => f.getItem? (some r) item = .ok false where
  canonical := h.isComplement.canonical
  size_le := Nat.le_of_eq h.isComplement.size
  stored hi := by
    have hcomplement := h.isComplement
    rw [← hcomplement.canonical.contains_eq, hcomplement.contains _ (Registry.lt_capacity hi),
      f.getItem?_of_live (hr.indexes_of_slot hi)]
    cases f.bits.contains _ <;> rfl

/-- Every one of a clean facet is at the index of a live item, so that counting the facet
counts items. -/
theorem Clean.interCount_liveSet (h : f.Clean r) : f.bits.interCount r.liveSet = f.count := by
  have hsame : ∀ i, (f.bits.inter r.liveSet).stored i = f.bits.stored i := by
    intro i
    rw [Bitmap.stored_inter, Bool.and_eq_left_iff_imp]
    intro hone
    exact r.stored_liveSet_iff.2 (h.live i hone)
  exact h.canonical.combineCount_of_stored hsame

/-- A clean facet adds nothing to the live items. -/
theorem Clean.unionCount_liveSet (h : f.Clean r) (hr : r.Consistent) :
    f.bits.unionCount r.liveSet = r.count := by
  have hsame : ∀ i, (f.bits.union r.liveSet).stored i = r.liveSet.stored i := by
    intro i
    rw [Bitmap.stored_union, Bool.or_eq_right_iff_imp]
    intro hone
    exact r.stored_liveSet_iff.2 (h.live i hone)
  exact (r.canonical_liveSet.combineCount_of_stored hsame).trans hr.count_liveSet

/-- **Every live item has the property or lacks it.** -/
theorem Clean.count_add_countP (h : f.Clean r) (hr : r.Consistent) :
    f.count + r.items.countP (fun item => f.getItem? (some r) item = .ok false) = r.count := by
  have hholds := (hr.selects_bits h).interCount_eq_countP
  have hlacks : r.items.countP (fun item => f.getItem? (some r) item = .ok false) =
      r.items.countP fun item => decide ¬decide (f.getItem? (some r) item = .ok true) = true := by
    refine List.countP_congr fun item hitem => ?_
    -- A live item is not refused, so what is not answered with a yes is with a no.
    obtain ⟨i, hi⟩ := Registry.contains_iff.1 (hr.mem_items_iff.1 hitem)
    rw [f.getItem?_of_live hi]
    cases f.bits.contains i <;> simp
  rw [← h.interCount_liveSet, hholds, hlacks, ← hr.length_items]
  exact (List.length_eq_countP_add_countP _).symm

end Facet

/-! ### After every history -/

namespace Catalog

variable {c : Catalog} {r : Registry}

/-- **The live items after every history.** Their bitmap covers the indexes made so far
from the beginning of its building to the end; it has the indexes that items are at, as
many as there are items; its list resolves to the list of the items, each live one of which
is there once; and it is all ones exactly if no index is free. Every facet divides it in
two: the items that have the property and those of its complement are all live items
together, and the facet has none besides. The complement by itself is larger than the number
of live items without the property, by the number of free indexes. -/
theorem universe_of_run (config : Config) (history : List Change)
    (hc : ((create config).run history).2 = c) (hlive : c.owner = some r) :
    (r.liveSet.size = r.capacity ∧
        ∀ seen, seen <+: r.slots.toList →
          (seen.zipIdx.foldl Registry.enter r.emptySet).size = r.capacity) ∧
      (∀ i, r.liveSet.contains i = true ↔ ∃ item, r.itemAt i = .ok item) ∧
      r.liveSet.count = r.count ∧
      r.liveSet.toList.Pairwise (· < ·) ∧
      r.liveSet.toList.mapM r.itemAt = .ok r.items ∧
      r.items.Nodup ∧
      (∀ item, item ∈ r.items ↔ r.contains item = true) ∧
      (r.liveSet = .ones r.capacity ↔ r.free.isEmpty = true) ∧
      r.count + r.free.size = r.capacity ∧
      ∀ F f, c.facetOf? F = some f →
        f.count + (f.complement c.owner).interCount r.liveSet = r.count ∧
        f.bits.unionCount r.liveSet = r.count ∧
        f.complementCount c.owner =
          r.items.countP (fun item => f.getItem? c.owner item = .ok false) +
            (r.capacity - r.count) := by
  subst hc
  have hclean := clean_of_run config history hlive
  have hr := hclean.consistent
  refine ⟨⟨r.size_liveSet, fun seen hseen => r.size_foldl_enter hseen⟩, r.contains_liveSet_iff,
    hr.count_liveSet, r.liveSet.pairwise_lt_toList, r.mapM_itemAt_liveSet, hr.nodup_items,
    fun item => hr.mem_items_iff, hr.liveSet_eq_ones_iff, hr.count_add_size_free,
    fun F f hF => ?_⟩
  have h := hclean.facets F f hF
  have hsum := h.count_add_countP hr
  have hcensus := hr.count_add_size_free
  have hcount : f.complementCount (some r) = r.capacity - f.count := by
    rw [h.complementCount_eq, h.isComplement.count]
    rfl
  rw [hlive]
  refine ⟨?_, h.unionCount_liveSet hr, by omega⟩
  rw [(h.selects_complement hr).interCount_eq_countP, hsum]

/-- One of three items was removed, and its index is free. The facet ends after the first
index; of the two indexes of its complement one is that of the only item without the
property. -/
theorem universe_of_run_freed :
    ∃ c r f, ((create {}).run [.newAspect "Kind" "Kind", .upsert "a",
        .newFacet ⟨0⟩ "new" "New", .setItem ⟨⟨0⟩, 0⟩ "a", .upsert "b", .upsert "c",
        .remove "b"]).2 = c ∧
      c.owner = some r ∧ c.facetOf? ⟨⟨0⟩, 0⟩ = some f ∧ f.bits.size = 1 ∧
      r.items = ["a", "c"] ∧ r.free.indexes = [1] ∧ r.liveSet.count = r.count ∧
      r.liveSet.toList.mapM r.itemAt = .ok r.items ∧ r.liveSet ≠ .ones r.capacity ∧
      f.count + (f.complement c.owner).interCount r.liveSet = r.count ∧
      f.bits.unionCount r.liveSet = r.count ∧
      f.complementCount c.owner =
        r.items.countP (fun item => f.getItem? c.owner item = .ok false) +
          (r.capacity - r.count) := by
  obtain ⟨c, hc⟩ : ∃ c, ((create {}).run [.newAspect "Kind" "Kind", .upsert "a",
      .newFacet ⟨0⟩ "new" "New", .setItem ⟨⟨0⟩, 0⟩ "a", .upsert "b", .upsert "c",
      .remove "b"]).2 = c := ⟨_, rfl⟩
  have hstate : c.owner.any (fun r => r.items = ["a", "c"] ∧ r.free.indexes = [1]) = true := by
    rw [← hc]
    decide +kernel
  have hfacet : (c.facetOf? ⟨⟨0⟩, 0⟩).any (fun f => f.bits.size = 1) = true := by
    rw [← hc]
    decide +kernel
  obtain ⟨r, hr, hfacts⟩ := (Option.any_eq_true _ _).1 hstate
  obtain ⟨f, hf, hsize⟩ := (Option.any_eq_true _ _).1 hfacet
  obtain ⟨hitems, hfree⟩ := of_decide_eq_true hfacts
  obtain ⟨-, -, hcount, -, hlist, -, -, hones, -, hfacets⟩ := universe_of_run {} _ hc hr
  obtain ⟨hsum, hunion, hlacks⟩ := hfacets _ f hf
  refine ⟨c, r, f, hc, hr, hf, of_decide_eq_true hsize, hitems, hfree, hcount, hlist, ?_, hsum,
    hunion, hlacks⟩
  intro heq
  have hempty := hones.1 heq
  rw [FreeList.isEmpty, hfree] at hempty
  cases hempty

end Catalog

end FacetIndex
