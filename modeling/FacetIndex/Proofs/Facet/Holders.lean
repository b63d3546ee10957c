import FacetIndex.Proofs.Facet.Clean
import Mathlib.Data.Finset.Card
import Mathlib.Data.Finset.Insert

/-!
# The items that hold a property

A facet is a set of indexes, but what a user gives it and takes from it are items.
`FacetIndex.Facet.HeldBy` says of a set of items that the facet stands for it: every
member is live, and its index is one of the facet's. No item outside the set is at such
an index, because two live items never share one.

Whatever happens to a facet happens to the set. The case to look at is an index that
changes hands. The item that left takes its index along out of the facet
(`FacetIndex.Facet.HeldBy.forget_vacate`), so a new item finds its index without a one,
and the set is the same with it as without
(`FacetIndex.Facet.HeldBy.of_admits`).
-/

namespace FacetIndex.Facet

/-- **The facet stands for this set of items.** -/
def HeldBy (f : Facet) (r : Registry) (holders : Finset String) : Prop :=
  ∀ item, item ∈ holders ↔ ∃ i, r.indexes[item]? = some i ∧ f.bits.stored i = true

variable {f : Facet} {r r' : Registry} {holders : Finset String} {item : String} {i : Nat}

theorem heldBy_zeros (name displayName aspect : String) (n : Nat) (r : Registry) :
    HeldBy ⟨name, displayName, aspect, .zeros n⟩ r ∅ := by
  intro item
  refine iff_of_false (Finset.notMem_empty item) ?_
  rintro ⟨i, -, hone⟩
  rw [Bitmap.stored_zeros] at hone
  cases hone

namespace HeldBy

/-- A holder is live. -/
theorem contains (h : f.HeldBy r holders) (hitem : item ∈ holders) : r.contains item = true := by
  obtain ⟨i, hi, -⟩ := (h item).1 hitem
  exact Registry.contains_iff.2 ⟨i, hi⟩

/-- A live item is a holder exactly if the facet has its index. -/
theorem mem_iff (h : f.HeldBy r holders) (hi : r.indexes[item]? = some i) :
    item ∈ holders ↔ f.bits.stored i = true := by
  rw [h item]
  constructor
  · rintro ⟨j, hj, hone⟩
    obtain rfl : i = j := Option.some.inj (hi.symm.trans hj)
    exact hone
  · exact fun hone => ⟨i, hi, hone⟩

/-! ### Giving and taking -/

theorem mark (h : f.HeldBy r holders) (hconsistent : r.Consistent) (hcanonical : f.bits.Canonical)
    (hi : r.indexes[item]? = some i) : (f.mark i).HeldBy r (insert item holders) := by
  intro other
  rw [Finset.mem_insert, h other]
  simp only [Facet.mark, Bitmap.stored_insert hcanonical.wellSized, Bool.or_eq_true, beq_iff_eq]
  constructor
  · rintro (rfl | ⟨j, hj, hone⟩)
    · exact ⟨i, hi, Or.inr rfl⟩
    · exact ⟨j, hj, Or.inl hone⟩
  · rintro ⟨j, hj, hone | rfl⟩
    · exact Or.inr ⟨j, hj, hone⟩
    · exact Or.inl (hconsistent.item_unique hj hi)

theorem unmark (h : f.HeldBy r holders) (hconsistent : r.Consistent)
    (hcanonical : f.bits.Canonical) (hi : r.indexes[item]? = some i) :
    (f.unmark i).HeldBy r (holders.erase item) := by
  intro other
  rw [Finset.mem_erase, h other]
  simp only [Facet.unmark, Bitmap.stored_erase hcanonical.wellSized, Bool.and_eq_true, bne_iff_ne]
  constructor
  · rintro ⟨hne, j, hj, hone⟩
    refine ⟨j, hj, hone, ?_⟩
    rintro rfl
    exact hne (hconsistent.item_unique hj hi)
  · rintro ⟨j, hj, hone, hne⟩
    refine ⟨?_, j, hj, hone⟩
    rintro rfl
    exact hne (Option.some.inj (hj.symm.trans hi))

/-- Taking a property from a free index takes it from nobody, though the facet may grow to
cover the index. -/
theorem unmark_free (h : f.HeldBy r holders) (hconsistent : r.Consistent)
    (hcanonical : f.bits.Canonical) (hi : ∀ item, r.slots[i]? ≠ some (some item)) :
    (f.unmark i).HeldBy r holders := by
  intro other
  rw [h other]
  refine exists_congr fun j => and_congr_right fun hj => ?_
  have hne : j ≠ i := by
    rintro rfl
    exact hi other (hconsistent.slot_of_indexes hj)
  rw [Facet.unmark, Bitmap.stored_erase hcanonical.wellSized, bne_iff_ne.2 hne, Bool.and_true]

/-! ### Items that come and go -/

/-- **A new item has no property**, whoever held its index before. -/
theorem of_admits (h : f.HeldBy r holders) (hclean : f.Clean r) (hnew : r.indexes[item]? = none)
    (ha : r.Admits item i r') : f.HeldBy r' holders := by
  intro other
  rw [h other]
  refine exists_congr fun j => ?_
  rw [ha.indexes other]
  split
  · next heq =>
    -- The new item is no holder, and its index was not in use, so there is a zero.
    subst heq
    have hzero : f.bits.stored i = false := hclean.stored_eq_false ha.unused
    refine iff_of_false (fun hold => ?_) ?_
    · rw [hnew] at hold
      cases hold.1
    · rintro ⟨hj, hone⟩
      obtain rfl : i = j := Option.some.inj hj
      rw [hzero] at hone
      cases hone
  · exact Iff.rfl

/-- **An item that leaves gives up the property.** -/
theorem forget_vacate (h : f.HeldBy r holders) (hconsistent : r.Consistent)
    (hcanonical : f.bits.Canonical) (hi : r.indexes[item]? = some i) :
    (f.forget i).HeldBy (r.vacate item i) (holders.erase item) := by
  obtain ⟨-, -, hstored⟩ := forget_spec hcanonical i
  have hindexes : ∀ other, (r.vacate item i).indexes[other]? =
      if item = other then none else r.indexes[other]? := fun other =>
    Registry.getElem?_indexes_erase r item other
  intro other
  rw [Finset.mem_erase, h other]
  simp only [hindexes, hstored, Bool.and_eq_true, bne_iff_ne]
  constructor
  -- No other holder has the index that is forgotten.
  · rintro ⟨hne, j, hj, hone⟩
    refine ⟨j, by rw [if_neg (Ne.symm hne), hj], hone, ?_⟩
    rintro rfl
    exact hne (hconsistent.item_unique hj hi)
  · rintro ⟨j, hj, hone, -⟩
    split at hj
    · cases hj
    · next hne => exact ⟨Ne.symm hne, j, hj, hone⟩

/-! ### What the facet answers -/

variable (h : f.HeldBy r holders) (hclean : f.Clean r)

include h hclean

theorem getItem?_of_live (hi : r.indexes[item]? = some i) :
    f.getItem? (some r) item = .ok (decide (item ∈ holders)) := by
  rw [Facet.getItem?_of_live f hi, hclean.contains_eq]
  exact congrArg Except.ok (Bool.eq_iff_iff.2 ((h.mem_iff hi).symm.trans decide_eq_true_iff.symm))

/-- **Listing the items lists the holders, each once.** -/
theorem items?_spec (hconsistent : r.Consistent) :
    ∃ items, f.items? (some r) = .ok items ∧ items.length = f.count ∧ items.Nodup ∧
      ∀ item, item ∈ items ↔ item ∈ holders := by
  have hmem : ∀ i, i ∈ f.indexes ↔
      ∃ item, r.slots[i]? = some (some item) ∧ decide (item ∈ holders) = true := by
    intro i
    rw [indexes, Bitmap.mem_toList_iff]
    constructor
    · intro hone
      obtain ⟨item, hitem⟩ := hclean.live i hone
      refine ⟨item, hitem, decide_eq_true ?_⟩
      exact (h.mem_iff (hconsistent.indexes_of_slot hitem)).2 hone
    · rintro ⟨item, hitem, hholds⟩
      exact (h.mem_iff (hconsistent.indexes_of_slot hitem)).1 (of_decide_eq_true hholds)
  obtain ⟨items, hitems, hlength, hnodup, hholders⟩ :=
    hconsistent.mapM_itemAt_spec (Bitmap.nodup_toList _) hmem
  refine ⟨items, hitems, hlength.trans hclean.length_indexes, hnodup, ?_⟩
  intro item
  refine (hholders item).trans ?_
  rw [decide_eq_true_iff]
  exact and_iff_right_of_imp h.contains

/-- Counting counts the holders. -/
theorem count_eq_card (hconsistent : r.Consistent) : f.count = holders.card := by
  obtain ⟨items, -, hlength, hnodup, hmem⟩ := h.items?_spec hclean hconsistent
  have hset : items.toFinset = holders := by
    ext item
    rw [List.mem_toFinset, hmem]
  rw [← hlength, ← hset, List.toFinset_card_of_nodup hnodup]

end HeldBy

end FacetIndex.Facet
