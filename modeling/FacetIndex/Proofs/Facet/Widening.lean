import FacetIndex.Proofs.Bitmap.Members
import FacetIndex.Proofs.Facet.Clean

/-!
# How far a facet reaches cannot be seen

A facet covers some of the indexes that were made, and the others only once something is
written there. So two facets may have the same ones and differ in their width. They give
the same answers (`FacetIndex.Facet.Clean.sameAnswers`): a read past the end finds no one,
and a complement covers all the indexes that were made in any case. Only the size of a
copy of the bits, or of a combination, tells the two apart, not what is in it
(`FacetIndex.Facet.Clean.sameTogether`).

Nor does it matter whether a facet is made wider before or after something happens to it
(`FacetIndex.Facet.mark_widen` and its companions).
-/

namespace FacetIndex

/-! ### What is stored decides -/

namespace Bitmap

variable {s t s' t' : Bitmap}

/-- The two bitmaps have the same members, though their sizes may differ. -/
structure SameMembers (s t : Bitmap) : Prop where
  contains : ∀ i, s.contains i = t.contains i
  toList : s.toList = t.toList

theorem Canonical.sameMembers (hs : s.Canonical) (ht : t.Canonical)
    (h : ∀ i, s.stored i = t.stored i) : s.SameMembers t where
  contains i := by rw [hs.contains_eq, ht.contains_eq, h]
  toList := toList_congr h

/-- **Combinations of operands that store the same** have the same members and the same
count, if the operator makes a zero of two zeros. -/
theorem sameMembers_combine {op : WordOp} {f : Bool → Bool → Bool}
    (hop : Word.Pointwise op.combine f) (hzero : f false false = false) (hs : s.Canonical)
    (ht : t.Canonical) (hs' : s'.Canonical) (ht' : t'.Canonical)
    (h : ∀ i, s.stored i = s'.stored i) (hother : ∀ i, t.stored i = t'.stored i) :
    (combine op s t).SameMembers (combine op s' t') ∧
      combineCount op s t = combineCount op s' t' := by
  have hkeeps := hop.keepsZeros hzero
  have hmembers := (hs.combine hkeeps ht).sameMembers (hs'.combine hkeeps ht') fun i => by
    rw [stored_combine_of_zero hop hzero, stored_combine_of_zero hop hzero, h, hother]
  exact ⟨hmembers, by rw [combineCount_eq_length, combineCount_eq_length, hmembers.toList]⟩

/-! ### Growing -/

theorem growTo_of_le {n : Nat} (h : n ≤ s.size) : s.growTo n = s := if_pos h

namespace WellSized

variable (h : s.WellSized)

include h

/-- Growing twice is growing once, to the greater of the two sizes. -/
theorem growTo_growTo (m n : Nat) : (s.growTo m).growTo n = s.growTo (max m n) :=
  ext_stored ((h.growTo m).growTo n) (h.growTo (max m n)) (by simp only [size_growTo]; omega)
    fun i => by simp only [stored_growTo]

theorem insert_growTo (i n : Nat) : (s.growTo n).insert i = (s.insert i).growTo n := by
  refine ext_stored ((h.growTo n).insert i) ((h.insert i).growTo n) ?_ fun j => ?_
  · simp only [size_insert, size_growTo]
    omega
  · rw [stored_insert (h.growTo n), stored_growTo, stored_growTo, stored_insert h]

theorem erase_growTo (i n : Nat) : (s.growTo n).erase i = (s.erase i).growTo n := by
  refine ext_stored ((h.growTo n).erase i) ((h.erase i).growTo n) ?_ fun j => ?_
  · simp only [size_erase, size_growTo]
    omega
  · rw [stored_erase (h.growTo n), stored_growTo, stored_growTo, stored_erase h]

end WellSized

end Bitmap

namespace Facet

/-! ### Wider facets -/

/-- The facet made to cover `n` indexes, if it covers fewer. -/
def widen (f : Facet) (n : Nat) : Facet := { f with bits := f.bits.growTo n }

variable {f g f' g' : Facet} {r : Registry}

theorem widen_widen (h : f.bits.WellSized) (m n : Nat) :
    (f.widen m).widen n = f.widen (max m n) := by
  simp only [widen, h.growTo_growTo]

theorem mark_widen (h : f.bits.WellSized) (i n : Nat) :
    (f.widen n).mark i = (f.mark i).widen n := by
  simp only [widen, mark, h.insert_growTo]

theorem unmark_widen (h : f.bits.WellSized) (i n : Nat) :
    (f.widen n).unmark i = (f.unmark i).widen n := by
  simp only [widen, unmark, h.erase_growTo]

/-- **Forgetting an index does not look at the width**: the wider facet has a one there
exactly if the facet has. -/
theorem forget_widen (h : f.bits.Canonical) (i n : Nat) :
    (f.widen n).forget i = (f.forget i).widen n := by
  have hcontains : (f.widen n).bits.contains i = f.bits.contains i := by
    rw [widen, (h.growTo n).contains_eq, Bitmap.stored_growTo, h.contains_eq]
  rw [forget, forget, hcontains]
  split
  · exact unmark_widen h.wellSized i n
  · rfl

/-- A facet that covers as much already stays as it is. -/
theorem widen_zeros {n capacity : Nat} (h : n ≤ capacity) (name displayName aspect : String) :
    widen ⟨name, displayName, aspect, .zeros capacity⟩ n =
      ⟨name, displayName, aspect, .zeros capacity⟩ := by
  rw [widen, Bitmap.growTo_of_le h]

theorem Clean.widen (h : f.Clean r) {n : Nat} (hn : n ≤ r.capacity) : (f.widen n).Clean r where
  canonical := h.canonical.growTo n
  size_le := by
    have hle := h.size_le
    rw [Facet.widen, Bitmap.size_growTo]
    omega
  live i hi := by
    rw [Facet.widen, Bitmap.stored_growTo] at hi
    exact h.live i hi

/-! ### Requests to write -/

theorem write?_widen (h : f.bits.WellSized) (i n : Nat) :
    (f.widen n).write? i = (f.write? i).map (·.widen n) := by
  rw [write?_eq, write?_eq, mark_widen h]
  split <;> rfl

theorem wipe?_widen (h : f.bits.WellSized) (i n : Nat) :
    (f.widen n).wipe? i = (f.wipe? i).map (·.widen n) := by
  rw [wipe?_eq, wipe?_eq, unmark_widen h]
  split <;> rfl

section Requests

variable (h : f.bits.WellSized) (owner : Option Registry) (n : Nat)

include h

/-- **What a request makes of a wider facet** is what it makes of the facet, and wider;
and so for the four of them. -/
theorem setIndex?_widen (i : Nat) :
    (f.widen n).setIndex? owner i = (f.setIndex? owner i).map (·.widen n) := by
  rcases owner with _ | r
  · rfl
  · rcases r.slot_cases i with ⟨item, hi⟩ | hi | ⟨-, hi⟩
    · rw [setIndex?_of_item _ hi, setIndex?_of_item _ hi, write?_widen h]
    · rw [setIndex?_of_vacant _ hi, setIndex?_of_vacant _ hi]
      rfl
    · rw [setIndex?_of_le _ hi, setIndex?_of_le _ hi]
      rfl

theorem setItem?_widen (item : String) :
    (f.widen n).setItem? owner item = (f.setItem? owner item).map (·.widen n) := by
  rcases owner with _ | r
  · rfl
  · rcases hi : r.indexes[item]? with _ | i
    · rw [setItem?_of_absent _ hi, setItem?_of_absent _ hi]
      rfl
    · rw [setItem?_of_live _ hi, setItem?_of_live _ hi, write?_widen h]

theorem unsetIndex?_widen (i : Nat) :
    (f.widen n).unsetIndex? owner i = (f.unsetIndex? owner i).map (·.widen n) := by
  rcases owner with _ | r
  · rfl
  · rcases Nat.lt_or_ge i r.capacity with hi | hi
    · rw [unsetIndex?_of_lt _ hi, unsetIndex?_of_lt _ hi, wipe?_widen h]
    · rw [unsetIndex?_of_le _ hi, unsetIndex?_of_le _ hi]
      rfl

theorem unsetItem?_widen (item : String) :
    (f.widen n).unsetItem? owner item = (f.unsetItem? owner item).map (·.widen n) := by
  rcases owner with _ | r
  · rfl
  · rcases hi : r.indexes[item]? with _ | i
    · rw [unsetItem?_of_absent _ hi, unsetItem?_of_absent _ hi]
      rfl
    · rw [unsetItem?_of_live _ hi, unsetItem?_of_live _ hi, wipe?_widen h]

end Requests

/-! ### Answers -/

/-- **The two facets answer alike**, as facets of a catalog with this registry. The copies
of their bits have the same members, but may differ in size. -/
structure SameAnswers (f f' : Facet) (r : Registry) : Prop where
  getIndex : ∀ i, f.getIndex? (some r) i = f'.getIndex? (some r) i
  getItem : ∀ item, f.getItem? (some r) item = f'.getItem? (some r) item
  count : f.count = f'.count
  indexes : f.indexes = f'.indexes
  items : f.items? (some r) = f'.items? (some r)
  /-- The complements are equal, their sizes included. -/
  complement : f.complement (some r) = f'.complement (some r)
  complementCount : f.complementCount (some r) = f'.complementCount (some r)
  copy : f.bits.SameMembers f'.bits

/-- **The two pairs of facets answer alike together.** -/
structure SameTogether (f g f' g' : Facet) : Prop where
  interCount : f.bits.interCount g.bits = f'.bits.interCount g'.bits
  unionCount : f.bits.unionCount g.bits = f'.bits.unionCount g'.bits
  diffCount : f.bits.diffCount g.bits = f'.bits.diffCount g'.bits
  inter : (f.bits.inter g.bits).SameMembers (f'.bits.inter g'.bits)
  union : (f.bits.union g.bits).SameMembers (f'.bits.union g'.bits)
  diff : (f.bits.diff g.bits).SameMembers (f'.bits.diff g'.bits)

namespace Clean

variable (h : f.Clean r) (h' : f'.Clean r) (hstored : ∀ i, f.bits.stored i = f'.bits.stored i)

include h h' hstored

/-- **Clean facets with the same ones answer alike**, however far each of them reaches. -/
theorem sameAnswers : f.SameAnswers f' r := by
  have hmembers := h.canonical.sameMembers h'.canonical hstored
  have hindexes : f.indexes = f'.indexes := hmembers.toList
  have hcount : f.count = f'.count := by
    rw [← h.length_indexes, ← h'.length_indexes, hindexes]
  have hsize := h.size_le
  have hsize' := h'.size_le
  refine ⟨?_, ?_, hcount, hindexes, by rw [items?, items?, hindexes], ?_, ?_, hmembers⟩
  · intro i
    simp only [getIndex?, hmembers.contains]
  · intro item
    simp only [getItem?, hmembers.contains]
  -- both complements are over the indexes that were made, no matter where the facets end
  · rw [complement_eq, complement_eq]
    refine Bitmap.ext_stored (h.canonical.complementWithin _).wellSized
      (h'.canonical.complementWithin _).wellSized ?_ fun i => ?_
    · rw [Bitmap.size_complementWithin, Bitmap.size_complementWithin,
        domainOf, Option.elim_some, Nat.max_eq_right hsize, Nat.max_eq_right hsize']
    · rw [Bitmap.stored_complementWithin h.canonical.wellSized,
        Bitmap.stored_complementWithin h'.canonical.wellSized, hstored, domainOf,
        Option.elim_some, Nat.max_eq_right hsize, Nat.max_eq_right hsize']
  · have hbits : f.bits.count = f'.bits.count := hcount
    rw [complementCount, complementCount, Bitmap.complementCountWithin,
      Bitmap.complementCountWithin, hbits, domainOf, Option.elim_some, Nat.max_eq_right hsize,
      Nat.max_eq_right hsize']

theorem sameTogether (hg : g.Clean r) (hg' : g'.Clean r)
    (hother : ∀ i, g.bits.stored i = g'.bits.stored i) : f.SameTogether g f' g' := by
  have hcombine := fun (op : WordOp) (b : Bool → Bool → Bool)
      (hop : Word.Pointwise op.combine b) (hzero : b false false = false) =>
    Bitmap.sameMembers_combine hop hzero h.canonical hg.canonical h'.canonical hg'.canonical
      hstored hother
  obtain ⟨hinter, hinterCount⟩ := hcombine .and _ Word.pointwise_and rfl
  obtain ⟨hunion, hunionCount⟩ := hcombine .or _ Word.pointwise_or rfl
  obtain ⟨hdiff, hdiffCount⟩ := hcombine .diff _ Word.pointwise_diff rfl
  exact ⟨hinterCount, hunionCount, hdiffCount, hinter, hunion, hdiff⟩

end Clean

end Facet

end FacetIndex
