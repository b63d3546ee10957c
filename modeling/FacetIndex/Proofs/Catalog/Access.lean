import FacetIndex.Proofs.Bitmap.Writing
import FacetIndex.Proofs.Catalog.Names

/-!
# Reading and writing a facet of a live catalog

A facet is read and written through an index or through an item. What may be refused, and
why, is a matter of the registry alone; how far the facet itself reaches plays no part.

| request | is refused if | stated by |
|---|---|---|
| an index, to read or for a zero | it was never made | `FacetIndex.Registry.OutOfRange` |
| an index, for a one | so, or no item is there | `FacetIndex.Registry.Vacant` |
| anything through an item | it is not live | `FacetIndex.Registry.Absent` |

A free index is thus good for reading and for a zero, and only a one asks for an item. At
most one of the causes applies, which makes the table a decision
(`FacetIndex.Catalog.Decides`): a request is refused for that cause and nothing happens, or
it is granted, and then one bit of one facet is written
(`FacetIndex.Catalog.WritesBit`).
-/

namespace FacetIndex

/-! ### Causes -/

namespace Registry

variable {r : Registry} {item : String} {i : Nat} {cause : Error}

/-- The index was never made, and this is the cause. -/
def OutOfRange (r : Registry) (i : Nat) (cause : Error) : Prop :=
  r.capacity ≤ i ∧ cause = .indexOutOfRange i r.capacity

/-- No live item is at the index, although it was made, and this is the cause. -/
def Vacant (r : Registry) (i : Nat) (cause : Error) : Prop :=
  i < r.capacity ∧ (∀ item, r.indexOf item ≠ .ok i) ∧ cause = .indexNotFound i

/-- The item is not live, and this is the cause. -/
def Absent (r : Registry) (item : String) (cause : Error) : Prop :=
  r.contains item = false ∧ cause = .itemNotFound item

theorem not_outOfRange (hi : i < r.capacity) (cause : Error) : ¬ r.OutOfRange i cause :=
  fun h => Nat.not_le.2 hi h.1

theorem outOfRange_iff (hi : r.capacity ≤ i) :
    r.OutOfRange i cause ↔ cause = .indexOutOfRange i r.capacity :=
  and_iff_right hi

theorem not_vacant_of_le (hi : r.capacity ≤ i) (cause : Error) : ¬ r.Vacant i cause :=
  fun h => Nat.not_lt.2 hi h.1

theorem Consistent.not_vacant (h : r.Consistent) (hi : r.slots[i]? = some (some item))
    (cause : Error) : ¬ r.Vacant i cause :=
  fun hvacant => hvacant.2.1 item (indexOf_eq_ok_iff.2 (h.indexes_of_slot hi))

theorem Consistent.vacant_iff (h : r.Consistent) (hi : r.slots[i]? = some none) :
    r.Vacant i cause ↔ cause = .indexNotFound i := by
  refine ⟨fun hvacant => hvacant.2.2, fun hcause => ⟨lt_capacity hi, fun item hitem => ?_, hcause⟩⟩
  have hslot := h.slot_of_indexes (indexOf_eq_ok_iff.1 hitem)
  rw [hi] at hslot
  cases hslot

theorem not_absent (hi : r.indexes[item]? = some i) (cause : Error) : ¬ r.Absent item cause := by
  rintro ⟨habsent, -⟩
  rw [contains_eq_false_iff, hi] at habsent
  cases habsent

theorem absent_iff (hi : r.indexes[item]? = none) :
    r.Absent item cause ↔ cause = .itemNotFound item :=
  and_iff_right (contains_eq_false_iff.2 hi)

end Registry

/-! ### Reading -/

namespace Facet

variable {r : Registry} {item : String} {i : Nat} {cause : Error}

/-- **An index is read if it was made**, whether the facet reaches it or not. -/
theorem getIndex?_eq_error_iff (f : Facet) :
    f.getIndex? (some r) i = .error cause ↔ r.OutOfRange i cause := by
  rcases Nat.lt_or_ge i r.capacity with hi | hi
  · rw [getIndex?_of_lt f hi]
    exact iff_of_false (fun h => nomatch h) (Registry.not_outOfRange hi cause)
  · rw [getIndex?_of_le f hi, Registry.outOfRange_iff hi, Except.error.injEq, eq_comm]

/-- **An item is read if it is live.** -/
theorem getItem?_eq_error_iff (f : Facet) :
    f.getItem? (some r) item = .error cause ↔ r.Absent item cause := by
  rcases hi : r.indexes[item]? with _ | i
  · rw [getItem?_of_absent f hi, Registry.absent_iff hi, Except.error.injEq, eq_comm]
  · rw [getItem?_of_live f hi]
    exact iff_of_false (fun h => nomatch h) (Registry.not_absent hi cause)

section Through

variable (h : r.Consistent) (hi : r.indexOf item = .ok i)

include h hi

/-- **An item stands for its index**, in reading and in writing. -/
theorem getItem?_eq_getIndex? (f : Facet) : f.getItem? (some r) item = f.getIndex? (some r) i := by
  have hi := Registry.indexOf_eq_ok_iff.1 hi
  rw [getItem?_of_live f hi, getIndex?_of_lt f (Registry.lt_capacity (h.slot_of_indexes hi))]

theorem setItem?_eq_setIndex? (f : Facet) : f.setItem? (some r) item = f.setIndex? (some r) i := by
  have hi := Registry.indexOf_eq_ok_iff.1 hi
  rw [setItem?_of_live f hi, setIndex?_of_item f (h.slot_of_indexes hi)]

theorem unsetItem?_eq_unsetIndex? (f : Facet) :
    f.unsetItem? (some r) item = f.unsetIndex? (some r) i := by
  have hi := Registry.indexOf_eq_ok_iff.1 hi
  rw [unsetItem?_of_live f hi, unsetIndex?_of_lt f (Registry.lt_capacity (h.slot_of_indexes hi))]

end Through

end Facet

/-! ### Writing -/

namespace Catalog

variable {c c' : Catalog} {r : Registry} {F : FacetId} {f f' : Facet} {item : String} {i : Nat}
  {one : Bool} {change : Change} {refuses : Error → Prop} {grants : Catalog → Prop}

/-- **`c'` is `c` with a bit written at `i` in one facet**, and otherwise the same. -/
structure WritesBit (c : Catalog) (F : FacetId) (i : Nat) (one : Bool) (c' : Catalog) :
    Prop where
  owner : c'.owner = c.owner
  aspectLabel? : c'.aspectLabel? = c.aspectLabel?
  facetLabel? : c'.facetLabel? = c.facetLabel?
  others : ∀ G, G ≠ F → c'.facetOf? G = c.facetOf? G
  bits : ∃ f f', c.facetOf? F = some f ∧ c'.facetOf? F = some f' ∧ f'.aspect = f.aspect ∧
    f.bits.Writes i one f'.bits

/-- **What a request is refused for, and what it does if it is granted.** Being refused, it
does nothing. -/
structure Decides (c : Catalog) (change : Change) (refuses : Error → Prop)
    (grants : Catalog → Prop) : Prop where
  refused_iff : ∀ cause, (c.apply change).1 = .refused cause ↔ refuses cause
  unchanged : ∀ cause, refuses cause → (c.apply change).2 = c
  granted : (∀ cause, ¬ refuses cause) →
    (c.apply change).1 = .written ∧ grants (c.apply change).2

namespace Decides

theorem of_refused {cause : Error} (h : c.apply change = (.refused cause, c))
    (hrefuses : ∀ other, refuses other ↔ other = cause) : c.Decides change refuses grants where
  refused_iff other := by
    rw [h, hrefuses, Outcome.refused.injEq, eq_comm]
  unchanged _ _ := congrArg Prod.snd h
  granted hnone := absurd ((hrefuses cause).2 rfl) (hnone cause)

theorem of_written (h : c.apply change = (.written, c')) (hrefuses : ∀ cause, ¬ refuses cause)
    (hgrants : grants c') : c.Decides change refuses grants where
  refused_iff cause := by
    rw [h]
    exact iff_of_false Outcome.noConfusion (hrefuses cause)
  unchanged cause hcause := absurd hcause (hrefuses cause)
  granted _ := by
    rw [h]
    exact ⟨rfl, hgrants⟩

end Decides

theorem writesBit_putFacet (hF : c.facetOf? F = some f) (hlabel : f'.label = f.label)
    (haspect : f'.aspect = f.aspect) (hbits : f.bits.Writes i one f'.bits) :
    c.WritesBit F i one (c.putFacet F f') where
  owner := owner_putFacet c F f'
  aspectLabel? := aspectLabel?_putFacet c F f'
  facetLabel? := facetLabel?_putFacet hF hlabel
  others G hne := by rw [facetOf?_putFacet hF, if_neg hne]
  bits := ⟨f, f', hF, by rw [facetOf?_putFacet hF, if_pos rfl], haspect, hbits⟩

/-- Requests that make the same of a facet are the same. -/
theorem applyWrite_congr {write write' : Facet → Option Registry → Except Error Facet}
    (hF : c.facetOf? F = some f) (h : write f c.owner = write' f c.owner) :
    c.applyWrite F write = c.applyWrite F write' := by
  simp only [applyWrite, changeFacet, hF, Option.map_some, h]

section Live

variable (hr : c.owner = some r) (h : r.Consistent) (hF : c.facetOf? F = some f)
  (hbits : f.bits.Canonical) (hroom : r.capacity ≤ maxIndex)

include hbits hF in
theorem writesBit_mark (i : Nat) : c.WritesBit F i true (c.putFacet F (f.mark i)) :=
  writesBit_putFacet hF rfl rfl (hbits.writes_insert i)

include hbits hF in
theorem writesBit_unmark (i : Nat) : c.WritesBit F i false (c.putFacet F (f.unmark i)) :=
  writesBit_putFacet hF rfl rfl (hbits.writes_erase i)

include hr h hF hbits hroom

/-- **A one is written at the index of a live item only.** -/
theorem decides_setIndex (i : Nat) :
    c.Decides (.setIndex F i) (fun cause => r.OutOfRange i cause ∨ r.Vacant i cause)
      (c.WritesBit F i true) := by
  -- The index is in use, or free, or was never made; the two causes exclude each other.
  rcases r.slot_cases i with ⟨item, hi⟩ | hi | ⟨-, hi⟩
  · have hlt := Registry.lt_capacity hi
    refine .of_written (apply_setIndex_of_item hr hF hi (Nat.lt_of_lt_of_le hlt hroom)) ?_
      (writesBit_mark hF hbits i)
    exact fun cause => not_or.2 ⟨Registry.not_outOfRange hlt cause, h.not_vacant hi cause⟩
  · refine .of_refused (apply_setIndex_of_vacant hr hF hi) fun cause => ?_
    rw [or_iff_right (Registry.not_outOfRange (Registry.lt_capacity hi) cause), h.vacant_iff hi]
  · refine .of_refused (apply_setIndex_of_le hr hF hi) fun cause => ?_
    rw [or_iff_left (Registry.not_vacant_of_le hi cause), Registry.outOfRange_iff hi]

omit h in
/-- **A zero is written at any index that was made**, free or in use. -/
theorem decides_unsetIndex (i : Nat) :
    c.Decides (.unsetIndex F i) (r.OutOfRange i) (c.WritesBit F i false) := by
  rcases Nat.lt_or_ge i r.capacity with hi | hi
  · exact .of_written (apply_unsetIndex_of_lt hr hF hi (Nat.lt_of_lt_of_le hi hroom))
      (Registry.not_outOfRange hi) (writesBit_unmark hF hbits i)
  · exact .of_refused (apply_unsetIndex_of_le hr hF hi) fun _ => Registry.outOfRange_iff hi

theorem decides_setItem (item : String) :
    c.Decides (.setItem F item) (r.Absent item)
      fun c' => ∃ i, r.indexOf item = .ok i ∧ c.WritesBit F i true c' := by
  rcases hi : r.indexes[item]? with _ | i
  · exact .of_refused (apply_setItem_of_absent hr hF hi) fun _ => Registry.absent_iff hi
  · have hlt := Registry.lt_capacity (h.slot_of_indexes hi)
    exact .of_written (apply_setItem_of_live hr hF hi (Nat.lt_of_lt_of_le hlt hroom))
      (Registry.not_absent hi)
      ⟨i, Registry.indexOf_eq_ok_iff.2 hi, writesBit_mark hF hbits i⟩

theorem decides_unsetItem (item : String) :
    c.Decides (.unsetItem F item) (r.Absent item)
      fun c' => ∃ i, r.indexOf item = .ok i ∧ c.WritesBit F i false c' := by
  rcases hi : r.indexes[item]? with _ | i
  · exact .of_refused (apply_unsetItem_of_absent hr hF hi) fun _ => Registry.absent_iff hi
  · have hlt := Registry.lt_capacity (h.slot_of_indexes hi)
    exact .of_written (apply_unsetItem_of_live hr hF hi (Nat.lt_of_lt_of_le hlt hroom))
      (Registry.not_absent hi)
      ⟨i, Registry.indexOf_eq_ok_iff.2 hi, writesBit_unmark hF hbits i⟩

end Live

/-! ### After every history -/

/-- **Access to a facet after every history**, as long as indexes can be written in
sixty-four bits. An index is read if it was made, free or not and reached by the facet or
not, and a zero can be written there; a one can be written if a live item is there; and any
request through an item is granted if the item is live. All else is refused, each request
for the one cause that it states, and what is refused leaves the catalog exactly as it was.
What is granted writes one bit of one facet, which is made to cover the index and not more,
and leaves everything else alone. A request through an item is the request through its
index. -/
theorem access_of_run (config : Config) (history : List Change)
    (hc : ((create config).run history).2 = c) (hlive : c.owner = some r)
    (hroom : r.capacity ≤ maxIndex) (hF : c.facetOf? F = some f) :
    (∀ i, (∀ cause, f.getIndex? c.owner i = .error cause ↔ r.OutOfRange i cause) ∧
        (i < r.capacity → f.getIndex? c.owner i = .ok (f.bits.contains i)) ∧
        c.Decides (.setIndex F i) (fun cause => r.OutOfRange i cause ∨ r.Vacant i cause)
          (c.WritesBit F i true) ∧
        c.Decides (.unsetIndex F i) (r.OutOfRange i) (c.WritesBit F i false)) ∧
      (∀ item, (∀ cause, f.getItem? c.owner item = .error cause ↔ r.Absent item cause) ∧
        c.Decides (.setItem F item) (r.Absent item)
          (fun c' => ∃ i, r.indexOf item = .ok i ∧ c.WritesBit F i true c') ∧
        c.Decides (.unsetItem F item) (r.Absent item)
          fun c' => ∃ i, r.indexOf item = .ok i ∧ c.WritesBit F i false c') ∧
      ∀ item i, r.indexOf item = .ok i →
        f.getItem? c.owner item = f.getIndex? c.owner i ∧
          c.apply (.setItem F item) = c.apply (.setIndex F i) ∧
          c.apply (.unsetItem F item) = c.apply (.unsetIndex F i) := by
  subst hc
  have hclean := clean_of_run config history hlive
  have h := hclean.consistent
  have hbits := (hclean.facets F f hF).canonical
  refine ⟨fun i => ⟨fun cause => ?_, fun hi => ?_, decides_setIndex hlive h hF hbits hroom i,
      decides_unsetIndex hlive hF hbits hroom i⟩,
    fun item => ⟨fun cause => ?_, decides_setItem hlive h hF hbits hroom item,
      decides_unsetItem hlive h hF hbits hroom item⟩,
    fun item i hi => ⟨?_, applyWrite_congr hF ?_, applyWrite_congr hF ?_⟩⟩
  · rw [hlive, f.getIndex?_eq_error_iff]
  · rw [hlive, f.getIndex?_of_lt hi]
  · rw [hlive, f.getItem?_eq_error_iff]
  · rw [hlive, f.getItem?_eq_getIndex? h hi]
  · rw [hlive, f.setItem?_eq_setIndex? h hi]
  · rw [hlive, f.unsetItem?_eq_unsetIndex? h hi]

/-- Of three indexes the second is free, and the facet ends before it. There a zero can be
written but no one; the third index takes a one, by itself and through its item, and beyond
it is nothing. -/
theorem access_of_run_vacant :
    ∃ c r f, ((create {}).run [.newAspect "Kind" "Kind", .upsert "a",
        .newFacet ⟨0⟩ "new" "New", .upsert "b", .upsert "c", .remove "b"]).2 = c ∧
      c.owner = some r ∧ r.capacity = 3 ∧ r.capacity ≤ maxIndex ∧
      c.facetOf? ⟨⟨0⟩, 0⟩ = some f ∧ f.bits.size = 1 ∧
      f.getIndex? c.owner 1 = .ok false ∧
      f.getIndex? c.owner 3 = .error (.indexOutOfRange 3 3) ∧
      (c.apply (.setIndex ⟨⟨0⟩, 0⟩ 1)).1 = .refused (.indexNotFound 1) ∧
      (c.apply (.setIndex ⟨⟨0⟩, 0⟩ 1)).2 = c ∧
      c.WritesBit ⟨⟨0⟩, 0⟩ 1 false (c.apply (.unsetIndex ⟨⟨0⟩, 0⟩ 1)).2 ∧
      (c.apply (.setItem ⟨⟨0⟩, 0⟩ "b")).1 = .refused (.itemNotFound "b") ∧
      c.WritesBit ⟨⟨0⟩, 0⟩ 2 true (c.apply (.setIndex ⟨⟨0⟩, 0⟩ 2)).2 ∧
      c.apply (.setItem ⟨⟨0⟩, 0⟩ "c") = c.apply (.setIndex ⟨⟨0⟩, 0⟩ 2) := by
  obtain ⟨c, hc⟩ : ∃ c, ((create {}).run [.newAspect "Kind" "Kind", .upsert "a",
      .newFacet ⟨0⟩ "new" "New", .upsert "b", .upsert "c", .remove "b"]).2 = c := ⟨_, rfl⟩
  have hstate : c.owner.any (fun r => r.capacity = 3 ∧ r.indexes["b"]? = none ∧
      r.indexes["c"]? = some 2 ∧ r.slots[1]? = some none) = true := by
    rw [← hc]
    decide +kernel
  have hfacet : (c.facetOf? ⟨⟨0⟩, 0⟩).any (fun f => f.bits = .zeros 1) = true := by
    rw [← hc]
    decide +kernel
  obtain ⟨r, hr, hfacts⟩ := (Option.any_eq_true _ _).1 hstate
  obtain ⟨f, hf, hbits⟩ := (Option.any_eq_true _ _).1 hfacet
  obtain ⟨hcapacity, hb, hitem, hvacant⟩ := of_decide_eq_true hfacts
  have hbits : f.bits = .zeros 1 := of_decide_eq_true hbits
  have hconsistent := (clean_of_run {} _ (hc ▸ hr)).consistent
  have hroom : r.capacity ≤ maxIndex := by
    rw [hcapacity]
    decide
  have hslot := hconsistent.slot_of_indexes hitem
  have hrefused : r.Vacant 1 (.indexNotFound 1) := (hconsistent.vacant_iff hvacant).2 rfl
  have hgranted : ∀ cause, ¬ (r.OutOfRange 2 cause ∨ r.Vacant 2 cause) := fun cause =>
    not_or.2 ⟨Registry.not_outOfRange (Registry.lt_capacity hslot) cause,
      hconsistent.not_vacant hslot cause⟩
  obtain ⟨hindexes, hitems, hthrough⟩ := access_of_run {} _ hc hr hroom hf
  obtain ⟨-, hget, hset, hunset⟩ := hindexes 1
  obtain ⟨-, -, hset₂, -⟩ := hindexes 2
  refine ⟨c, r, f, hc, hr, hcapacity, hroom, hf, congrArg Bitmap.size hbits, ?_,
    ((hindexes 3).1 _).2 ⟨by omega, by rw [hcapacity]⟩,
    (hset.refused_iff _).2 (Or.inr hrefused), hset.unchanged _ (Or.inr hrefused),
    (hunset.granted (Registry.not_outOfRange (by omega))).2,
    ((hitems "b").2.1.refused_iff _).2 ((Registry.absent_iff hb).2 rfl),
    (hset₂.granted hgranted).2,
    (hthrough "c" 2 (Registry.indexOf_eq_ok_iff.2 hitem)).2.1⟩
  rw [hget (by omega), hbits]
  rfl

end Catalog

end FacetIndex
