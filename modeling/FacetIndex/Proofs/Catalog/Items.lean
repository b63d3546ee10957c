import FacetIndex.Proofs.Catalog.Names

/-!
# One item more, one item less

What making an item live and removing one do to a catalog, and what they leave alone.

* A new item gets an index. The registry resolves the one to the other, both ways, and is
  otherwise as before (`FacetIndex.Registry.Gains`). No aspect and no facet is touched, not
  even to make a facet cover a fresh index.
* Removing a live item takes it from its index (`FacetIndex.Registry.Loses`), and the index
  from every facet (`FacetIndex.Catalog.Forgets`). That is all that happens to the facets:
  they keep their names and sizes, and a facet too short to have the index stays so.

The other two requests, to make a live item live and to remove an item that is not, do
nothing. A removal can therefore be undone, but for what the facets forgot: the free list
gives back the index it got last, and the registry is the very same again
(`FacetIndex.Registry.Consistent.upsert_vacate`).
-/

namespace FacetIndex

/-! ### The registry -/

namespace Registry

variable {r r' : Registry} {item : String} {i : Nat}

/-- **There is one item more**, and the registry is otherwise as before. -/
structure Gains (r : Registry) (item : String) (i : Nat) (r' : Registry) : Prop where
  indexOf : ∀ other, r'.indexOf other = if other = item then .ok i else r.indexOf other
  itemAt : ∀ j, r'.itemAt j = if j = i then .ok item else r.itemAt j
  count : r'.count = r.count + 1

/-- **There is one item less**, and the registry is otherwise as before. -/
structure Loses (r : Registry) (item : String) (i : Nat) (r' : Registry) : Prop where
  indexOf : ∀ other,
    r'.indexOf other = if other = item then .error (.itemNotFound item) else r.indexOf other
  itemAt : ∀ j, r'.itemAt j = if j = i then .error (.indexNotFound i) else r.itemAt j
  count : r'.count + 1 = r.count
  capacity : r'.capacity = r.capacity

theorem Consistent.gains_upsert (h : r.Consistent) (hnew : r.indexes[item]? = none) :
    r.Gains item (r.upsert item).1 (r.upsert item).2 where
  indexOf other := by
    rw [Registry.indexOf, (h.admits_upsert hnew).indexes]
    rcases eq_or_ne item other with rfl | hne
    · rw [if_pos rfl, if_pos rfl]
    · rw [if_neg hne, if_neg (Ne.symm hne)]
      rfl
  itemAt j := by
    rw [Registry.itemAt, (h.admits_upsert hnew).slots]
    rcases eq_or_ne j (r.upsert item).1 with heq | hne
    · rw [if_pos heq, if_pos heq]
    · rw [if_neg hne, if_neg hne]
      rfl
  count := count_upsert_of_new hnew

/-- A removed item is not live. -/
theorem getElem?_indexes_vacate_self (r : Registry) (item : String) (i : Nat) :
    (r.vacate item i).indexes[item]? = none := by
  rw [getElem?_indexes_vacate, if_pos rfl]

/-- Putting a removed item back to where it was. -/
theorem Consistent.recycle_vacate (h : r.Consistent) (hi : r.indexes[item]? = some i) :
    (r.vacate item i).recycle item i r.free = r := by
  have hslot := h.slot_of_indexes hi
  have hindexes : (r.indexes.erase item).insert item i = r.indexes := by
    refine Std.ExtTreeMap.ext_getElem? fun other => ?_
    rw [Std.ExtTreeMap.getElem?_insert, getElem?_indexes_erase]
    rcases eq_or_ne item other with rfl | hne
    · simp [hi]
    · simp [hne]
  -- the slot was vacated in between
  have hslots : (r.slots.setIfInBounds i none).setIfInBounds i (some item) = r.slots := by
    rw [Array.setIfInBounds_setIfInBounds]
    refine Array.ext_getElem? fun j => ?_
    rw [getElem?_slots_set r _ (lt_capacity hslot)]
    split
    · next heq => rw [← heq, hslot]
    · rfl
  rw [Registry.recycle, Registry.vacate, hindexes, hslots]

/-- **Making the item live that was removed last restores the registry**, with all its
records: the index goes to the free list in front, and comes back from there. -/
theorem Consistent.upsert_vacate (h : r.Consistent) (hi : r.indexes[item]? = some i) :
    (r.vacate item i).upsert item = (i, r) := by
  have habsent := getElem?_indexes_vacate_self r item i
  rw [upsert_of_pop?_eq_some habsent (FreeList.pop?_push r.free i), h.recycle_vacate hi]

theorem Consistent.loses_vacate (h : r.Consistent) (hi : r.indexes[item]? = some i) :
    r.Loses item i (r.vacate item i) where
  indexOf other := by
    rw [Registry.indexOf, getElem?_indexes_vacate]
    rcases eq_or_ne item other with rfl | hne
    · rw [if_pos rfl, if_pos rfl]
    · rw [if_neg hne, if_neg (Ne.symm hne)]
      rfl
  itemAt j := by
    rw [Registry.itemAt, Registry.vacate,
      getElem?_slots_set r none (lt_capacity (h.slot_of_indexes hi))]
    rcases eq_or_ne i j with rfl | hne
    · rw [if_pos rfl, if_pos rfl]
    · rw [if_neg hne, if_neg (Ne.symm hne)]
      rfl
  count := by
    -- the item is the one more that there is when it is live again
    have hcount := count_upsert_of_new (getElem?_indexes_vacate_self r item i)
    rw [h.upsert_vacate hi] at hcount
    exact hcount.symm
  capacity := Array.size_setIfInBounds

end Registry

/-! ### The facets -/

/-- **The facet lacks index `i` and is otherwise as before**, its size included. -/
structure Facet.Forgets (f : Facet) (i : Nat) (f' : Facet) : Prop where
  label : f'.label = f.label
  aspect : f'.aspect = f.aspect
  size : f'.bits.size = f.bits.size
  blocks : f'.bits.blocks.size = f.bits.blocks.size
  stored : ∀ j, f'.bits.stored j = (f.bits.stored j && j != i)
  contains : ∀ j, f'.bits.contains j = (f.bits.contains j && j != i)

theorem Facet.forgets_forget {f : Facet} (h : f.bits.Canonical) (i : Nat) :
    f.Forgets i (f.forget i) := by
  obtain ⟨hcanonical, hsize, hstored⟩ := forget_spec h i
  refine ⟨?_, ?_, hsize, ?_, hstored, fun j => ?_⟩
  · rw [Facet.forget]
    split <;> rfl
  · rw [Facet.forget]
    split <;> rfl
  · rw [hcanonical.wellSized, h.wellSized, hsize]
  · rw [hcanonical.contains_eq, h.contains_eq, hstored]

namespace Catalog

variable {c c' : Catalog} {r : Registry} {item : String} {i : Nat}

/-- **Every facet lacks index `i`**, and aspects and facets are otherwise as before: the
same identifiers stand for some, under the same names. -/
structure Forgets (c : Catalog) (i : Nat) (c' : Catalog) : Prop where
  aspectLabel? : c'.aspectLabel? = c.aspectLabel?
  facetLabel? : c'.facetLabel? = c.facetLabel?
  facets : ∀ F f, c.facetOf? F = some f → ∃ f', c'.facetOf? F = some f' ∧ f.Forgets i f'

theorem Clean.forgets_forget (h : c.Clean r) (i : Nat) : c.Forgets i (c.forget i) where
  aspectLabel? := aspectLabel?_forget c i
  facetLabel? := facetLabel?_forget c i
  facets F f hF := by
    refine ⟨f.forget i, ?_, Facet.forgets_forget (h.facets F f hF).canonical i⟩
    rw [facetOf?_forget, hF, Option.map_some]

/-- Removing an item and making it live again comes to forgetting its index. -/
theorem run_remove_upsert (h : r.Consistent) (hr : c.owner = some r)
    (hi : r.indexes[item]? = some i) :
    c.run [.remove item, .upsert item] = ([.removed true, .index i], c.forget i) := by
  have hback : ((c.withRegistry (r.vacate item i)).forget i).withRegistry r = c.forget i := by
    rw [withRegistry, forget, forget, hr]
    rfl
  have hvacated : ((c.withRegistry (r.vacate item i)).forget i).owner =
      some (r.vacate item i) := rfl
  rw [run_cons, apply_remove_of_live hr hi, run_cons, apply_upsert hvacated, h.upsert_vacate hi,
    hback]
  rfl

/-- **What becomes of an item, after every history.** Making a live item live gives its
index and does nothing. A new item gets an index that it can be found under, and the other
way round; there is one item more, all others are where they were, and neither an aspect
nor a facet changes. Removing an item that is not live does nothing. Removing a live item
leaves neither it nor an item at its index to be found; there is one item less, all others
are where they were, the capacity is the same, and every facet, however short, lacks the
index and is otherwise as before. To make the removed item live at once restores the
registry exactly, the order of its free indexes included, so that nothing has happened but
that the facets lack the index. -/
theorem items_of_run (config : Config) (history : List Change) {c : Catalog} {r : Registry}
    (hc : ((create config).run history).2 = c) (hlive : c.owner = some r) (item : String) :
    (∀ i, r.indexOf item = .ok i → c.apply (.upsert item) = (.index i, c)) ∧
      (r.contains item = false → ∃ i c' r', c.apply (.upsert item) = (.index i, c') ∧
        c'.owner = some r' ∧ r.Gains item i r' ∧ c'.aspects = c.aspects) ∧
      (r.contains item = false → c.apply (.remove item) = (.removed false, c)) ∧
      (∀ i, r.indexOf item = .ok i → ∃ c' r', c.apply (.remove item) = (.removed true, c') ∧
        c'.owner = some r' ∧ r.Loses item i r' ∧ c.Forgets i c') ∧
      ∀ i, r.indexOf item = .ok i → ∃ c',
        c.run [.remove item, .upsert item] = ([.removed true, .index i], c') ∧
          c'.owner = some r ∧ c.Forgets i c' := by
  obtain rfl := hc
  have h := clean_of_run config history hlive
  simp only [Registry.indexOf_eq_ok_iff, Registry.contains_eq_false_iff]
  refine ⟨fun i hi => apply_upsert_of_live hlive hi, fun hnew => ?_,
    fun hnew => apply_remove_of_absent hlive hnew, fun i hi => ?_, fun i hi => ?_⟩
  · exact ⟨_, _, _, apply_upsert hlive item, rfl, h.consistent.gains_upsert hnew, rfl⟩
  · have hforgets := h.forgets_forget i
    exact ⟨_, _, apply_remove_of_live hlive hi, rfl, h.consistent.loses_vacate hi,
      hforgets.aspectLabel?, hforgets.facetLabel?, hforgets.facets⟩
  · exact ⟨_, run_remove_upsert h.consistent hlive hi, hlive, h.forgets_forget i⟩

/-- The item at index 1 is removed and made live again. Of the two facets one has the index,
and the other covers none at all. -/
theorem items_of_run_restored :
    ∃ c r c', ((create {}).run [.newAspect "Kind" "Kind", .newFacet ⟨0⟩ "new" "New",
        .upsert "a", .upsert "b", .newFacet ⟨0⟩ "old" "Old", .setItem ⟨⟨0⟩, 1⟩ "a",
        .setItem ⟨⟨0⟩, 1⟩ "b"]).2 = c ∧
      c.owner = some r ∧ r.indexOf "b" = .ok 1 ∧ r.contains "c" = false ∧
      c.apply (.remove "c") = (.removed false, c) ∧
      c.run [.remove "b", .upsert "b"] = ([.removed true, .index 1], c') ∧
      c'.owner = some r ∧ c.Forgets 1 c' ∧
      (c'.facetOf? ⟨⟨0⟩, 0⟩).any (fun f => f.bits = .zeros 0) = true ∧
      (c'.facetOf? ⟨⟨0⟩, 1⟩).any (fun f => f.bits.size = 2 ∧ f.bits.toList = [0]) = true := by
  have hstate : ((create {}).run [.newAspect "Kind" "Kind", .newFacet ⟨0⟩ "new" "New",
      .upsert "a", .upsert "b", .newFacet ⟨0⟩ "old" "Old", .setItem ⟨⟨0⟩, 1⟩ "a",
      .setItem ⟨⟨0⟩, 1⟩ "b"]).2.owner.any
        (fun r => r.indexes["b"]? = some 1 ∧ r.indexes["c"]? = none) = true := by
    decide +kernel
  obtain ⟨r, hr, hfacts⟩ := (Option.any_eq_true _ _).1 hstate
  obtain ⟨hb, hc⟩ := of_decide_eq_true hfacts
  have hb := Registry.indexOf_eq_ok_iff.2 hb
  have hc := Registry.contains_eq_false_iff.2 hc
  obtain ⟨-, -, habsent, -, -⟩ := items_of_run {} _ rfl hr "c"
  obtain ⟨-, -, -, -, hback⟩ := items_of_run {} _ rfl hr "b"
  obtain ⟨c', hrun, hr', hforgets⟩ := hback 1 hb
  obtain rfl := congrArg Prod.snd hrun
  exact ⟨_, r, _, rfl, hr, hb, hc, habsent hc, hrun, hr', hforgets, by decide +kernel,
    by decide +kernel⟩

end Catalog

end FacetIndex
