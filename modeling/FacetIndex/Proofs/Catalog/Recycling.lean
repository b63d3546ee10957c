import FacetIndex.Proofs.Catalog.Consistent

/-!
# Indexes come back in the reverse order

A burst of removals followed by a burst of new items. What the new items get is known
beforehand: `FacetIndex.Registry.supply` lists the indexes that a registry has for the
next `n` new items, those that are free from the one handed back last to the one handed
back first, and then those that were never made.

A burst of removals puts the indexes before those that are free already, the last one
first (`FacetIndex.Catalog.run_remove`). Making an item live takes the first index of the
list away (`FacetIndex.Registry.supply_of_new`), be it a free one or a fresh one; the
switch from the one kind to the other is nothing special. Whether a new item was live
before the burst does not matter, since its name is forgotten with it.
-/

namespace FacetIndex

/-! ### One item -/

namespace Registry

variable {r : Registry} {item : String}

/-- The indexes for the next `n` new items, in the order in which they are handed out. -/
def supply (r : Registry) (n : Nat) : List Nat :=
  r.free.indexes.take n ++ List.range' r.capacity (n - r.free.size)

theorem supply_zero (r : Registry) : r.supply 0 = [] := by
  rw [supply, List.take_zero, Nat.zero_sub, List.range'_zero, List.nil_append]

/-- **First the free indexes, then those never made.** -/
theorem supply_eq_take (r : Registry) (n : Nat) :
    r.supply n = (r.free.indexes ++ List.range' r.capacity n).take n := by
  rw [List.take_append, List.take_range'_of_length_ge (Nat.sub_le ..)]
  rfl

/-- **A new item takes the first index of the supply** and leaves the others. A fresh index
is made only if none was free. -/
theorem supply_of_new (hnew : r.indexes[item]? = none) (n : Nat) :
    r.supply (n + 1) = (r.upsert item).1 :: (r.upsert item).2.supply n ∧
      (r.upsert item).2.capacity + (n - (r.upsert item).2.free.size) =
        r.capacity + (n + 1 - r.free.size) := by
  rcases hpop : r.free.pop? with _ | ⟨i, free⟩
  · have hnone : r.free.indexes = [] :=
      List.isEmpty_iff.1 ((FreeList.pop?_eq_none_iff _).1 hpop)
    have hcapacity : (r.append item).capacity = r.capacity + 1 := Array.size_push _
    have hfree : (r.append item).free.indexes = [] := hnone
    rw [upsert_of_pop?_eq_none hnew hpop]
    simp only [supply, FreeList.size, hcapacity, hfree, hnone, List.take_nil, List.nil_append,
      List.length_nil, Nat.sub_zero]
    exact ⟨List.range'_succ, by omega⟩
  · have hcapacity : (r.recycle item i free).capacity = r.capacity := Array.size_setIfInBounds
    have hfree : (r.recycle item i free).free = free := rfl
    have hindexes : r.free.indexes = i :: free.indexes := by
      rw [FreeList.eq_push_of_pop? hpop]
      rfl
    rw [upsert_of_pop?_eq_some hnew hpop]
    simp only [supply, FreeList.size, hcapacity, hfree, hindexes, List.take_succ_cons,
      List.length_cons, Nat.add_sub_add_right, List.cons_append, and_self]

theorem getElem?_indexes_upsert (hnew : r.indexes[item]? = none) (other : String) :
    (r.upsert item).2.indexes[other]? =
      if item = other then some (r.upsert item).1 else r.indexes[other]? := by
  rcases hpop : r.free.pop? with _ | ⟨i, free⟩
  · rw [upsert_of_pop?_eq_none hnew hpop]
    exact getElem?_indexes_insert r item other _
  · rw [upsert_of_pop?_eq_some hnew hpop]
    exact getElem?_indexes_insert r item other i

end Registry

namespace Catalog

variable {c : Catalog} {r : Registry}

/-! ### Two bursts -/

/-- **A burst of removals** hands the indexes back one before the other and forgets the
items, and nothing else. -/
theorem run_remove {gone : List String} {held : List Nat} (hr : c.owner = some r)
    (hheld : List.Forall₂ (fun item i => r.indexes[item]? = some i) gone held)
    (hgone : gone.Nodup) :
    ∃ r', (c.run (gone.map .remove)).1 = gone.map (fun _ => .removed true) ∧
      (c.run (gone.map .remove)).2.owner = some r' ∧
      r'.free.indexes = held.reverse ++ r.free.indexes ∧ r'.capacity = r.capacity ∧
      ∀ item, r'.indexes[item]? = if item ∈ gone then none else r.indexes[item]? := by
  induction gone generalizing c r held with
  | nil =>
    cases hheld
    refine ⟨r, rfl, hr, rfl, rfl, fun item => ?_⟩
    rw [if_neg List.not_mem_nil]
  | cons item gone ih =>
    rcases hheld with _ | @⟨_, i, _, held, hi, hheld⟩
    obtain ⟨hitem, hgone⟩ := List.nodup_cons.1 hgone
    have hforget := Registry.getElem?_indexes_vacate r item i
    -- the other items to be removed are still where they were
    have hstill : List.Forall₂ (fun other j => (r.vacate item i).indexes[other]? = some j)
        gone held := by
      have hothers : ∀ other ∈ gone, item ≠ other := by
        rintro other hother rfl
        exact hitem hother
      refine ((List.forall₂_and_left gone held).2 ⟨hothers, hheld⟩).imp ?_
      rintro other j ⟨hne, hj⟩
      rw [hforget, if_neg hne, hj]
    rw [List.map_cons, run_cons, apply_remove_of_live hr hi]
    obtain ⟨r', houtcomes, howner, hfree, hcapacity, hindexes⟩ :=
      ih (c := (c.withRegistry (r.vacate item i)).forget i) rfl hstill hgone
    refine ⟨r', by rw [houtcomes, List.map_cons], howner, ?_, ?_, fun other => ?_⟩
    · rw [hfree, List.reverse_cons, List.append_assoc]
      rfl
    · rw [hcapacity]
      exact Array.size_setIfInBounds
    · rw [hindexes, hforget]
      rcases eq_or_ne other item with rfl | hne
      · rw [if_pos rfl, ite_self, if_pos List.mem_cons_self]
      · simp only [List.mem_cons, hne, Ne.symm hne, false_or, if_false]

/-- **A burst of new items** takes what the supply has, one after the other. -/
theorem run_upsert {fresh : List String} (hr : c.owner = some r)
    (hnew : ∀ item ∈ fresh, r.indexes[item]? = none) (hfresh : fresh.Nodup) :
    ∃ r', (c.run (fresh.map .upsert)).1 = (r.supply fresh.length).map .index ∧
      (c.run (fresh.map .upsert)).2.owner = some r' ∧
      r'.capacity = r.capacity + (fresh.length - r.free.size) ∧
      ∀ item, item ∉ fresh → r'.indexes[item]? = r.indexes[item]? := by
  induction fresh generalizing c r with
  | nil =>
    refine ⟨r, ?_, hr, ?_, fun _ _ => rfl⟩
    · rw [List.length_nil, Registry.supply_zero]
      rfl
    · rw [List.length_nil, Nat.zero_sub, Nat.add_zero]
  | cons item fresh ih =>
    obtain ⟨hitem, hfresh⟩ := List.nodup_cons.1 hfresh
    obtain ⟨hfirst, hrest⟩ := List.forall_mem_cons.1 hnew
    obtain ⟨hsupply, hmade⟩ := Registry.supply_of_new hfirst fresh.length
    have hindexes := Registry.getElem?_indexes_upsert hfirst
    rw [List.map_cons, run_cons, apply_upsert hr]
    have hstill : ∀ other ∈ fresh, (r.upsert item).2.indexes[other]? = none := by
      intro other hother
      have hne : item ≠ other := by
        rintro rfl
        exact hitem hother
      rw [hindexes, if_neg hne, hrest other hother]
    obtain ⟨r', houtcomes, howner, hcapacity, hkept⟩ :=
      ih (c := c.withRegistry (r.upsert item).2) rfl hstill hfresh
    refine ⟨r', ?_, howner, hcapacity.trans hmade, fun other hother => ?_⟩
    · rw [houtcomes, List.length_cons, hsupply, List.map_cons]
    · obtain ⟨hne, hother⟩ := not_or.1 (mt List.mem_cons.2 hother)
      rw [hkept other hother, hindexes, if_neg (Ne.symm hne)]

/-! ### After every history -/

/-- **Indexes come back in the reverse order.** Whatever happened before, remove live items
one after the other and then upsert items that are not live any more, some of which may be
those just removed. All removals succeed. The new items get the indexes just handed back,
the last one first, then those that were free before, again the last one first, and
then fresh ones in ascending order; the capacity grows by as many as it takes. No other
item moves. -/
theorem recycling_of_run (config : Config) (history : List Change)
    (hlive : ((create config).run history).2.owner = some r) {gone fresh : List String}
    {held : List Nat} (hheld : List.Forall₂ (fun item i => r.indexOf item = .ok i) gone held)
    (hgone : gone.Nodup) (hfresh : fresh.Nodup)
    (hnew : ∀ item ∈ fresh, item ∈ gone ∨ r.contains item = false) :
    ∃ c' r', ((create config).run history).2.run (gone.map .remove ++ fresh.map .upsert) =
        (gone.map (fun _ => .removed true) ++
          ((held.reverse ++ r.free.indexes ++ List.range' r.capacity fresh.length).take
            fresh.length).map .index, c') ∧
      c'.owner = some r' ∧
      r'.capacity = r.capacity + (fresh.length - gone.length - r.free.size) ∧
      ∀ item i, item ∉ gone → r.indexOf item = .ok i → r'.indexOf item = .ok i := by
  simp only [Registry.indexOf_eq_ok_iff] at hheld ⊢
  obtain ⟨r₁, hremoved, hr₁, hfree, hcapacity, hindexes⟩ := run_remove hlive hheld hgone
  have habsent : ∀ item ∈ fresh, r₁.indexes[item]? = none := by
    intro item hitem
    rw [hindexes]
    split
    · rfl
    · next hkept => exact Registry.contains_eq_false_iff.1 ((hnew item hitem).resolve_left hkept)
  obtain ⟨r₂, hgiven, hr₂, hgrown, hkept⟩ := run_upsert hr₁ habsent hfresh
  refine ⟨_, r₂, ?_, hr₂, ?_, ?_⟩
  · rw [run_append, hremoved, hgiven, Registry.supply_eq_take, hfree, hcapacity]
  · rw [hgrown, hcapacity, FreeList.size, hfree, List.length_append, List.length_reverse,
      ← hheld.length_eq, FreeList.size, Nat.sub_add_eq]
  · intro item i hitem hi
    have hlast : item ∉ fresh := by
      intro hmem
      have hnone := habsent item hmem
      rw [hindexes, if_neg hitem, hi] at hnone
      cases hnone
    rw [hkept item hlast, hindexes, if_neg hitem, hi]

/-- One index was free; two items are removed and one of them comes back with three others.
The last of the four needs a fresh index. -/
theorem recycling_of_run_burst :
    ∃ r c' r', ((create {}).run [.upsert "a", .upsert "b", .upsert "c", .upsert "d",
        .remove "b"]).2.owner = some r ∧
      r.free.indexes = [1] ∧ r.capacity = 4 ∧
      ((create {}).run [.upsert "a", .upsert "b", .upsert "c", .upsert "d",
        .remove "b"]).2.run [.remove "a", .remove "d", .upsert "d", .upsert "e", .upsert "f",
          .upsert "g"] =
        ([.removed true, .removed true, .index 3, .index 0, .index 1, .index 4], c') ∧
      c'.owner = some r' ∧ r'.capacity = 5 ∧ r'.indexOf "c" = .ok 2 := by
  have hstate : ((create {}).run [.upsert "a", .upsert "b", .upsert "c", .upsert "d",
      .remove "b"]).2.owner.any (fun r => r.free.indexes = [1] ∧ r.capacity = 4 ∧
        r.indexOf "a" = .ok 0 ∧ r.indexOf "d" = .ok 3 ∧ r.indexOf "c" = .ok 2 ∧
        ∀ item ∈ ["d", "e", "f", "g"], item ∈ ["a", "d"] ∨ r.contains item = false) = true := by
    decide +kernel
  obtain ⟨r, hr, hfacts⟩ := (Option.any_eq_true _ _).1 hstate
  obtain ⟨hfree, hcapacity, ha, hd, hc, hnew⟩ := of_decide_eq_true hfacts
  have hheld : List.Forall₂ (fun item i => r.indexOf item = .ok i) ["a", "d"] [0, 3] :=
    .cons ha (.cons hd .nil)
  obtain ⟨c', r', hrun, hr', hgrown, hkept⟩ :=
    recycling_of_run {} _ hr hheld (by decide) (by decide) hnew
  rw [hfree, hcapacity] at hrun
  rw [FreeList.size, hfree, hcapacity] at hgrown
  exact ⟨r, c', r', hr, hfree, hcapacity, hrun, hr', hgrown, hkept "c" 2 (by decide) hc⟩

end Catalog

end FacetIndex
