import FacetIndex.Registry.Consistent
import Mathlib.Data.List.Basic
import Mathlib.Data.List.Nodup

/-!
# The census of a registry

The three records of a consistent registry can be counted against each other. Every
index is either that of one live item or free, so the live items and the free indexes
together are as many as the indexes ever made
(`FacetIndex.Registry.Consistent.count_add_size_free`). Behind it stand two listings:
the items read off the slots are the live items, each once
(`FacetIndex.Registry.Consistent.nodup_items`), and the free list is a rearrangement of
the vacant indexes (`FacetIndex.Registry.Consistent.free_perm`).

Indexes that are exactly those of the live items with some property can be listed as
items, each once (`FacetIndex.Registry.Consistent.mapM_itemAt_spec`).

What becomes of the records when a new item is made live does not depend on where its
index came from; `FacetIndex.Registry.Admits` says it once for a recycled index and for
a fresh one.
Whether the capacity grows does depend on it, and the census decides: there is a free index
unless every index is in use (`FacetIndex.Registry.Consistent.upsert_cases`).
-/

namespace FacetIndex.Registry

variable {r : Registry}

/-! ### Reading the records -/

theorem indexOf_eq_ok_iff {item : String} {i : Nat} :
    r.indexOf item = .ok i ↔ r.indexes[item]? = some i := by
  rw [indexOf]
  cases r.indexes[item]? <;> simp

theorem itemAt_eq_ok_iff {item : String} {i : Nat} :
    r.itemAt i = .ok item ↔ r.slots[i]? = some (some item) := by
  rw [itemAt]
  rcases r.slots[i]? with _ | _ | other <;> simp

theorem indexOf_of_absent {item : String} (h : r.indexes[item]? = none) :
    r.indexOf item = .error (.itemNotFound item) := by
  simp only [indexOf, h]

theorem contains_iff {item : String} : r.contains item = true ↔ ∃ i, r.indexes[item]? = some i := by
  rw [contains, Std.ExtTreeMap.contains_eq_isSome_getElem?, Option.isSome_iff_exists]

theorem contains_eq_false_iff {item : String} :
    r.contains item = false ↔ r.indexes[item]? = none := by
  rw [contains, Std.ExtTreeMap.contains_eq_isSome_getElem?, Option.isSome_eq_false_iff,
    Option.isNone_iff_eq_none]

theorem lt_capacity_iff {i : Nat} : i < r.capacity ↔ ∃ slot, r.slots[i]? = some slot := by
  rw [capacity, ← Option.isSome_iff_exists]
  simp

theorem lt_capacity {i : Nat} {slot : Option String} (h : r.slots[i]? = some slot) :
    i < r.capacity :=
  lt_capacity_iff.2 ⟨slot, h⟩

theorem checkInRange_of_lt {i : Nat} (h : i < r.capacity) : r.checkInRange i = .ok () := if_pos h

theorem checkInRange_of_le {i : Nat} (h : r.capacity ≤ i) :
    r.checkInRange i = .error (.indexOutOfRange i r.capacity) :=
  if_neg (Nat.not_lt.2 h)

/-- An index is occupied, or vacant, or was never made. -/
theorem slot_cases (r : Registry) (i : Nat) :
    (∃ item, r.slots[i]? = some (some item)) ∨ r.slots[i]? = some none ∨
      (r.slots[i]? = none ∧ r.capacity ≤ i) := by
  rcases h : r.slots[i]? with _ | _ | item
  · exact Or.inr (Or.inr ⟨rfl, by simpa [capacity] using h⟩)
  · exact Or.inr (Or.inl rfl)
  · exact Or.inl ⟨item, rfl⟩

/-! ### Counting slots -/

/-- The places of the members that have a property: the first place is that of the first
member, if it has the property, and the others are those in the rest, moved by one. -/
theorem filter_range_cons {α : Type} (p : α → Bool) (a : α) (l : List α) :
    (List.range (a :: l).length).filter (fun i => (a :: l)[i]?.any p) =
      (if p a then [0] else []) ++
        ((List.range l.length).filter fun i => l[i]?.any p).map Nat.succ := by
  have hrest : ((List.range l.length).map Nat.succ).filter (fun i => (a :: l)[i]?.any p) =
      ((List.range l.length).filter fun i => l[i]?.any p).map Nat.succ := by
    rw [List.filter_map]
    rfl
  rw [List.length_cons, List.range_succ_eq_map, List.filter_cons, hrest]
  cases hp : p a <;> simp [hp]

/-- Counting the members of a list that have a property counts their places. -/
theorem countP_eq_length_filter_range {α : Type} (p : α → Bool) (l : List α) :
    l.countP p = ((List.range l.length).filter fun i => l[i]?.any p).length := by
  induction l with
  | nil => rfl
  | cons a l ih =>
    rw [filter_range_cons, List.length_append, List.length_map, ← ih, List.countP_cons,
      Nat.add_comm]
    cases p a <;> rfl

/-- Every slot holds an item or nothing. -/
theorem length_items_add_countP_isNone (r : Registry) :
    r.items.length + r.slots.toList.countP Option.isNone = r.capacity := by
  have hsplit := List.length_eq_countP_add_countP Option.isSome (l := r.slots.toList)
  have hnone : r.slots.toList.countP (fun slot => decide ¬slot.isSome = true) =
      r.slots.toList.countP Option.isNone :=
    List.countP_congr fun slot _ => by cases slot <;> simp
  rw [items, List.length_filterMap_eq_countP, capacity, ← Array.length_toList, hsplit, hnone]
  rfl

theorem mem_items_iff {item : String} :
    item ∈ r.items ↔ ∃ i : Nat, r.slots[i]? = some (some item) := by
  simp only [items, List.mem_filterMap, id_eq, exists_eq_right, Array.mem_toList_iff,
    Array.mem_iff_getElem?]

namespace Consistent

/-! ### The live items -/

/-- The item at an occupied index is live and has this index. -/
theorem indexes_of_slot (h : r.Consistent) {item : String} {i : Nat}
    (hi : r.slots[i]? = some (some item)) : r.indexes[item]? = some i :=
  (h.inverse item i).2 hi

theorem slot_of_indexes (h : r.Consistent) {item : String} {i : Nat}
    (hi : r.indexes[item]? = some i) : r.slots[i]? = some (some item) :=
  (h.inverse item i).1 hi

/-- **No two live items share an index.** -/
theorem item_unique (h : r.Consistent) {item other : String} {i : Nat}
    (hitem : r.indexes[item]? = some i) (hother : r.indexes[other]? = some i) : item = other := by
  have hi := h.slot_of_indexes hitem
  rw [h.slot_of_indexes hother] at hi
  exact (Option.some.inj (Option.some.inj hi)).symm

theorem mem_items_iff (h : r.Consistent) {item : String} :
    item ∈ r.items ↔ r.contains item = true := by
  rw [Registry.mem_items_iff, contains_iff]
  exact exists_congr fun i => (h.inverse item i).symm

/-- The listing of the items names none twice. -/
theorem nodup_items (h : r.Consistent) : r.items.Nodup := by
  rw [items, List.nodup_iff_pairwise_ne, List.pairwise_filterMap, List.pairwise_iff_getElem]
  intro i j hi hj hij item hitem other hother heq
  subst heq
  have hslot : ∀ k (hk : k < r.slots.toList.length), id r.slots.toList[k] = some item →
      r.slots[k]? = some (some item) := by
    intro k hk hitem
    rw [← Array.getElem?_toList, List.getElem?_eq_getElem hk]
    exact congrArg some hitem
  exact absurd (h.index_unique (hslot i hi hitem) (hslot j hj hother)) (Nat.ne_of_lt hij)

/-- The items read off the slots are the keys of the index. -/
theorem items_perm_keys (h : r.Consistent) : r.items.Perm r.indexes.keys := by
  refine (List.perm_ext_iff_of_nodup h.nodup_items Std.ExtTreeMap.nodup_keys).2 fun item => ?_
  rw [h.mem_items_iff, Std.ExtTreeMap.mem_keys, contains, Std.ExtTreeMap.contains_iff_mem]

theorem length_items (h : r.Consistent) : r.items.length = r.count := by
  rw [h.items_perm_keys.length_eq, Std.ExtTreeMap.length_keys, count]

/-! ### The free indexes -/

/-- The free list is a rearrangement of the vacant indexes. -/
theorem free_perm (h : r.Consistent) :
    r.free.indexes.Perm
      ((List.range r.capacity).filter fun i => r.slots[i]?.any Option.isNone) := by
  refine (List.perm_ext_iff_of_nodup h.nodup (List.nodup_range.filter _)).2 fun i => ?_
  rw [h.vacant, List.mem_filter, List.mem_range]
  rcases r.slot_cases i with ⟨item, hi⟩ | hi | ⟨hi, -⟩
  · simp [hi]
  · simp [hi, lt_capacity hi]
  · simp [hi]

/-- **Every index that was ever made is that of a live item or free.** -/
theorem count_add_size_free (h : r.Consistent) : r.count + r.free.size = r.capacity := by
  have hvacant : r.free.size = r.slots.toList.countP Option.isNone := by
    rw [FreeList.size, h.free_perm.length_eq, countP_eq_length_filter_range]
    simp only [Array.getElem?_toList, Array.length_toList, capacity]
  rw [hvacant, ← h.length_items, length_items_add_countP_isNone]

end Consistent

/-! ### The items at a list of indexes -/

section Listing

variable {indexes : List Nat} {items : List String}

/-- Listing the items at indexes that are all in use succeeds, index by index. -/
theorem mapM_itemAt (indexes : List Nat)
    (h : ∀ i ∈ indexes, ∃ item, r.slots[i]? = some (some item)) :
    ∃ items, indexes.mapM r.itemAt = .ok items ∧
      List.Forall₂ (fun i item => r.slots[i]? = some (some item)) indexes items := by
  induction indexes with
  | nil => exact ⟨[], rfl, .nil⟩
  | cons i indexes ih =>
    obtain ⟨item, hitem⟩ := h i List.mem_cons_self
    obtain ⟨items, hitems, hall⟩ := ih fun j hj => h j (List.mem_cons_of_mem i hj)
    refine ⟨item :: items, ?_, .cons hitem hall⟩
    rw [List.mapM_cons, itemAt_eq_ok_iff.2 hitem, hitems]
    rfl

theorem mem_iff_of_forall₂
    (hall : List.Forall₂ (fun i item => r.slots[i]? = some (some item)) indexes items)
    {item : String} : item ∈ items ↔ ∃ i ∈ indexes, r.slots[i]? = some (some item) := by
  induction hall with
  | nil => simp
  | @cons i other indexes items hother _ ih =>
    rw [List.mem_cons, ih]
    constructor
    · rintro (rfl | ⟨j, hj, hitem⟩)
      · exact ⟨i, List.mem_cons_self, hother⟩
      · exact ⟨j, List.mem_cons_of_mem i hj, hitem⟩
    · rintro ⟨j, hj, hitem⟩
      rcases List.mem_cons.1 hj with rfl | hj
      · exact Or.inl (Option.some.inj (Option.some.inj (hitem.symm.trans hother)))
      · exact Or.inr ⟨j, hj, hitem⟩

/-- Different indexes hold different items. -/
theorem Consistent.nodup_of_forall₂ (h : r.Consistent)
    (hall : List.Forall₂ (fun i item => r.slots[i]? = some (some item)) indexes items)
    (hnodup : indexes.Nodup) : items.Nodup := by
  induction hall with
  | nil => exact List.nodup_nil
  | @cons i item indexes items hitem hrest ih =>
    obtain ⟨hi, hnodup⟩ := List.nodup_cons.1 hnodup
    refine List.nodup_cons.2 ⟨fun hmem => ?_, ih hnodup⟩
    obtain ⟨j, hj, hother⟩ := (mem_iff_of_forall₂ hrest).1 hmem
    obtain rfl : i = j := h.index_unique hitem hother
    exact hi hj

/-- **Indexes that are exactly those of the live items with a property** resolve to these
items, each once. -/
theorem Consistent.mapM_itemAt_spec (h : r.Consistent) {sat : String → Bool}
    (hnodup : indexes.Nodup)
    (hmem : ∀ i, i ∈ indexes ↔ ∃ item, r.slots[i]? = some (some item) ∧ sat item = true) :
    ∃ items, indexes.mapM r.itemAt = .ok items ∧ items.length = indexes.length ∧
      items.Nodup ∧ ∀ item, item ∈ items ↔ r.contains item = true ∧ sat item = true := by
  obtain ⟨items, hitems, hall⟩ := mapM_itemAt indexes fun i hi =>
    ((hmem i).1 hi).imp fun _ => And.left
  refine ⟨items, hitems, hall.length_eq.symm, h.nodup_of_forall₂ hall hnodup, ?_⟩
  intro item
  rw [mem_iff_of_forall₂ hall, contains_iff]
  constructor
  · rintro ⟨i, hi, hitem⟩
    obtain ⟨other, hother, hsat⟩ := (hmem i).1 hi
    obtain rfl : item = other := Option.some.inj (Option.some.inj (hitem.symm.trans hother))
    exact ⟨⟨i, h.indexes_of_slot hitem⟩, hsat⟩
  · rintro ⟨⟨i, hi⟩, hsat⟩
    have hitem := h.slot_of_indexes hi
    exact ⟨i, (hmem i).2 ⟨item, hitem, hsat⟩, hitem⟩

end Listing

/-! ### Making an item live -/

/-- **A new item was made live at an index that was not in use**: the two records name
the item at this index and are otherwise as before. -/
structure Admits (r : Registry) (item : String) (i : Nat) (r' : Registry) : Prop where
  indexes : ∀ other, r'.indexes[other]? = if item = other then some i else r.indexes[other]?
  slots : ∀ j, r'.slots[j]? = if j = i then some (some item) else r.slots[j]?
  unused : ∀ other, r.slots[i]? ≠ some (some other)
  capacity_le : r.capacity ≤ r'.capacity

theorem upsert_of_live {item : String} {i : Nat} (h : r.indexes[item]? = some i) :
    r.upsert item = (i, r) := by
  simp only [upsert, h]

theorem upsert_of_pop?_eq_none {item : String} (hnew : r.indexes[item]? = none)
    (hpop : r.free.pop? = none) : r.upsert item = (r.slots.size, r.append item) := by
  simp only [upsert, hnew, hpop]

theorem upsert_of_pop?_eq_some {item : String} (hnew : r.indexes[item]? = none) {i : Nat}
    {free : FreeList} (hpop : r.free.pop? = some (i, free)) :
    r.upsert item = (i, r.recycle item i free) := by
  simp only [upsert, hnew, hpop]

theorem Consistent.admits_upsert (h : r.Consistent) {item : String}
    (hnew : r.indexes[item]? = none) :
    r.Admits item (r.upsert item).1 (r.upsert item).2 := by
  rcases hpop : r.free.pop? with _ | ⟨i, free⟩
  -- a fresh index: no slot was there
  · rw [upsert_of_pop?_eq_none hnew hpop]
    refine ⟨fun other => getElem?_indexes_insert r item other _,
      getElem?_slots_push r (some item), fun other hother => ?_, ?_⟩
    · exact absurd (lt_capacity hother) (Nat.lt_irrefl _)
    · simp [capacity, Registry.append]
  -- a recycled index: its slot was vacant
  · have hvacant := h.vacant_of_pop? hpop
    rw [upsert_of_pop?_eq_some hnew hpop]
    refine ⟨fun other => getElem?_indexes_insert r item other i, fun j => ?_,
      fun other hother => ?_, ?_⟩
    · exact (getElem?_slots_set r (some item) (lt_capacity hvacant) j).trans
        (if_congr eq_comm rfl rfl)
    · rw [hvacant] at hother
      cases hother
    · simp [capacity, Registry.recycle]

/-! ### Which items are live -/

theorem Admits.contains_iff {item : String} {i : Nat} {r' : Registry} (h : r.Admits item i r')
    {other : String} : r'.contains other = true ↔ other = item ∨ r.contains other = true := by
  rw [Registry.contains_iff, Registry.contains_iff, h.indexes]
  split
  · next heq => exact iff_of_true ⟨i, rfl⟩ (Or.inl heq.symm)
  · next hne => rw [or_iff_right (Ne.symm hne)]

theorem contains_vacate_iff {item : String} {i : Nat} {other : String} :
    (r.vacate item i).contains other = true ↔ other ≠ item ∧ r.contains other = true := by
  rw [Registry.contains_iff, Registry.contains_iff, getElem?_indexes_vacate]
  split
  · next heq => simp [heq]
  · next hne => rw [and_iff_right (Ne.symm hne)]

/-! ### How the capacity grows -/

theorem count_upsert_of_new {item : String} (hnew : r.indexes[item]? = none) :
    (r.upsert item).2.count = r.count + 1 := by
  have habsent : r.indexes.contains item = false := contains_eq_false_iff.2 hnew
  have hinsert : ∀ i, (r.indexes.insert item i).size = r.count + 1 := by
    intro i
    rw [Std.ExtTreeMap.size_insert, habsent]
    rfl
  rcases hpop : r.free.pop? with _ | ⟨i, free⟩
  · rw [upsert_of_pop?_eq_none hnew hpop]
    exact hinsert _
  · rw [upsert_of_pop?_eq_some hnew hpop]
    exact hinsert i

/-- **A new item goes to a free index as long as there is one**, and no index is made.
Otherwise every index is in use, and the item goes to the next one. -/
theorem Consistent.upsert_cases (h : r.Consistent) {item : String}
    (hnew : r.indexes[item]? = none) :
    (r.count < r.capacity ∧ (r.upsert item).1 < r.capacity ∧
        (r.upsert item).2.capacity = r.capacity) ∨
      (r.count = r.capacity ∧ (r.upsert item).1 = r.capacity ∧
        (r.upsert item).2.capacity = r.capacity + 1) := by
  have hcensus := h.count_add_size_free
  rcases hpop : r.free.pop? with _ | ⟨i, free⟩
  · have hnone : r.free.indexes = [] :=
      List.isEmpty_iff.1 ((FreeList.pop?_eq_none_iff _).1 hpop)
    rw [FreeList.size, hnone, List.length_nil, Nat.add_zero] at hcensus
    rw [upsert_of_pop?_eq_none hnew hpop]
    exact Or.inr ⟨hcensus, rfl, Array.size_push _⟩
  · have hvacant := h.vacant_of_pop? hpop
    rw [FreeList.eq_push_of_pop? hpop, FreeList.size_push] at hcensus
    rw [upsert_of_pop?_eq_some hnew hpop]
    exact Or.inl ⟨by omega, lt_capacity hvacant, Array.size_setIfInBounds⟩

end FacetIndex.Registry
