import FacetIndex.Proofs.Catalog.Effect

/-!
# The registry of a catalog stays consistent

Only two of the effects of `FacetIndex.Catalog.Effect` touch the registry, and both keep
its three records in agreement. So the registry is consistent after every history, and
the counts and the safety of its indexes follow
(`FacetIndex.Catalog.registry_of_run`): what comes out of the free list is in range and
vacant, and the index of an item is in range.

The capacity never shrinks (`FacetIndex.Catalog.capacity_le_of_effect`).
-/

namespace FacetIndex.Catalog

variable {c c' : Catalog} {r r' : Registry}

/-! ### One change -/

/-- **The registry after a change**: it is the one before, or has one more item, or one
less. -/
theorem registry_of_effect (h : Effect c c') (hr : c.owner = some r) (hr' : c'.owner = some r') :
    r' = r ∨ (∃ item, r.indexes[item]? = none ∧ r' = (r.upsert item).2) ∨
      ∃ item i, r.indexes[item]? = some i ∧ r' = r.vacate item i := by
  have hsame : c'.owner = c.owner → r' = r := fun howner =>
    owner_inj hr' (howner.trans hr)
  cases h with
  | same => exact Or.inl (hsame rfl)
  | @occupy r₀ item hr₀ hnew =>
    obtain rfl := owner_inj hr hr₀
    exact Or.inr (Or.inl ⟨item, hnew, (Option.some.inj hr').symm⟩)
  | @vacate r₀ item i hr₀ hi =>
    obtain rfl := owner_inj hr hr₀
    exact Or.inr (Or.inr ⟨item, i, hi, (Option.some.inj hr').symm⟩)
  | addAspect => exact Or.inl (hsame rfl)
  | addFacet => exact Or.inl (hsame rfl)
  | mark => exact Or.inl (hsame (owner_putFacet ..))
  | unmark => exact Or.inl (hsame (owner_putFacet ..))
  | drop => cases hr'

theorem consistent_of_effect (h : Effect c c') (hr : c.owner = some r) (hr' : c'.owner = some r')
    (hconsistent : r.Consistent) : r'.Consistent := by
  rcases registry_of_effect h hr hr' with rfl | ⟨item, -, rfl⟩ | ⟨item, i, hi, rfl⟩
  · exact hconsistent
  · exact hconsistent.upsert item
  · exact hconsistent.vacate hi

theorem capacity_le_of_effect (h : Effect c c') (hr : c.owner = some r)
    (hr' : c'.owner = some r') (hconsistent : r.Consistent) : r.capacity ≤ r'.capacity := by
  rcases registry_of_effect h hr hr' with rfl | ⟨item, hnew, rfl⟩ | ⟨item, i, -, rfl⟩
  · exact Nat.le_refl _
  · exact (hconsistent.admits_upsert hnew).capacity_le
  · simp [Registry.capacity, Registry.vacate]

/-- A live catalog with a consistent registry is changed in one of the listed ways. -/
theorem effect_of_consistent (hr : c.owner = some r) (hconsistent : r.Consistent)
    (change : Change) : Effect c (c.apply change).2 := by
  refine effect_apply (fun r' hr' => ?_) change
  obtain rfl := owner_inj hr hr'
  exact hconsistent

theorem consistent_of_apply (hr : c.owner = some r) (hconsistent : r.Consistent)
    {change : Change} (hr' : (c.apply change).2.owner = some r') : r'.Consistent :=
  consistent_of_effect (effect_of_consistent hr hconsistent change) hr hr' hconsistent

/-! ### All histories -/

/-- Whether the catalog is there or not: if it has a registry, the registry is
consistent. -/
theorem consistent_apply (hconsistent : ∀ r, c.owner = some r → r.Consistent) (change : Change) :
    ∀ r', (c.apply change).2.owner = some r' → r'.Consistent := by
  intro r' hr'
  rcases hr : c.owner with _ | r
  · rw [owner_of_effect (effect_apply hconsistent change) hr] at hr'
    cases hr'
  · exact consistent_of_apply hr (hconsistent r hr) hr'

theorem consistent_run (history : List Change) (hr : c.owner = some r)
    (hconsistent : r.Consistent) (hr' : (c.run history).2.owner = some r') : r'.Consistent :=
  run_induction (P := fun _ r => r.Consistent)
    (fun _ _ _ _ hr h hr' => consistent_of_apply hr h hr') history hr hconsistent hr'

theorem capacity_le_run (history : List Change) (hr : c.owner = some r)
    (hconsistent : r.Consistent) (hr' : (c.run history).2.owner = some r') :
    r.capacity ≤ r'.capacity := by
  refine (run_induction (P := fun _ r' => r'.Consistent ∧ r.capacity ≤ r'.capacity) ?_ history hr
    ⟨hconsistent, Nat.le_refl _⟩ hr').2
  intro c r₁ change r₂ hr₁ h hr₂
  have hcapacity := capacity_le_of_effect (effect_of_consistent hr₁ h.1 change) hr₁ hr₂ h.1
  exact ⟨consistent_of_apply hr₁ h.1 hr₂, Nat.le_trans h.2 hcapacity⟩

/-- **The registry after every history.** Names and slots are inverse to each other, so
that no two live items share an index; the free list holds the vacant indexes, each once,
so that live items and free indexes together are as many as the indexes ever made. An
index taken out of the free list is in range and vacant, and that of an item is in
range. -/
theorem registry_of_run (config : Config) (history : List Change) {r : Registry}
    (hlive : ((create config).run history).2.owner = some r) :
    (∀ (item : String) (i : Nat), r.indexes[item]? = some i ↔ r.slots[i]? = some (some item)) ∧
      (∀ (item other : String) (i : Nat), r.indexes[item]? = some i →
        r.indexes[other]? = some i → item = other) ∧
      r.free.indexes.Nodup ∧
      (∀ i : Nat, i ∈ r.free.indexes ↔ i < r.slots.size ∧ r.slots[i]? = some none) ∧
      r.count + r.free.size = r.capacity ∧
      r.count ≤ r.capacity ∧
      (∀ i rest, r.free.pop? = some (i, rest) → i < r.slots.size ∧ r.slots[i]? = some none) ∧
      ∀ (item : String) (i : Nat), r.indexes[item]? = some i → i < r.slots.size := by
  have h : r.Consistent := consistent_run history rfl Registry.consistent_empty hlive
  have hcount := h.count_add_size_free
  refine ⟨h.inverse, fun item other i => h.item_unique, h.nodup, fun i => ?_, hcount,
    by omega, fun i rest hpop => ?_, fun item i hi => ?_⟩
  · rw [h.vacant]
    exact ⟨fun hi => ⟨Registry.lt_capacity hi, hi⟩, And.right⟩
  · have hvacant := h.vacant_of_pop? hpop
    exact ⟨Registry.lt_capacity hvacant, hvacant⟩
  · exact Registry.lt_capacity (h.slot_of_indexes hi)

/-- Two of three items were removed, and a new one holds the index handed back last. -/
theorem registry_of_run_recycling :
    ∃ r, ((create {}).run [.upsert "a", .upsert "b", .upsert "c", .remove "a", .remove "b",
        .upsert "d"]).2.owner = some r ∧
      r.indexes["d"]? = some 1 ∧ r.free.indexes = [0] ∧
      r.count + r.free.size = r.capacity ∧
      (0 ∈ r.free.indexes ↔ 0 < r.slots.size ∧ r.slots[0]? = some none) ∧
      (r.indexes["d"]? = some 1 ↔ r.slots[1]? = some (some "d")) := by
  have hstate : ((create {}).run [.upsert "a", .upsert "b", .upsert "c", .remove "a",
      .remove "b", .upsert "d"]).2.owner.any
        (fun r => r.indexes["d"]? = some 1 ∧ r.free.indexes = [0]) = true := by
    decide +kernel
  obtain ⟨r, hr, hfacts⟩ := (Option.any_eq_true _ _).1 hstate
  obtain ⟨hd, hfree⟩ := of_decide_eq_true hfacts
  obtain ⟨hinverse, -, -, hvacant, hcount, -⟩ := registry_of_run {} _ hr
  exact ⟨r, hr, hd, hfree, hcount, hvacant 0, hinverse "d" 1⟩

end FacetIndex.Catalog
