import FacetIndex.Proofs.Catalog.Consistent
import Mathlib.Data.List.Infix

/-!
# The capacity is the high-water mark of the live items

Indexes are handed back and handed out again, so that a new one is made only when all of
them are in use. Over a whole history this pins the capacity from two sides, and neither
speaks of the registry's records:

| the capacity is | theorem |
|---|---|
| the greatest number of items that were ever live at once | `FacetIndex.Catalog.foldl_max_count_trail` |
| one more than the greatest index that was ever handed out | `FacetIndex.Catalog.foldl_max_handedOut` |

Both are runs of one step. A change either needs an index that was never made
(`FacetIndex.Registry.NeedsIndex`), and then the capacity, the number of live items and
the index handed out go up together; or it leaves the capacity alone, and whatever index
it hands out is below (`FacetIndex.Catalog.capacity_of_needsIndex`,
`FacetIndex.Catalog.capacity_of_not_needsIndex`).
-/

namespace FacetIndex

/-- The change makes an item live that is not, while every index is in use. -/
def Registry.NeedsIndex (r : Registry) (change : Change) : Prop :=
  ∃ item, change = .upsert item ∧ r.contains item = false ∧ r.count = r.capacity

/-- An upsert that needs no index finds one: that of the item, or a free one. -/
theorem Registry.Consistent.upsert_of_not_needsIndex {r : Registry} (h : r.Consistent)
    {item : String} (hneeds : ¬ r.NeedsIndex (.upsert item)) :
    (r.upsert item).1 < r.capacity ∧ (r.upsert item).2.capacity = r.capacity := by
  rcases hi : r.indexes[item]? with _ | i
  · rcases h.upsert_cases hi with ⟨-, hindex, hcapacity⟩ | ⟨hfull, -⟩
    · exact ⟨hindex, hcapacity⟩
    · exact absurd ⟨item, rfl, contains_eq_false_iff.2 hi, hfull⟩ hneeds
  · rw [upsert_of_live hi]
    exact ⟨lt_capacity (h.slot_of_indexes hi), rfl⟩

/-- The index that was handed out to an item. -/
def Change.handedOut? : Change → Outcome → Option Nat
  | .upsert _, .index i => some i
  | _, _ => none

namespace Catalog

/-! ### What is seen along a history -/

/-- How many items are live. -/
def count (c : Catalog) : Nat := c.owner.elim 0 Registry.count

/-- The catalog after each part of a history, from none of it to all of it. -/
def trail (c : Catalog) (history : List Change) : List Catalog :=
  history.inits.map fun past => (c.run past).2

/-- The indexes that a history hands out to items, in the order of the changes. -/
def handedOut (c : Catalog) (history : List Change) : List Nat :=
  (List.zipWith Change.handedOut? history (c.run history).1).filterMap id

variable {c : Catalog} {r r' : Registry} {change : Change}

theorem count_eq (hr : c.owner = some r) : c.count = r.count := by
  rw [count, hr, Option.elim_some]

theorem trail_nil (c : Catalog) : c.trail [] = [c] := rfl

theorem trail_cons (c : Catalog) (change : Change) (history : List Change) :
    c.trail (change :: history) = c :: (c.apply change).2.trail history := by
  rw [trail, List.inits_cons, List.map_cons, List.map_map]
  rfl

theorem handedOut_cons (c : Catalog) (change : Change) (history : List Change) :
    c.handedOut (change :: history) =
      (change.handedOut? (c.apply change).1).toList ++ (c.apply change).2.handedOut history := by
  rw [handedOut, run_cons, List.zipWith_cons_cons, List.filterMap_cons]
  rcases change.handedOut? (c.apply change).1 with _ | i <;> rfl

/-! ### One change -/

/-- Only an upsert makes an index. -/
theorem capacity_of_ne_upsert (hr : c.owner = some r) (hr' : (c.apply change).2.owner = some r')
    (hchange : ∀ item, change ≠ .upsert item) : r'.capacity = r.capacity := by
  have hsame : (c.apply change).2.owner = c.owner → r'.capacity = r.capacity := by
    intro howner
    rw [owner_inj hr' (howner.trans hr)]
  cases change with
  | upsert item => exact absurd rfl (hchange item)
  | remove item =>
    rcases hi : r.indexes[item]? with _ | i
    · exact hsame (by rw [apply_remove_of_absent hr hi])
    · rw [apply_remove_of_live hr hi] at hr'
      obtain rfl : r.vacate item i = r' := Option.some.inj hr'
      exact Array.size_setIfInBounds
  | newAspect | ensureAspect => exact hsame (owner_applyNewAspect hr ..)
  | newFacet | ensureFacet => exact hsame (owner_applyNewFacet ..)
  | setIndex | setItem | unsetIndex | unsetItem => exact hsame (owner_applyWrite ..)
  | drop =>
    rw [apply_drop hr] at hr'
    cases hr'

/-- An item that needs an index is given the next one, and all indexes are in use once
more. -/
theorem capacity_of_needsIndex (hr : c.owner = some r) (h : r.Consistent)
    (hneeds : r.NeedsIndex change) (hr' : (c.apply change).2.owner = some r') :
    r'.capacity = r.capacity + 1 ∧ r'.count = r.capacity + 1 ∧
      change.handedOut? (c.apply change).1 = some r.capacity := by
  obtain ⟨item, rfl, habsent, hfull⟩ := hneeds
  have hnew := Registry.contains_eq_false_iff.1 habsent
  rw [apply_upsert hr] at hr' ⊢
  obtain rfl : (r.upsert item).2 = r' := Option.some.inj hr'
  rcases h.upsert_cases hnew with ⟨hlt, -⟩ | ⟨-, hindex, hcapacity⟩
  · omega
  · rw [hcapacity, Registry.count_upsert_of_new hnew, hfull]
    exact ⟨rfl, rfl, congrArg some hindex⟩

/-- Any change that needs no index makes do with those that there are. -/
theorem capacity_of_not_needsIndex (hr : c.owner = some r) (h : r.Consistent)
    (hneeds : ¬ r.NeedsIndex change) (hr' : (c.apply change).2.owner = some r') :
    r'.capacity = r.capacity ∧
      ∀ i, change.handedOut? (c.apply change).1 = some i → i < r.capacity := by
  by_cases hchange : ∃ item, change = .upsert item
  · obtain ⟨item, rfl⟩ := hchange
    obtain ⟨hindex, hcapacity⟩ := h.upsert_of_not_needsIndex hneeds
    rw [apply_upsert hr] at hr' ⊢
    obtain rfl : (r.upsert item).2 = r' := Option.some.inj hr'
    refine ⟨hcapacity, ?_⟩
    intro i hi
    obtain rfl : (r.upsert item).1 = i := Option.some.inj hi
    exact hindex
  · have hother : ∀ item, change ≠ .upsert item := fun item heq => hchange ⟨item, heq⟩
    refine ⟨capacity_of_ne_upsert hr hr' hother, ?_⟩
    intro i hi
    unfold Change.handedOut? at hi
    split at hi
    · next item _ _ => exact absurd rfl (hother item)
    · cases hi

/-! ### All histories -/

/-- **The capacity is the greatest number of items that were live at once**, together with
what it was the greatest of before. -/
theorem foldl_max_count_trail (history : List Change) (hr : c.owner = some r)
    (h : r.Consistent) {n : Nat} (hn : r.capacity = max n r.count)
    (hr' : (c.run history).2.owner = some r') :
    ((c.trail history).map count).foldl max n = r'.capacity := by
  induction history generalizing c r n with
  | nil =>
    obtain rfl := owner_inj hr hr'
    rw [trail_nil, List.map_singleton, List.foldl_cons, List.foldl_nil, count_eq hr, hn]
  | cons change history ih =>
    rw [run_cons] at hr'
    obtain ⟨r₁, hr₁⟩ := exists_owner_of_run history hr'
    have hconsistent := consistent_of_apply hr h hr₁
    have hbound := hconsistent.count_add_size_free
    have hstep : r₁.capacity = max r.capacity r₁.count := by
      by_cases hneeds : r.NeedsIndex change
      · obtain ⟨hcapacity, hcount, -⟩ := capacity_of_needsIndex hr h hneeds hr₁
        omega
      · obtain ⟨hcapacity, -⟩ := capacity_of_not_needsIndex hr h hneeds hr₁
        omega
    rw [trail_cons, List.map_cons, List.foldl_cons, count_eq hr, ← hn]
    exact ih hr₁ hconsistent hstep hr'

/-- **The capacity is one more than the greatest index that was handed out**, or what it
was before if that is more. -/
theorem foldl_max_handedOut (history : List Change) (hr : c.owner = some r)
    (h : r.Consistent) (hr' : (c.run history).2.owner = some r') :
    ((c.handedOut history).map (· + 1)).foldl max r.capacity = r'.capacity := by
  induction history generalizing c r with
  | nil =>
    obtain rfl := owner_inj hr hr'
    rfl
  | cons change history ih =>
    rw [run_cons] at hr'
    obtain ⟨r₁, hr₁⟩ := exists_owner_of_run history hr'
    have hconsistent := consistent_of_apply hr h hr₁
    have hstep : ((change.handedOut? (c.apply change).1).toList.map (· + 1)).foldl max
        r.capacity = r₁.capacity := by
      by_cases hneeds : r.NeedsIndex change
      · obtain ⟨hcapacity, -, hindex⟩ := capacity_of_needsIndex hr h hneeds hr₁
        rw [hindex, hcapacity]
        exact Nat.max_eq_right (Nat.le_succ _)
      · obtain ⟨hcapacity, hindex⟩ := capacity_of_not_needsIndex hr h hneeds hr₁
        rw [hcapacity]
        rcases hi : change.handedOut? (c.apply change).1 with _ | i
        · rfl
        · exact Nat.max_eq_left (hindex i hi)
    rw [handedOut_cons, List.map_append, List.foldl_append, hstep]
    exact ih hr₁ hconsistent hr'

/-- The greatest of the successors is the successor of the greatest. -/
theorem foldl_max_map_succ (ns : List Nat) :
    (ns.map (· + 1)).foldl max 0 = ns.max?.elim 0 (· + 1) := by
  have hshift : ∀ (ns : List Nat) (n : Nat),
      (ns.map (· + 1)).foldl max (n + 1) = ns.foldl max n + 1 := by
    intro ns
    induction ns with
    | nil => exact fun n => rfl
    | cons m ns ih =>
      intro n
      rw [List.map_cons, List.foldl_cons, List.foldl_cons, ← ih, Nat.succ_max_succ]
  rcases ns with _ | ⟨n, ns⟩
  · rfl
  · rw [List.map_cons, List.foldl_cons, Nat.zero_max, hshift, List.max?_cons', Option.elim_some]

/-- **The capacity after every history** is the greatest number of items that were live
after some part of it, and one more than the greatest index that it handed out. It does
not shrink as the history goes on; and the next change makes it grow, by one, exactly if
it makes an item live that is not, while every index is in use. -/
theorem capacity_of_run (config : Config) (history : List Change)
    (hlive : ((create config).run history).2.owner = some r) :
    (((create config).trail history).map count).max? = some r.capacity ∧
      r.capacity = ((create config).handedOut history).max?.elim 0 (· + 1) ∧
      (∀ further r', (((create config).run history).2.run further).2.owner = some r' →
        r.capacity ≤ r'.capacity) ∧
      ∀ change r', (((create config).run history).2.apply change).2.owner = some r' →
        (r.NeedsIndex change → r'.capacity = r.capacity + 1) ∧
        (¬ r.NeedsIndex change → r'.capacity = r.capacity) := by
  have h : r.Consistent := consistent_run history rfl Registry.consistent_empty hlive
  refine ⟨?_, ?_, ?_, ?_⟩
  · have hmax := foldl_max_count_trail history rfl Registry.consistent_empty (n := 0) rfl hlive
    rw [← hmax]
    rcases history with _ | ⟨change, history⟩
    · rfl
    -- the first catalog of the trail is the new one, without items
    · rw [trail_cons, List.map_cons, List.max?_cons', List.foldl_cons, Nat.zero_max]
  · rw [← foldl_max_map_succ]
    exact (foldl_max_handedOut history rfl Registry.consistent_empty hlive).symm
  · intro further r' hr'
    exact capacity_le_run further hlive h hr'
  · intro change r' hr'
    exact ⟨fun hneeds => (capacity_of_needsIndex hlive h hneeds hr').1,
      fun hneeds => (capacity_of_not_needsIndex hlive h hneeds hr').1⟩

/-- Two of three items were removed, and two new ones hold their indexes. The capacity is
that of the busiest moments, and all indexes being in use, the next new item needs one
more. -/
theorem capacity_of_run_churn :
    ∃ history r, history = [.upsert "a", .upsert "b", .upsert "c", .remove "a", .remove "b",
        .upsert "d", .upsert "a"] ∧
      ((create {}).run history).2.owner = some r ∧ r.capacity = 3 ∧
      ((create {}).trail history).map count = [0, 1, 2, 3, 2, 1, 2, 3] ∧
      (create {}).handedOut history = [0, 1, 2, 1, 0] ∧
      (((create {}).trail history).map count).max? = some r.capacity ∧
      r.capacity = ((create {}).handedOut history).max?.elim 0 (· + 1) ∧
      ∃ r', (((create {}).run history).2.apply (.upsert "b")).2.owner = some r' ∧
        r.NeedsIndex (.upsert "b") ∧ r'.capacity = r.capacity + 1 := by
  have hstate : ((create {}).run [.upsert "a", .upsert "b", .upsert "c", .remove "a",
      .remove "b", .upsert "d", .upsert "a"]).2.owner.any
        (fun r => r.capacity = 3 ∧ r.contains "b" = false ∧ r.count = r.capacity) = true := by
    decide +kernel
  obtain ⟨r, hr, hfacts⟩ := (Option.any_eq_true _ _).1 hstate
  obtain ⟨hcapacity, hneeds⟩ := of_decide_eq_true hfacts
  obtain ⟨hmax, hindex, -, hgrow⟩ := capacity_of_run {} _ hr
  have hnext := congrArg (·.2.owner) (apply_upsert hr "b")
  exact ⟨_, r, rfl, hr, hcapacity, by decide +kernel, by decide +kernel, hmax, hindex, _, hnext,
    ⟨"b", rfl, hneeds⟩, (hgrow (.upsert "b") _ hnext).1 ⟨"b", rfl, hneeds⟩⟩

end Catalog

end FacetIndex
