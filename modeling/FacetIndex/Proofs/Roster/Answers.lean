import FacetIndex.Proofs.Roster.Simulation

/-!
# What a catalog answers, read off a roster

All that can be asked of a catalog by items has its answer in the roster
(`FacetIndex.Roster.Answers`), and the catalog gives this answer after every history
(`FacetIndex.Catalog.answers_of_run`). Requests by index are answered from the roster too,
up to the question which indexes were made and which are free.
-/

namespace FacetIndex

namespace Roster

/-- **The facet answers as the roster does.** -/
structure AnswersFor (m : Roster) (c : Catalog) (r : Registry) (F : FacetId) (f : Facet) :
    Prop where
  getItem : ∀ item, f.getItem? (some r) item =
    if item ∈ m.live then .ok (decide (item ∈ m.holders F)) else .error (.itemNotFound item)
  count : f.count = (m.holders F).card
  items : ∃ items, f.items? (some r) = .ok items ∧ items.Nodup ∧
    ∀ item, item ∈ items ↔ item ∈ m.holders F
  setItem : ∀ item, (c.apply (.setItem F item)).1 =
    if item ∈ m.live then .written else .refused (.itemNotFound item)
  unsetItem : ∀ item, (c.apply (.unsetItem F item)).1 =
    if item ∈ m.live then .written else .refused (.itemNotFound item)
  /-- A property can be given at an index that was made and is not free. -/
  setIndex : ∀ i, (c.apply (.setIndex F i)).1 =
    if i < r.capacity then
      if (c.holder? i).isSome then .written else .refused (.indexNotFound i)
    else .refused (.indexOutOfRange i r.capacity)
  /-- A property can be taken at an index that was made, be it free or not. -/
  unsetIndex : ∀ i, (c.apply (.unsetIndex F i)).1 =
    if i < r.capacity then .written else .refused (.indexOutOfRange i r.capacity)

/-- **The catalog answers as the roster does.** -/
structure Answers (m : Roster) (c : Catalog) (r : Registry) : Prop where
  contains : ∀ item, r.contains item = true ↔ item ∈ m.live
  count : r.count = m.live.card
  remove : ∀ item, (c.apply (.remove item)).1 = .removed (decide (item ∈ m.live))
  facets : ∀ F f, c.facetOf? F = some f → m.AnswersFor c r F f
  /-- An item that is made live has no property, whichever index it is given. -/
  fresh : ∀ item, item ∉ m.live → ∀ F f, (c.apply (.upsert item)).2.facetOf? F = some f →
    f.getItem? (c.apply (.upsert item)).2.owner item = .ok false
  /-- A change that is refused changes nothing. -/
  refused : ∀ change cause, (c.apply change).1 = .refused cause → (c.apply change).2 = c

namespace Describes

variable {m : Roster} {c : Catalog} {r : Registry} {F : FacetId} {f : Facet} {item : String}

theorem count_eq_card (h : m.Describes c r) : r.count = m.live.card := by
  have hset : r.items.toFinset = m.live := by
    ext item
    rw [List.mem_toFinset, h.clean.consistent.mem_items_iff, h.live]
  rw [← hset, List.toFinset_card_of_nodup h.clean.consistent.nodup_items,
    h.clean.consistent.length_items]

theorem getItem? (h : m.Describes c r) (hF : c.facetOf? F = some f) (item : String) :
    f.getItem? (some r) item =
      if item ∈ m.live then .ok (decide (item ∈ m.holders F)) else .error (.itemNotFound item) := by
  rcases hi : r.indexes[item]? with _ | i
  · rw [if_neg (h.notMem_live hi), Facet.getItem?_of_absent f hi]
  · rw [if_pos (h.mem_live hi),
      (h.holders F f hF).getItem?_of_live (h.clean.facets F f hF) hi]

/-- A holder is live, so a new item holds nothing. -/
theorem getItem?_of_new (h : m.Describes c r) (hr : c.owner = some r) (hnew : item ∉ m.live)
    (hF : (c.apply (.upsert item)).2.facetOf? F = some f) :
    f.getItem? (c.apply (.upsert item)).2.owner item = .ok false := by
  have howner : (c.apply (.upsert item)).2.owner = some (r.upsert item).2 := by
    rw [Catalog.apply_upsert hr, Catalog.owner_withRegistry]
  have hbefore : c.facetOf? F = some f := by
    rwa [Catalog.apply_upsert hr, Catalog.facetOf?_withRegistry] at hF
  have hlacks : item ∉ m.holders F := fun hmem =>
    hnew ((h.live item).2 ((h.holders F f hbefore).contains hmem))
  have hlive : item ∈ (m.enroll item).live := Finset.mem_insert_self item m.live
  rw [howner, (h.upsert hr item howner).getItem? hF, if_pos hlive]
  exact congrArg Except.ok (decide_eq_false hlacks)

theorem answersFor (h : m.Describes c r) (hr : c.owner = some r) (hroom : r.capacity ≤ maxIndex)
    (hF : c.facetOf? F = some f) : m.AnswersFor c r F f where
  getItem := h.getItem? hF
  count := (h.holders F f hF).count_eq_card (h.clean.facets F f hF) h.clean.consistent
  items := by
    obtain ⟨items, hitems, -, hnodup, hmem⟩ :=
      (h.holders F f hF).items?_spec (h.clean.facets F f hF) h.clean.consistent
    exact ⟨items, hitems, hnodup, hmem⟩
  setItem item := (h.setItem hr hF hroom item).1
  unsetItem item := (h.unsetItem hr hF hroom item).1
  setIndex i := (h.setIndex hr hF hroom i).1
  unsetIndex i := (h.unsetIndex hr hF hroom i).1

/-- **A catalog answers as a roster that describes it.** -/
theorem answers (h : m.Describes c r) (hr : c.owner = some r) (hroom : r.capacity ≤ maxIndex) :
    m.Answers c r where
  contains item := (h.live item).symm
  count := h.count_eq_card
  remove item := by
    obtain ⟨r', hr'⟩ : ∃ r', (c.apply (.remove item)).2.owner = some r' := by
      rcases hi : r.indexes[item]? with _ | i
      · exact ⟨r, by rw [Catalog.apply_remove_of_absent hr hi, hr]⟩
      · refine ⟨r.vacate item i, ?_⟩
        rw [Catalog.apply_remove_of_live hr hi, Catalog.owner_forget, Catalog.owner_withRegistry]
    exact (h.remove hr item hr').1
  facets F f hF := h.answersFor hr hroom hF
  fresh item hnew F f hF := h.getItem?_of_new hr hnew hF
  refused _ _ := Catalog.eq_of_apply_refused

end Describes

end Roster

namespace Catalog

variable {r : Registry}

/-- **A catalog answers as its roster does, after every history** that leaves it there. What
the history handed out as a facet is a facet then, and answers too. Indexes are numbers
without a bound here; `hroom` says that the capacity, like every size, is one of sixty-four
bits. -/
theorem answers_of_run (config : Config) (history : List Change)
    (hlive : ((create config).run history).2.owner = some r) (hroom : r.capacity ≤ maxIndex) :
    (∀ outcome ∈ ((create config).run history).1, ∀ F, outcome.facet? = some F →
      (((create config).run history).2.facetOf? F).isSome) ∧
    (Roster.empty.replay (create config) history).Answers ((create config).run history).2 r :=
  ⟨fun _ hmem _ hF => facetOf?_isSome_of_create config history hmem hF,
    ((Roster.describes_create config).run rfl history hlive hroom).answers hlive hroom⟩

/-- The index of an item with a property went to another item, and a zero was written to an
index while it was free. -/
theorem answers_of_run_reuse :
    ∃ c r m, ((create {}).run [.newAspect "Kind" "Kind", .newFacet ⟨0⟩ "new" "New",
        .upsert "a", .setItem ⟨⟨0⟩, 0⟩ "a", .upsert "b", .setIndex ⟨⟨0⟩, 0⟩ 1, .remove "a",
        .unsetIndex ⟨⟨0⟩, 0⟩ 0, .upsert "c"]).2 = c ∧
      Roster.empty.replay (create {}) [.newAspect "Kind" "Kind", .newFacet ⟨0⟩ "new" "New",
        .upsert "a", .setItem ⟨⟨0⟩, 0⟩ "a", .upsert "b", .setIndex ⟨⟨0⟩, 0⟩ 1, .remove "a",
        .unsetIndex ⟨⟨0⟩, 0⟩ 0, .upsert "c"] = m ∧
      c.owner = some r ∧ r.indexes["c"]? = some 0 ∧ r.capacity = 2 ∧
      m.live = {"b", "c"} ∧ m.holders ⟨⟨0⟩, 0⟩ = {"b"} ∧ (c.facetOf? ⟨⟨0⟩, 0⟩).isSome ∧
      m.Answers c r := by
  have hstate : ((create {}).run [.newAspect "Kind" "Kind", .newFacet ⟨0⟩ "new" "New",
      .upsert "a", .setItem ⟨⟨0⟩, 0⟩ "a", .upsert "b", .setIndex ⟨⟨0⟩, 0⟩ 1, .remove "a",
      .unsetIndex ⟨⟨0⟩, 0⟩ 0, .upsert "c"]).2.owner.any
        (fun r => r.indexes["c"]? = some 0 ∧ r.capacity = 2) = true := by
    decide +kernel
  obtain ⟨r, hr, hfacts⟩ := (Option.any_eq_true _ _).1 hstate
  obtain ⟨hc, hcapacity⟩ := of_decide_eq_true hfacts
  have hcreated : .facet ⟨⟨0⟩, 0⟩ ∈ ((create {}).run [.newAspect "Kind" "Kind",
      .newFacet ⟨0⟩ "new" "New", .upsert "a", .setItem ⟨⟨0⟩, 0⟩ "a", .upsert "b",
      .setIndex ⟨⟨0⟩, 0⟩ 1, .remove "a", .unsetIndex ⟨⟨0⟩, 0⟩ 0, .upsert "c"]).1 := by
    decide +kernel
  obtain ⟨hthere, hanswers⟩ := answers_of_run {} _ hr (by rw [hcapacity]; decide)
  exact ⟨_, r, _, rfl, rfl, hr, hc, hcapacity, by decide +kernel, by decide +kernel,
    hthere _ hcreated _ rfl, hanswers⟩

end Catalog

end FacetIndex
