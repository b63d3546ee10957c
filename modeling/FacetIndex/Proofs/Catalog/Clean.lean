import FacetIndex.Proofs.Catalog.Consistent
import FacetIndex.Proofs.Facet.Clean

/-!
# No facet of a live catalog keeps a stale bit

A catalog is clean (`FacetIndex.Catalog.Clean`) if its registry is consistent and every
facet under it is clean with respect to the registry. Each effect of
`FacetIndex.Catalog.Effect` keeps it so: removing an item takes its index from *every*
facet that stands under an identifier, in whichever aspect it was created and however
late, and a facet created later starts without a one.

What this gives a user is collected in `FacetIndex.Catalog.facets_of_run`, for every
identifier that a history ever handed out.
-/

namespace FacetIndex

/-- The facet that an outcome hands out, new or found. -/
def Outcome.facet? : Outcome → Option FacetId
  | .facet F => some F
  | .facetTaken refusal => some refusal.existing
  | _ => none

namespace Catalog

/-- **The registry is consistent and no facet keeps a stale bit.** -/
structure Clean (c : Catalog) (r : Registry) : Prop where
  consistent : r.Consistent
  facets : ∀ F f, c.facetOf? F = some f → f.Clean r

variable {c c' : Catalog} {r r' : Registry} {F : FacetId}

/-! ### One change -/

theorem clean_create (config : Config) : (create config).Clean .empty where
  consistent := Registry.consistent_empty
  facets F f hF := by
    rw [facetOf?_create] at hF
    cases hF

/-- Replacing a clean facet by a clean one. -/
theorem Clean.putFacet (h : c.Clean r) {f f' : Facet} (hF : c.facetOf? F = some f)
    (hf' : f'.Clean r) : (c.putFacet F f').Clean r where
  consistent := h.consistent
  facets G g hG := by
    rw [facetOf?_putFacet hF] at hG
    split at hG
    · obtain rfl : f' = g := Option.some.inj hG
      exact hf'
    · exact h.facets G g hG

/-- **No effect brings a stale bit about.** -/
theorem Clean.of_effect (h : c.Clean r) (heffect : Effect c c') (hr : c.owner = some r)
    (hr' : c'.owner = some r') : c'.Clean r' := by
  have hconsistent := consistent_of_effect heffect hr hr' h.consistent
  cases heffect with
  | same =>
    obtain rfl := owner_inj hr hr'
    exact h
  | @occupy r₀ item hr₀ hnew =>
    obtain rfl := owner_inj hr hr₀
    obtain rfl : (r.upsert item).2 = r' := Option.some.inj hr'
    exact ⟨hconsistent, fun G g hG =>
      (h.facets G g hG).of_admits (h.consistent.admits_upsert hnew)⟩
  | @vacate r₀ item i hr₀ hi =>
    obtain rfl := owner_inj hr hr₀
    obtain rfl : r.vacate item i = r' := Option.some.inj hr'
    refine ⟨hconsistent, ?_⟩
    intro G g hG
    -- Whatever stands under the identifier has forgotten the index.
    rw [facetOf?_forget, facetOf?_withRegistry] at hG
    obtain ⟨g₀, hg₀, rfl⟩ := Option.map_eq_some_iff.1 hG
    exact (h.facets G g₀ hg₀).forget_vacate item i
  | addAspect name displayName =>
    obtain rfl := owner_inj hr hr'
    refine ⟨hconsistent, ?_⟩
    intro G g hG
    rw [facetOf?_pushAspect] at hG
    exact h.facets G g hG
  | @addFacet id a ha name displayName =>
    obtain rfl := owner_inj hr hr'
    refine ⟨hconsistent, ?_⟩
    intro G g hG
    rw [facetOf?_addFacet ha] at hG
    split at hG
    · obtain rfl := Option.some.inj hG
      rw [domain, hr]
      exact Facet.clean_zeros name displayName a.name r
    · exact h.facets G g hG
  | @mark r₀ F f i item hr₀ hF hi =>
    obtain rfl := owner_inj hr hr₀
    obtain rfl := owner_inj hr ((owner_putFacet ..).symm.trans hr')
    exact h.putFacet hF ((h.facets F f hF).mark hi)
  | @unmark r₀ F f i hr₀ hF hi =>
    obtain rfl := owner_inj hr hr₀
    obtain rfl := owner_inj hr ((owner_putFacet ..).symm.trans hr')
    exact h.putFacet hF ((h.facets F f hF).unmark hi)
  | drop => cases hr'

theorem Clean.apply (h : c.Clean r) (hr : c.owner = some r) {change : Change}
    (hr' : (c.apply change).2.owner = some r') : (c.apply change).2.Clean r' :=
  h.of_effect (effect_of_consistent hr h.consistent change) hr hr'

/-- A clean catalog stays clean as long as it is there. -/
theorem Clean.run (h : c.Clean r) (hr : c.owner = some r) (history : List Change)
    (hr' : (c.run history).2.owner = some r') : (c.run history).2.Clean r' :=
  run_induction (P := Clean) (fun _ _ _ _ hr h hr' => h.apply hr hr') history hr h hr'

/-- **Every history of a new catalog leaves it clean.** -/
theorem clean_of_run (config : Config) (history : List Change)
    (hlive : ((create config).run history).2.owner = some r) :
    ((create config).run history).2.Clean r :=
  (clean_create config).run rfl history hlive

/-! ### Identifiers stand for facets for good -/

/-- What stands for a facet goes on standing for one. -/
theorem facetOf?_isSome_of_effect (heffect : Effect c c') (hF : (c.facetOf? F).isSome) :
    (c'.facetOf? F).isSome := by
  cases heffect with
  | same => exact hF
  | occupy => exact hF
  | vacate => rw [facetOf?_forget, Option.isSome_map]; exact hF
  | addAspect => rw [facetOf?_pushAspect]; exact hF
  | addFacet ha =>
    rw [facetOf?_addFacet ha]
    split
    · rfl
    · exact hF
  | mark _ hG | unmark _ hG =>
    rw [facetOf?_putFacet hG]
    split
    · rfl
    · exact hF
  | drop => rwa [facetOf?_drop]

/-- Going on with a value, or with the refusal, hands out no facet. -/
theorem facet?_settle {α : Type} (c : Catalog) {outcome : α → Outcome}
    (houtcome : ∀ a, (outcome a).facet? = none) (result : Except Error (α × Catalog)) :
    (settle c outcome result).1.facet? = none := by
  rcases result with cause | ⟨a, c'⟩
  · rfl
  · exact houtcome a

theorem facet?_applyWrite (c : Catalog) (F : FacetId)
    (change : Facet → Option Registry → Except Error Facet) :
    (c.applyWrite F change).1.facet? = none := by
  rw [applyWrite]
  split
  · exact c.facet?_settle (fun _ => rfl) _
  · rfl

/-- **A facet that is handed out is there**, whether it was created just now or found
under its name. -/
theorem facetOf?_isSome_of_applyNewFacet {id : AspectId} {name displayName : String}
    {outcome : Except (AlreadyExists FacetId) FacetId → Outcome}
    (houtcome : ∀ created, (outcome created).facet? = some (orExisting created))
    (hF : (c.applyNewFacet id name displayName outcome).1.facet? = some F) :
    ((c.applyNewFacet id name displayName outcome).2.facetOf? F).isSome := by
  rcases ha : c.aspectOf? id with _ | a
  · rw [applyNewFacet_of_unknown ha] at hF
    cases hF
  · rcases hname : a.find? name with _ | k
    · rw [applyNewFacet_of_some (newFacet_of_new ha hname displayName)] at hF ⊢
      obtain rfl := Option.some.inj ((houtcome _).symm.trans hF)
      simp only [orExisting, facetOf?_addFacet ha, ↓reduceIte, Option.isSome_some]
    · rw [applyNewFacet_of_some (newFacet_of_taken ha hname displayName)] at hF ⊢
      obtain rfl := Option.some.inj ((houtcome _).symm.trans hF)
      exact facetOf?_isSome_of_find? ha hname

theorem facetOf?_isSome_of_apply {change : Change} (hF : (c.apply change).1.facet? = some F) :
    ((c.apply change).2.facetOf? F).isSome := by
  have habsurd : (c.apply change).1.facet? = none → ((c.apply change).2.facetOf? F).isSome := by
    intro hnone
    rw [hnone] at hF
    cases hF
  cases change with
  | upsert | remove | drop => exact habsurd (c.facet?_settle (fun _ => rfl) _)
  | newAspect => exact habsurd (c.facet?_settle (fun created => by cases created <;> rfl) _)
  | ensureAspect => exact habsurd (c.facet?_settle (fun _ => rfl) _)
  | newFacet => exact facetOf?_isSome_of_applyNewFacet (fun created => by cases created <;> rfl) hF
  | ensureFacet => exact facetOf?_isSome_of_applyNewFacet (fun _ => rfl) hF
  | setIndex | setItem | unsetIndex | unsetItem => exact habsurd (c.facet?_applyWrite _ _)

theorem facetOf?_isSome_run (hconsistent : ∀ r, c.owner = some r → r.Consistent)
    (history : List Change) (hF : (c.facetOf? F).isSome) :
    ((c.run history).2.facetOf? F).isSome := by
  refine (run_invariant (P := fun c => (∀ r, c.owner = some r → r.Consistent) ∧
    (c.facetOf? F).isSome) (fun c change h => ?_) history ⟨hconsistent, hF⟩).2
  exact ⟨consistent_apply h.1 change, facetOf?_isSome_of_effect (effect_apply h.1 change) h.2⟩

/-- A facet that is handed out on the way stays to the end. -/
theorem facetOf?_isSome_of_run (hconsistent : ∀ r, c.owner = some r → r.Consistent)
    (history : List Change) {outcome : Outcome} (hmem : outcome ∈ (c.run history).1)
    (hF : outcome.facet? = some F) : ((c.run history).2.facetOf? F).isSome := by
  induction history generalizing c with
  | nil => cases hmem
  | cons change history ih =>
    rcases List.mem_cons.1 hmem with rfl | hmem
    · exact facetOf?_isSome_run (consistent_apply hconsistent change) history
        (facetOf?_isSome_of_apply hF)
    · exact ih (consistent_apply hconsistent change) hmem

/-- **Whatever facet a history of a new catalog handed out is there at its end.** -/
theorem facetOf?_isSome_of_create (config : Config) (history : List Change) {outcome : Outcome}
    (hmem : outcome ∈ ((create config).run history).1) (hF : outcome.facet? = some F) :
    (((create config).run history).2.facetOf? F).isSome := by
  refine facetOf?_isSome_of_run (fun r hr => ?_) history hmem hF
  obtain rfl : Registry.empty = r := Option.some.inj hr
  exact Registry.consistent_empty

/-! ### After every history -/

/-- **No stale bits after any history.** Every facet that the history handed out is there.
Every facet that is there has as many blocks as its size asks for and nothing past its
size, covers no index that was never made, and lists only indexes of live items. So its
items can be listed, and are as many as it counts; an index that is free reads as a zero;
nothing is left of it when the live items are taken away; and as long as indexes can be
written in sixty-four bits it never runs out of room. -/
theorem facets_of_run (config : Config) (history : List Change)
    (hlive : ((create config).run history).2.owner = some r) :
    (∀ outcome ∈ ((create config).run history).1, ∀ F, outcome.facet? = some F →
      (((create config).run history).2.facetOf? F).isSome) ∧
    ∀ F f, ((create config).run history).2.facetOf? F = some f →
      f.bits.blocks.size = blocksFor f.bits.size ∧
      (∀ i, f.bits.size ≤ i → f.bits.stored i = false) ∧
      f.bits.size ≤ r.capacity ∧
      (∀ i ∈ f.indexes, ∃ item, r.indexOf item = .ok i) ∧
      (∃ items, f.items? (some r) = .ok items ∧ items.length = f.count) ∧
      (∀ i, i < r.capacity → (∀ item, r.itemAt i ≠ .ok item) →
        f.getIndex? (some r) i = .ok false) ∧
      f.bits.diffCount r.liveSet = 0 ∧
      (r.capacity ≤ maxIndex → f.HasRoom r) := by
  have hclean := clean_of_run config history hlive
  constructor
  · exact fun outcome hmem F hF => facetOf?_isSome_of_create config history hmem hF
  · intro F f hF
    have h := hclean.facets F f hF
    refine ⟨h.canonical.wellSized, h.canonical.padding, h.size_le, fun i hi => ?_, ?_,
      fun i hi hfree => ?_, h.diffCount_liveSet, h.hasRoom hclean.consistent⟩
    · obtain ⟨item, hitem⟩ := h.slot_of_mem_indexes hi
      exact ⟨item, Registry.indexOf_eq_ok_iff.2 (hclean.consistent.indexes_of_slot hitem)⟩
    · obtain ⟨items, hitems, hall⟩ := h.items?_eq_ok
      exact ⟨items, hitems, hall.length_eq.symm.trans h.length_indexes⟩
    · have hnone := h.stored_eq_false fun item hitem =>
        hfree item (Registry.itemAt_eq_ok_iff.2 hitem)
      rw [Facet.getIndex?_of_lt f hi, h.contains_eq, hnone]

/-- An item with a property was removed; the facet, which grew since its creation, was
asked for once more under its name. -/
theorem facets_of_run_after_removal :
    ∃ r f, ((create {}).run [.newAspect "Kind" "Kind", .newFacet ⟨0⟩ "new" "New", .upsert "a",
        .upsert "b", .setItem ⟨⟨0⟩, 0⟩ "a", .unsetIndex ⟨⟨0⟩, 0⟩ 1, .remove "a",
        .ensureFacet ⟨0⟩ "new"]).2.owner = some r ∧
      ((create {}).run [.newAspect "Kind" "Kind", .newFacet ⟨0⟩ "new" "New", .upsert "a",
        .upsert "b", .setItem ⟨⟨0⟩, 0⟩ "a", .unsetIndex ⟨⟨0⟩, 0⟩ 1, .remove "a",
        .ensureFacet ⟨0⟩ "new"]).2.facetOf? ⟨⟨0⟩, 0⟩ = some f ∧
      f.bits.size = 2 ∧ r.capacity = 2 ∧ f.getIndex? (some r) 0 = .ok false ∧
      f.bits.diffCount r.liveSet = 0 ∧ f.HasRoom r := by
  have hstate : ((create {}).run [.newAspect "Kind" "Kind", .newFacet ⟨0⟩ "new" "New",
      .upsert "a", .upsert "b", .setItem ⟨⟨0⟩, 0⟩ "a", .unsetIndex ⟨⟨0⟩, 0⟩ 1, .remove "a",
      .ensureFacet ⟨0⟩ "new"]).2.owner.any (fun r => r.capacity = 2 ∧ r.slots[0]? = some none) =
      true := by
    decide +kernel
  have hfacet : (((create {}).run [.newAspect "Kind" "Kind", .newFacet ⟨0⟩ "new" "New",
      .upsert "a", .upsert "b", .setItem ⟨⟨0⟩, 0⟩ "a", .unsetIndex ⟨⟨0⟩, 0⟩ 1, .remove "a",
      .ensureFacet ⟨0⟩ "new"]).2.facetOf? ⟨⟨0⟩, 0⟩).any (fun f => f.bits.size = 2) = true := by
    decide +kernel
  obtain ⟨r, hr, hfacts⟩ := (Option.any_eq_true _ _).1 hstate
  obtain ⟨hcapacity, hvacant⟩ := of_decide_eq_true hfacts
  obtain ⟨f, hf, hsize⟩ := (Option.any_eq_true _ _).1 hfacet
  obtain ⟨-, -, -, -, -, hfree, hdiff, hroom⟩ := (facets_of_run {} _ hr).2 _ f hf
  refine ⟨r, f, hr, hf, of_decide_eq_true hsize, hcapacity, hfree 0 (by omega) ?_, hdiff,
    hroom (by rw [hcapacity]; decide)⟩
  intro item hitem
  rw [Registry.itemAt_eq_ok_iff, hvacant] at hitem
  cases hitem

end Catalog

end FacetIndex
