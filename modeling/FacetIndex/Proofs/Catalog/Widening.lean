import FacetIndex.Proofs.Catalog.Clean
import FacetIndex.Proofs.Catalog.Directory
import FacetIndex.Proofs.Facet.Widening

/-!
# Lazy growth cannot be observed

The facets of a catalog grow when something is written past their end. Suppose some of
them are made wider at once (`FacetIndex.Catalog.widen`), up to the capacity and each as
far as one likes. Nothing that happens later shows it: every change has the same outcome,
and leaves the catalog that it would have left, with the same facets wider than
they would be (`FacetIndex.Catalog.Clean.apply_widen`). This is a square that commutes, and
it is put together from those of single facets; a history is a row of such squares
(`FacetIndex.Catalog.Clean.run_widen`).

A facet that is created later is as wide as the capacity from the start, and the capacity
never shrinks, so there the widening has nothing to do. That is why it has to keep to the
capacity, and why the catalog has to be there: a facet created in an orphaned aspect
covers nothing.

In particular facets that grow on demand behave as if they grew in step with the catalog
(`FacetIndex.Catalog.runInStep`).
-/

namespace FacetIndex

/-! ### One aspect -/

namespace Aspect

/-- The aspect with the facet at every place `k` made to cover `width k` indexes. -/
def widen (a : Aspect) (width : Nat → Nat) : Aspect :=
  { a with facets := a.facets.mapIdx fun k f => f.widen (width k) }

variable (a : Aspect) (width : Nat → Nat)

theorem find?_widen (name : String) : (a.widen width).find? name = a.find? name := by
  refine findIdx?_eq_of_names Facet.name (fun k => ?_) name
  rw [widen, Array.getElem?_mapIdx, Option.map_map]
  rfl

theorem putFacet_widen (k : Nat) (f : Facet) :
    (a.widen width).putFacet k (f.widen (width k)) = (a.putFacet k f).widen width := by
  simp only [putFacet, widen, Array.mapIdx_setIfInBounds]

/-- A new facet has the width of the capacity already. -/
theorem addFacet_widen {capacity : Nat} (h : width a.facets.size ≤ capacity)
    (name displayName : String) :
    (a.widen width).addFacet name displayName capacity =
      (a.addFacet name displayName capacity).widen width := by
  simp only [addFacet, widen, Array.mapIdx_push, Facet.widen_zeros h]

theorem forget_widen (h : ∀ (k : Nat) (f : Facet), a.facets[k]? = some f → f.bits.Canonical)
    (i : Nat) : (a.widen width).forget i = (a.forget i).widen width := by
  have hfacets : (a.facets.mapIdx fun k f => f.widen (width k)).map (·.forget i) =
      (a.facets.map (·.forget i)).mapIdx fun k f => f.widen (width k) := by
    refine Array.ext_getElem? fun k => ?_
    simp only [Array.getElem?_map, Array.getElem?_mapIdx]
    rcases hf : a.facets[k]? with _ | f
    · rfl
    · exact congrArg some (Facet.forget_widen (h k f hf) i (width k))
  simp only [forget, widen, hfacets]

theorem widen_widen (h : ∀ (k : Nat) (f : Facet), a.facets[k]? = some f → f.bits.Canonical)
    (other : Nat → Nat) :
    (a.widen width).widen other = a.widen fun k => max (width k) (other k) := by
  have hfacets : (a.facets.mapIdx fun k f => f.widen (width k)).mapIdx
        (fun k f => f.widen (other k)) =
      a.facets.mapIdx fun k f => f.widen (max (width k) (other k)) := by
    refine Array.ext_getElem? fun k => ?_
    simp only [Array.getElem?_mapIdx]
    rcases hf : a.facets[k]? with _ | f
    · rfl
    · exact congrArg some (Facet.widen_widen (h k f hf).wellSized (width k) (other k))
  simp only [widen, hfacets]

end Aspect

namespace Catalog

/-! ### One catalog -/

/-- The catalog with every facet `F` made to cover `width F` indexes, if it covers fewer. -/
def widen (c : Catalog) (width : FacetId → Nat) : Catalog :=
  { c with aspects := c.aspects.mapIdx fun n a => a.widen fun k => width ⟨⟨n⟩, k⟩ }

section Shape

variable (c : Catalog) (width : FacetId → Nat)

theorem aspectOf?_widen (id : AspectId) :
    (c.widen width).aspectOf? id = (c.aspectOf? id).map (·.widen fun k => width ⟨id, k⟩) :=
  Array.getElem?_mapIdx

theorem facetOf?_widen (F : FacetId) :
    (c.widen width).facetOf? F = (c.facetOf? F).map (·.widen (width F)) := by
  rw [facetOf?, facetOf?, aspectOf?_widen]
  rcases c.aspectOf? F.aspect with _ | a
  · rfl
  · exact Array.getElem?_mapIdx

theorem findAspect?_widen (name : String) :
    (c.widen width).findAspect? name = c.findAspect? name := by
  refine congrArg _ (findIdx?_eq_of_names Aspect.name (fun n => ?_) name)
  rw [widen, Array.getElem?_mapIdx, Option.map_map]
  rfl

theorem putAspect_widen (id : AspectId) (a : Aspect) :
    (c.widen width).putAspect id (a.widen fun k => width ⟨id, k⟩) =
      (c.putAspect id a).widen width := by
  simp only [putAspect, widen, Array.mapIdx_setIfInBounds]

theorem putFacet_widen (F : FacetId) (f : Facet) :
    (c.widen width).putFacet F (f.widen (width F)) = (c.putFacet F f).widen width := by
  rw [putFacet, putFacet, aspectOf?_widen]
  rcases c.aspectOf? F.aspect with _ | a
  · rfl
  · rw [Option.map_some]
    exact (congrArg _ (a.putFacet_widen (fun k => width ⟨F.aspect, k⟩) F.number f)).trans
      (c.putAspect_widen width F.aspect _)

theorem newAspect_widen (name displayName : String) :
    (c.widen width).newAspect name displayName =
      ((c.newAspect name displayName).1, (c.newAspect name displayName).2.widen width) := by
  rw [newAspect, newAspect, findAspect?_widen]
  rcases c.findAspect? name with _ | id
  · simp only [widen, Array.mapIdx_push, Array.size_mapIdx]
    rfl
  · rfl

end Shape

section Changes

variable {c : Catalog} {r : Registry} {width : FacetId → Nat}

/-! ### One change -/

theorem applyNewAspect_widen (hr : c.owner = some r) (name displayName : String)
    (outcome : Except (AlreadyExists AspectId) AspectId → Outcome) :
    (c.widen width).applyNewAspect name displayName outcome =
      ((c.applyNewAspect name displayName outcome).1,
        (c.applyNewAspect name displayName outcome).2.widen width) := by
  have hr' : (c.widen width).owner = some r := hr
  rw [applyNewAspect_eq hr', applyNewAspect_eq hr, newAspect_widen]

theorem applyNewFacet_widen (hr : c.owner = some r) (hwidth : ∀ F, width F ≤ r.capacity)
    (id : AspectId) (name displayName : String)
    (outcome : Except (AlreadyExists FacetId) FacetId → Outcome) :
    (c.widen width).applyNewFacet id name displayName outcome =
      ((c.applyNewFacet id name displayName outcome).1,
        (c.applyNewFacet id name displayName outcome).2.widen width) := by
  have hwider := c.aspectOf?_widen width id
  rcases ha : c.aspectOf? id with _ | a
  · rw [ha, Option.map_none] at hwider
    rw [applyNewFacet_of_unknown ha, applyNewFacet_of_unknown hwider]
  · rw [ha, Option.map_some] at hwider
    have hfind := a.find?_widen (fun k => width ⟨id, k⟩) name
    rcases hname : a.find? name with _ | k
    · rw [hname] at hfind
      -- the new facet covers the whole domain, so that there is nothing to widen
      have hcapacity : width ⟨id, a.facets.size⟩ ≤ c.domain := by
        rw [domain_eq hr]
        exact hwidth _
      have hplace : (a.widen fun k => width ⟨id, k⟩).facets.size = a.facets.size :=
        Array.size_mapIdx
      have hdomain : (c.widen width).domain = c.domain := rfl
      rw [applyNewFacet_of_some (newFacet_of_new ha hname displayName),
        applyNewFacet_of_some (newFacet_of_new hwider hfind displayName), hplace, hdomain,
        Aspect.addFacet_widen _ _ hcapacity, putAspect_widen]
    · rw [hname] at hfind
      rw [applyNewFacet_of_some (newFacet_of_taken ha hname displayName),
        applyNewFacet_of_some (newFacet_of_taken hwider hfind displayName)]

/-- A request to write does to a wider facet what it does to the facet, and so it does to
the catalog. -/
theorem applyWrite_widen {F : FacetId} {change : Facet → Option Registry → Except Error Facet}
    (h : ∀ f, c.facetOf? F = some f →
      change (f.widen (width F)) c.owner = (change f c.owner).map (·.widen (width F))) :
    (c.widen width).applyWrite F change =
      ((c.applyWrite F change).1, (c.applyWrite F change).2.widen width) := by
  have hwider := c.facetOf?_widen width F
  rcases hF : c.facetOf? F with _ | f
  · rw [hF, Option.map_none] at hwider
    rw [applyWrite_of_unknown hF, applyWrite_of_unknown hwider]
  · rw [hF, Option.map_some] at hwider
    have hchange := h f hF
    rcases hf' : change f c.owner with cause | f'
    · rw [hf'] at hchange
      rw [applyWrite_of_error hF hf', applyWrite_of_error hwider hchange]
    · rw [hf'] at hchange
      rw [applyWrite_of_ok hF hf', applyWrite_of_ok hwider hchange, putFacet_widen]

namespace Clean

variable (h : c.Clean r)

include h

theorem widen (hwidth : ∀ F, width F ≤ r.capacity) : (c.widen width).Clean r where
  consistent := h.consistent
  facets F f hF := by
    rw [facetOf?_widen] at hF
    obtain ⟨f₀, hF₀, rfl⟩ := Option.map_eq_some_iff.1 hF
    exact (h.facets F f₀ hF₀).widen (hwidth F)

/-- The facets of an aspect are canonical, whichever it is. -/
theorem canonical {n k : Nat} {a : Aspect} {f : Facet} (ha : c.aspects[n]? = some a)
    (hf : a.facets[k]? = some f) : f.bits.Canonical := by
  refine (h.facets ⟨⟨n⟩, k⟩ f ?_).canonical
  rw [facetOf?, aspectOf?, ha, Option.bind_some, hf]

theorem forget_widen (i : Nat) : (c.widen width).forget i = (c.forget i).widen width := by
  have haspects : (c.aspects.mapIdx fun n a => a.widen fun k => width ⟨⟨n⟩, k⟩).map (·.forget i) =
      (c.aspects.map (·.forget i)).mapIdx fun n a => a.widen fun k => width ⟨⟨n⟩, k⟩ := by
    refine Array.ext_getElem? fun n => ?_
    simp only [Array.getElem?_map, Array.getElem?_mapIdx]
    rcases ha : c.aspects[n]? with _ | a
    · rfl
    · exact congrArg some (a.forget_widen _ (fun k f hf => h.canonical ha hf) i)
  simp only [forget, Catalog.widen, haspects]

/-- Making the facets wider twice is making them as wide as the greater of the two. -/
theorem widen_widen (other : FacetId → Nat) :
    (c.widen width).widen other = c.widen fun F => max (width F) (other F) := by
  have haspects : (c.aspects.mapIdx fun n a => a.widen fun k => width ⟨⟨n⟩, k⟩).mapIdx
        (fun n a => a.widen fun k => other ⟨⟨n⟩, k⟩) =
      c.aspects.mapIdx fun n a => a.widen fun k => max (width ⟨⟨n⟩, k⟩) (other ⟨⟨n⟩, k⟩) := by
    refine Array.ext_getElem? fun n => ?_
    simp only [Array.getElem?_mapIdx]
    rcases ha : c.aspects[n]? with _ | a
    · rfl
    · exact congrArg some (a.widen_widen _ (fun k f hf => h.canonical ha hf) _)
  simp only [Catalog.widen, haspects]

/-- **A change to the wider catalog** has the outcome that it has for the catalog, and what
it leaves is wider in the same way. -/
theorem apply_widen (hr : c.owner = some r) (hwidth : ∀ F, width F ≤ r.capacity)
    (change : Change) :
    (c.widen width).apply change = ((c.apply change).1, (c.apply change).2.widen width) := by
  have hr' : (c.widen width).owner = some r := hr
  have hsized : ∀ {F f}, c.facetOf? F = some f → f.bits.WellSized := fun hF =>
    (h.facets _ _ hF).canonical.wellSized
  cases change with
  | upsert item =>
    rw [apply_upsert hr, apply_upsert hr']
    rfl
  | remove item =>
    rcases hi : r.indexes[item]? with _ | i
    · rw [apply_remove_of_absent hr hi, apply_remove_of_absent hr' hi]
    · rw [apply_remove_of_live hr hi, apply_remove_of_live hr' hi]
      exact congrArg (fun c : Catalog => (Outcome.removed true, c.withRegistry (r.vacate item i)))
        (h.forget_widen i)
  | newAspect name displayName => exact applyNewAspect_widen hr name displayName _
  | ensureAspect name => exact applyNewAspect_widen hr name name _
  | newFacet id name displayName => exact applyNewFacet_widen hr hwidth id name displayName _
  | ensureFacet id name => exact applyNewFacet_widen hr hwidth id name name _
  | setIndex F i =>
    exact applyWrite_widen fun f hF => Facet.setIndex?_widen (hsized hF) c.owner _ i
  | setItem F item =>
    exact applyWrite_widen fun f hF => Facet.setItem?_widen (hsized hF) c.owner _ item
  | unsetIndex F i =>
    exact applyWrite_widen fun f hF => Facet.unsetIndex?_widen (hsized hF) c.owner _ i
  | unsetItem F item =>
    exact applyWrite_widen fun f hF => Facet.unsetItem?_widen (hsized hF) c.owner _ item
  | drop =>
    rw [apply_drop hr, apply_drop hr']
    rfl

end Clean

end Changes

/-! ### Histories -/

/-- The catalog with all its facets as wide as the capacity. -/
def inStep (c : Catalog) : Catalog := c.widen fun _ => c.domain

/-- Makes the changes of a history happen, with all facets made as wide as the capacity
before each change and after the last one. -/
def runInStep (c : Catalog) : List Change → List Outcome × Catalog
  | [] => ([], c.inStep)
  | change :: rest =>
    let (outcome, c) := c.inStep.apply change
    let (outcomes, c) := c.runInStep rest
    (outcome :: outcomes, c)

theorem runInStep_cons (c : Catalog) (change : Change) (history : List Change) :
    c.runInStep (change :: history) =
      ((c.inStep.apply change).1 :: ((c.inStep.apply change).2.runInStep history).1,
        ((c.inStep.apply change).2.runInStep history).2) :=
  rfl

namespace Clean

variable {c : Catalog} {r : Registry} {width : FacetId → Nat} {history : List Change}

/-- After a change the catalog is clean again, and the facets may be as wide as before. -/
theorem step (h : c.Clean r) (hr : c.owner = some r) {change : Change} (hdrop : change ≠ .drop) :
    ∃ r', (c.apply change).2.owner = some r' ∧ (c.apply change).2.Clean r' ∧
      r.capacity ≤ r'.capacity := by
  obtain ⟨r', hr'⟩ := exists_owner_of_apply hr hdrop
  exact ⟨r', hr', h.apply hr hr', capacity_le_of_effect
    (effect_of_consistent hr h.consistent change) hr hr' h.consistent⟩

/-- A history without a drop ends with a clean catalog of at least the capacity. -/
theorem exists_owner_run (h : c.Clean r) (hr : c.owner = some r) (hdrop : .drop ∉ history) :
    ∃ r', (c.run history).2.owner = some r' ∧ (c.run history).2.Clean r' ∧
      r.capacity ≤ r'.capacity := by
  induction history generalizing c r with
  | nil => exact ⟨r, hr, h, Nat.le_refl _⟩
  | cons change history ih =>
    obtain ⟨hchange, hdrop⟩ := not_or.1 (mt List.mem_cons.2 hdrop)
    obtain ⟨r₁, hr₁, hclean, hcapacity⟩ := h.step hr (Ne.symm hchange)
    obtain ⟨r', hr', hclean', hcapacity'⟩ := ih hclean hr₁ hdrop
    exact ⟨r', hr', hclean', hcapacity.trans hcapacity'⟩

/-- **A history of the wider catalog** has the outcomes that it has for the catalog, and
ends with the same catalog but wider. -/
theorem run_widen (h : c.Clean r) (hr : c.owner = some r) (hwidth : ∀ F, width F ≤ r.capacity)
    (hdrop : .drop ∉ history) :
    (c.widen width).run history = ((c.run history).1, (c.run history).2.widen width) := by
  induction history generalizing c r with
  | nil => rfl
  | cons change history ih =>
    obtain ⟨hchange, hdrop⟩ := not_or.1 (mt List.mem_cons.2 hdrop)
    obtain ⟨r', hr', hclean, hcapacity⟩ := h.step hr (Ne.symm hchange)
    rw [run_cons, run_cons, h.apply_widen hr hwidth,
      ih hclean hr' (fun F => (hwidth F).trans hcapacity) hdrop]

/-- Whatever width the facets have, making them as wide as the capacity makes them equal. -/
theorem inStep_widen (h : c.Clean r) (hr : c.owner = some r) (hwidth : ∀ F, width F ≤ r.capacity) :
    (c.widen width).inStep = c.inStep := by
  have hmax : (fun F => max (width F) c.domain) = fun _ => c.domain :=
    funext fun F => Nat.max_eq_right (domain_eq hr ▸ hwidth F)
  exact (h.widen_widen _).trans (congrArg c.widen hmax)

/-- The first thing that happens to a catalog that grows in step undoes the difference. -/
theorem runInStep_widen (h : c.Clean r) (hr : c.owner = some r)
    (hwidth : ∀ F, width F ≤ r.capacity) (history : List Change) :
    (c.widen width).runInStep history = c.runInStep history := by
  have hinStep := h.inStep_widen hr hwidth
  cases history with
  | nil => exact congrArg (Prod.mk []) hinStep
  | cons change history => rw [runInStep_cons, runInStep_cons, hinStep]

/-- **Growing on demand is as good as growing in step.** -/
theorem runInStep_eq (h : c.Clean r) (hr : c.owner = some r) (hdrop : .drop ∉ history) :
    c.runInStep history = ((c.run history).1, (c.run history).2.inStep) := by
  induction history generalizing c r with
  | nil => rfl
  | cons change history ih =>
    obtain ⟨hchange, hdrop⟩ := not_or.1 (mt List.mem_cons.2 hdrop)
    obtain ⟨r', hr', hclean, hcapacity⟩ := h.step hr (Ne.symm hchange)
    -- the change leaves facets that are as wide as the capacity before it, no wider than now
    have happly := h.apply_widen hr (fun _ => (domain_eq hr).le) change
    rw [runInStep_cons, run_cons, inStep, happly,
      hclean.runInStep_widen hr' fun _ => domain_eq hr ▸ hcapacity, ih hclean hr' hdrop]

end Clean

/-! ### After every history -/

/-- The two catalogs are there with the same registry and cannot be told apart by what they
answer: under every identifier there is a facet in both of them or in neither, and the two
answer alike, by themselves and together with others. -/
structure SameFacets (c c' : Catalog) (r : Registry) : Prop where
  owner : c.owner = some r
  owner' : c'.owner = some r
  facets : ∀ F, (c.facetOf? F).isSome = (c'.facetOf? F).isSome
  answers : ∀ F f f', c.facetOf? F = some f → c'.facetOf? F = some f' → f.SameAnswers f' r
  together : ∀ F G f g f' g', c.facetOf? F = some f → c.facetOf? G = some g →
    c'.facetOf? F = some f' → c'.facetOf? G = some g' → f.SameTogether g f' g'

theorem Clean.sameFacets {c : Catalog} {r : Registry} (h : c.Clean r) (hr : c.owner = some r)
    {width : FacetId → Nat} (hwidth : ∀ F, width F ≤ r.capacity) :
    c.SameFacets (c.widen width) r := by
  have hwider := h.widen hwidth
  have hstored : ∀ F f f', c.facetOf? F = some f → (c.widen width).facetOf? F = some f' →
      ∀ i, f.bits.stored i = f'.bits.stored i := by
    intro F f f' hF hF' i
    rw [facetOf?_widen, hF, Option.map_some, Option.some.injEq] at hF'
    rw [← hF', Facet.widen, Bitmap.stored_growTo]
  refine ⟨hr, hr, fun F => ?_, fun F f f' hF hF' => ?_, fun F G f g f' g' hF hG hF' hG' => ?_⟩
  · rw [facetOf?_widen, Option.isSome_map]
  · exact (h.facets F f hF).sameAnswers (hwider.facets F f' hF') (hstored F f f' hF hF')
  · exact (h.facets F f hF).sameTogether (hwider.facets F f' hF') (hstored F f f' hF hF')
      (h.facets G g hG) (hwider.facets G g' hG') (hstored G g g' hG hG')

/-- **Lazy growth cannot be observed.** Whatever happened before, make some facets wider, up
to the capacity. Then whatever happens next has the same outcomes as without that, as long as
the catalog is not dropped; and at the end all facets answer alike, by themselves
and in pairs. The same is true of a catalog all of whose facets grow in step with it. -/
theorem widening_of_run (config : Config) (history : List Change) {c : Catalog} {r : Registry}
    (hc : ((create config).run history).2 = c) (hlive : c.owner = some r)
    {width : FacetId → Nat} (hwidth : ∀ F, width F ≤ r.capacity) {further : List Change}
    (hdrop : .drop ∉ further) :
    ∃ r', ((c.widen width).run further).1 = (c.run further).1 ∧
      (c.run further).2.SameFacets ((c.widen width).run further).2 r' ∧
      (c.runInStep further).1 = (c.run further).1 ∧
      (c.run further).2.SameFacets (c.runInStep further).2 r' := by
  obtain rfl := hc
  have h := clean_of_run config history hlive
  obtain ⟨r', hr', hclean, hcapacity⟩ := h.exists_owner_run hlive hdrop
  have hdomain := domain_eq hr'
  rw [h.run_widen hlive hwidth hdrop, h.runInStep_eq hlive hdrop]
  exact ⟨r', rfl, hclean.sameFacets hr' fun F => (hwidth F).trans hcapacity, rfl,
    hclean.sameFacets hr' fun _ => hdomain.le⟩

/-- A facet that lags behind the capacity of three is made to cover it. A write, a removal
and a new facet later it is still wider than the other, and answers alike. -/
theorem widening_of_run_lagging :
    ∃ c r further r', ((create {}).run [.newAspect "Kind" "Kind", .newFacet ⟨0⟩ "new" "New",
        .upsert "a", .upsert "b", .upsert "c", .setItem ⟨⟨0⟩, 0⟩ "a"]).2 = c ∧
      c.owner = some r ∧ r.capacity = 3 ∧
      further = [.unsetIndex ⟨⟨0⟩, 0⟩ 1, .remove "a", .ensureFacet ⟨0⟩ "old"] ∧
      (c.run further).1 = [.written, .removed true, .facet ⟨⟨0⟩, 1⟩] ∧
      ((c.run further).2.facetOf? ⟨⟨0⟩, 0⟩).any (·.bits.size = 2) = true ∧
      (((c.widen fun _ => 3).run further).2.facetOf? ⟨⟨0⟩, 0⟩).any (·.bits.size = 3) = true ∧
      ((c.widen fun _ => 3).run further).1 = (c.run further).1 ∧
      (c.run further).2.SameFacets ((c.widen fun _ => 3).run further).2 r' := by
  have hstate : ((create {}).run [.newAspect "Kind" "Kind", .newFacet ⟨0⟩ "new" "New",
      .upsert "a", .upsert "b", .upsert "c", .setItem ⟨⟨0⟩, 0⟩ "a"]).2.owner.any
        (fun r => r.capacity = 3) = true := by
    decide +kernel
  obtain ⟨r, hr, hfacts⟩ := (Option.any_eq_true _ _).1 hstate
  have hcapacity : r.capacity = 3 := of_decide_eq_true hfacts
  have hdrop : Change.drop ∉ [Change.unsetIndex ⟨⟨0⟩, 0⟩ 1, .remove "a", .ensureFacet ⟨0⟩ "old"] :=
    by decide
  obtain ⟨r', houtcomes, hsame, -, -⟩ :=
    widening_of_run {} _ rfl hr (fun _ => hcapacity.ge) hdrop
  exact ⟨_, r, _, r', rfl, hr, hcapacity, rfl, by decide +kernel, by decide +kernel,
    by decide +kernel, houtcomes, hsame⟩

end Catalog

end FacetIndex
