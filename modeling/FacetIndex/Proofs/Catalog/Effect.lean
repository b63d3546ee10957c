import FacetIndex.Change
import FacetIndex.Proofs.Catalog.Facets

/-!
# What a change can do

A change either leaves the catalog as it was or does one of seven things, listed in
`FacetIndex.Catalog.Effect` together with what is known when it happens
(`FacetIndex.Catalog.effect_apply`). Whatever is to hold after every history is checked
against this list, never against the requests.

First comes what becomes of each request: the outcome, and the catalog after it. A
request that is refused, and one that names nothing, leaves the catalog alone.

A history ends with a live catalog only if every state on the way was live, so a
property of live catalogs that one change keeps is kept by such a history
(`FacetIndex.Catalog.run_induction`).
-/

namespace FacetIndex.Catalog

variable {c : Catalog} {r : Registry}

/-! ### Items, and the catalog itself -/

theorem apply_upsert (hr : c.owner = some r) (item : String) :
    c.apply (.upsert item) = (.index (r.upsert item).1, c.withRegistry (r.upsert item).2) := by
  simp only [apply, upsert, registry, requireOwner, hr, bind, Except.bind]
  rfl

theorem apply_upsert_of_live (hr : c.owner = some r) {item : String} {i : Nat}
    (hi : r.indexes[item]? = some i) : c.apply (.upsert item) = (.index i, c) := by
  rw [apply_upsert hr, Registry.upsert_of_live hi, withRegistry, ← hr]

theorem apply_remove_of_live (hr : c.owner = some r) {item : String} {i : Nat}
    (hi : r.indexes[item]? = some i) :
    c.apply (.remove item) = (.removed true, (c.withRegistry (r.vacate item i)).forget i) := by
  simp only [apply, remove, registry, requireOwner, hr, bind, Except.bind, Registry.remove?, hi,
    Option.map_some]
  rfl

theorem apply_remove_of_absent (hr : c.owner = some r) {item : String}
    (habsent : r.indexes[item]? = none) : c.apply (.remove item) = (.removed false, c) := by
  simp only [apply, remove, registry, requireOwner, hr, bind, Except.bind, Registry.remove?,
    habsent, Option.map_none]
  rfl

/-- A catalog that was dropped refuses whatever asks for its items. -/
theorem apply_upsert_of_dropped (hr : c.owner = none) (item : String) :
    c.apply (.upsert item) = (.refused .catalogDropped, c) := by
  simp only [apply, upsert, registry, requireOwner, hr]
  rfl

theorem apply_remove_of_dropped (hr : c.owner = none) (item : String) :
    c.apply (.remove item) = (.refused .catalogDropped, c) := by
  simp only [apply, remove, registry, requireOwner, hr]
  rfl

theorem apply_drop_of_dropped (hr : c.owner = none) :
    c.apply .drop = (.refused .catalogDropped, c) := by
  simp only [apply, registry, requireOwner, hr]
  rfl

theorem apply_drop (hr : c.owner = some r) : c.apply .drop = (.dropped, c.drop) := by
  simp only [apply, registry, requireOwner, hr, bind, Except.bind]
  rfl

/-! ### Aspects and facets -/

theorem applyNewAspect_eq (hr : c.owner = some r) (name displayName : String)
    (outcome : Except (AlreadyExists AspectId) AspectId → Outcome) :
    c.applyNewAspect name displayName outcome =
      (outcome (c.newAspect name displayName).1, (c.newAspect name displayName).2) := by
  simp only [applyNewAspect, registry, requireOwner, hr, bind, Except.bind]
  rfl

theorem newAspect_of_taken {name : String} {id : AspectId} (h : c.findAspect? name = some id)
    (displayName : String) : c.newAspect name displayName = (.error ⟨name, id⟩, c) := by
  rw [newAspect, h]

theorem newAspect_of_new {name : String} (hnew : c.findAspect? name = none)
    (displayName : String) :
    c.newAspect name displayName =
      (.ok ⟨c.aspects.size⟩, { c with aspects := c.aspects.push { name, displayName } }) := by
  rw [newAspect, hnew]

theorem applyNewAspect_of_dropped (hr : c.owner = none) (name displayName : String)
    (outcome : Except (AlreadyExists AspectId) AspectId → Outcome) :
    c.applyNewAspect name displayName outcome = (.refused .catalogDropped, c) := by
  simp only [applyNewAspect, registry, requireOwner, hr]
  rfl

theorem applyNewFacet_of_unknown {id : AspectId} (ha : c.aspectOf? id = none)
    (name displayName : String) (outcome : Except (AlreadyExists FacetId) FacetId → Outcome) :
    c.applyNewFacet id name displayName outcome = (.unknown, c) := by
  simp only [applyNewFacet, newFacet, ha, Option.map_none]

theorem newFacet_of_taken {id : AspectId} {a : Aspect} (ha : c.aspectOf? id = some a)
    {name : String} {k : Nat} (hk : a.find? name = some k) (displayName : String) :
    c.newFacet id name displayName = some (.error ⟨name, ⟨id, k⟩⟩, c) := by
  simp only [newFacet, ha, Option.map_some, hk]

theorem newFacet_of_new {id : AspectId} {a : Aspect} (ha : c.aspectOf? id = some a)
    {name : String} (hnew : a.find? name = none) (displayName : String) :
    c.newFacet id name displayName =
      some (.ok ⟨id, a.facets.size⟩, c.putAspect id (a.addFacet name displayName c.domain)) := by
  simp only [newFacet, ha, Option.map_some, hnew]

theorem applyNewFacet_of_some {id : AspectId} {name displayName : String}
    {created : Except (AlreadyExists FacetId) FacetId} {c' : Catalog}
    (h : c.newFacet id name displayName = some (created, c'))
    (outcome : Except (AlreadyExists FacetId) FacetId → Outcome) :
    c.applyNewFacet id name displayName outcome = (outcome created, c') := by
  simp only [applyNewFacet, h]

/-- Creating an aspect leaves the registry alone. -/
theorem owner_applyNewAspect (hr : c.owner = some r) (name displayName : String)
    (outcome : Except (AlreadyExists AspectId) AspectId → Outcome) :
    (c.applyNewAspect name displayName outcome).2.owner = c.owner := by
  rw [applyNewAspect_eq hr]
  rw [newAspect]
  split <;> rfl

/-- Creating a facet leaves the registry alone. -/
theorem owner_applyNewFacet (c : Catalog) (id : AspectId) (name displayName : String)
    (outcome : Except (AlreadyExists FacetId) FacetId → Outcome) :
    (c.applyNewFacet id name displayName outcome).2.owner = c.owner := by
  rcases ha : c.aspectOf? id with _ | a
  · rw [applyNewFacet_of_unknown ha]
  · rcases hname : a.find? name with _ | k
    · rw [applyNewFacet_of_some (newFacet_of_new ha hname displayName), owner_putAspect]
    · rw [applyNewFacet_of_some (newFacet_of_taken ha hname displayName)]

/-! ### Writing -/

section Write

variable {F : FacetId} {f f' : Facet} {change : Facet → Option Registry → Except Error Facet}

theorem applyWrite_of_unknown (hF : c.facetOf? F = none)
    (change : Facet → Option Registry → Except Error Facet) :
    c.applyWrite F change = (.unknown, c) := by
  simp only [applyWrite, changeFacet, hF, Option.map_none]

theorem applyWrite_of_ok (hF : c.facetOf? F = some f) (h : change f c.owner = .ok f') :
    c.applyWrite F change = (.written, c.putFacet F f') := by
  simp only [applyWrite, changeFacet, hF, Option.map_some, h, bind, Except.bind]
  rfl

theorem applyWrite_of_error (hF : c.facetOf? F = some f) {cause : Error}
    (h : change f c.owner = .error cause) : c.applyWrite F change = (.refused cause, c) := by
  simp only [applyWrite, changeFacet, hF, Option.map_some, h, bind, Except.bind]
  rfl

/-- A request to write a facet comes to nothing, or replaces the facet by what it makes of
it. -/
theorem applyWrite_cases (c : Catalog) (F : FacetId)
    (change : Facet → Option Registry → Except Error Facet) :
    (c.applyWrite F change).2 = c ∨
      ∃ f f', c.facetOf? F = some f ∧ change f c.owner = .ok f' ∧
        (c.applyWrite F change).2 = c.putFacet F f' := by
  rcases hF : c.facetOf? F with _ | f
  · exact Or.inl (by rw [applyWrite_of_unknown hF])
  · rcases h : change f c.owner with cause | f'
    · exact Or.inl (by rw [applyWrite_of_error hF h])
    · exact Or.inr ⟨f, f', rfl, h, by rw [applyWrite_of_ok hF h]⟩

/-- A request that is granted replaces the facet by what it makes of it. -/
theorem applyWrite_eq_written {c' : Catalog} (h : c.applyWrite F change = (.written, c')) :
    ∃ f f', c.facetOf? F = some f ∧ change f c.owner = .ok f' ∧ c' = c.putFacet F f' := by
  rcases hF : c.facetOf? F with _ | f
  · rw [applyWrite_of_unknown hF] at h
    cases h
  · rcases hf' : change f c.owner with cause | f'
    · rw [applyWrite_of_error hF hf'] at h
      cases h
    · rw [applyWrite_of_ok hF hf'] at h
      exact ⟨f, f', rfl, hf', (congrArg Prod.snd h).symm⟩

/-- Writing a facet leaves the registry alone. -/
theorem owner_applyWrite (c : Catalog) (F : FacetId)
    (change : Facet → Option Registry → Except Error Facet) :
    (c.applyWrite F change).2.owner = c.owner := by
  rcases c.applyWrite_cases F change with hsame | ⟨f, f', -, -, heq⟩
  · rw [hsame]
  · rw [heq, owner_putFacet]

end Write

/-! ### Writing through the registry -/

section Through

variable {F : FacetId} {f : Facet} {item : String} {i : Nat}

theorem apply_setIndex_of_item (hr : c.owner = some r) (hF : c.facetOf? F = some f)
    (hi : r.slots[i]? = some (some item)) (hroom : i < maxIndex) :
    c.apply (.setIndex F i) = (.written, c.putFacet F (f.mark i)) := by
  refine applyWrite_of_ok hF ?_
  rw [hr, Facet.setIndex?_of_item f hi, Facet.write?_eq, if_pos hroom]

theorem apply_setIndex_of_vacant (hr : c.owner = some r) (hF : c.facetOf? F = some f)
    (hi : r.slots[i]? = some none) :
    c.apply (.setIndex F i) = (.refused (.indexNotFound i), c) := by
  refine applyWrite_of_error hF ?_
  rw [hr, Facet.setIndex?_of_vacant f hi]

theorem apply_setIndex_of_le (hr : c.owner = some r) (hF : c.facetOf? F = some f)
    (hi : r.capacity ≤ i) :
    c.apply (.setIndex F i) = (.refused (.indexOutOfRange i r.capacity), c) := by
  refine applyWrite_of_error hF ?_
  rw [hr, Facet.setIndex?_of_le f hi]

theorem apply_setItem_of_live (hr : c.owner = some r) (hF : c.facetOf? F = some f)
    (hi : r.indexes[item]? = some i) (hroom : i < maxIndex) :
    c.apply (.setItem F item) = (.written, c.putFacet F (f.mark i)) := by
  refine applyWrite_of_ok hF ?_
  rw [hr, Facet.setItem?_of_live f hi, Facet.write?_eq, if_pos hroom]

theorem apply_setItem_of_absent (hr : c.owner = some r) (hF : c.facetOf? F = some f)
    (hi : r.indexes[item]? = none) :
    c.apply (.setItem F item) = (.refused (.itemNotFound item), c) := by
  refine applyWrite_of_error hF ?_
  rw [hr, Facet.setItem?_of_absent f hi]

theorem apply_unsetIndex_of_lt (hr : c.owner = some r) (hF : c.facetOf? F = some f)
    (hi : i < r.capacity) (hroom : i < maxIndex) :
    c.apply (.unsetIndex F i) = (.written, c.putFacet F (f.unmark i)) := by
  refine applyWrite_of_ok hF ?_
  rw [hr, Facet.unsetIndex?_of_lt f hi, Facet.wipe?_eq, if_pos hroom]

theorem apply_unsetIndex_of_le (hr : c.owner = some r) (hF : c.facetOf? F = some f)
    (hi : r.capacity ≤ i) :
    c.apply (.unsetIndex F i) = (.refused (.indexOutOfRange i r.capacity), c) := by
  refine applyWrite_of_error hF ?_
  rw [hr, Facet.unsetIndex?_of_le f hi]

theorem apply_unsetItem_of_live (hr : c.owner = some r) (hF : c.facetOf? F = some f)
    (hi : r.indexes[item]? = some i) (hroom : i < maxIndex) :
    c.apply (.unsetItem F item) = (.written, c.putFacet F (f.unmark i)) := by
  refine applyWrite_of_ok hF ?_
  rw [hr, Facet.unsetItem?_of_live f hi, Facet.wipe?_eq, if_pos hroom]

theorem apply_unsetItem_of_absent (hr : c.owner = some r) (hF : c.facetOf? F = some f)
    (hi : r.indexes[item]? = none) :
    c.apply (.unsetItem F item) = (.refused (.itemNotFound item), c) := by
  refine applyWrite_of_error hF ?_
  rw [hr, Facet.unsetItem?_of_absent f hi]

end Through

/-! ### Refusals -/

theorem eq_of_settle_refused {α : Type} {outcome : α → Outcome} {cause : Error}
    (houtcome : ∀ a, outcome a ≠ .refused cause) {result : Except Error (α × Catalog)}
    (h : (settle c outcome result).1 = .refused cause) : (settle c outcome result).2 = c := by
  rcases result with _ | ⟨a, c'⟩
  · rfl
  · exact absurd h (houtcome a)

theorem eq_of_applyNewFacet_refused {id : AspectId} {name displayName : String}
    {outcome : Except (AlreadyExists FacetId) FacetId → Outcome} {cause : Error}
    (houtcome : ∀ created, outcome created ≠ .refused cause)
    (h : (c.applyNewFacet id name displayName outcome).1 = .refused cause) :
    (c.applyNewFacet id name displayName outcome).2 = c := by
  unfold applyNewFacet at h ⊢
  split at h
  · exact absurd h (houtcome _)
  · cases h

theorem eq_of_applyWrite_refused {F : FacetId}
    {change : Facet → Option Registry → Except Error Facet} {cause : Error}
    (h : (c.applyWrite F change).1 = .refused cause) : (c.applyWrite F change).2 = c := by
  unfold applyWrite at h ⊢
  split at h
  · exact eq_of_settle_refused (fun _ => Outcome.noConfusion) h
  · cases h

/-- **A change that is refused leaves the catalog as it was.** -/
theorem eq_of_apply_refused {change : Change} {cause : Error}
    (h : (c.apply change).1 = .refused cause) : (c.apply change).2 = c := by
  cases change with
  | upsert | remove | drop => exact eq_of_settle_refused (fun _ => Outcome.noConfusion) h
  | newAspect =>
    exact eq_of_settle_refused (fun created => by cases created <;> exact Outcome.noConfusion) h
  | ensureAspect => exact eq_of_settle_refused (fun _ => Outcome.noConfusion) h
  | newFacet =>
    exact eq_of_applyNewFacet_refused
      (fun created => by cases created <;> exact Outcome.noConfusion) h
  | ensureFacet => exact eq_of_applyNewFacet_refused (fun _ => Outcome.noConfusion) h
  | setIndex | setItem | unsetIndex | unsetItem => exact eq_of_applyWrite_refused h

/-! ### The list of effects -/

/-- **What a change can do to a catalog.** -/
inductive Effect (c : Catalog) : Catalog → Prop
  /-- Nothing. -/
  | same : Effect c c
  /-- Makes a new item live. -/
  | occupy {r : Registry} {item : String} (hr : c.owner = some r)
      (hnew : r.indexes[item]? = none) : Effect c (c.withRegistry (r.upsert item).2)
  /-- Takes an item from its index, and the index from every facet. -/
  | vacate {r : Registry} {item : String} {i : Nat} (hr : c.owner = some r)
      (hi : r.indexes[item]? = some i) :
      Effect c ((c.withRegistry (r.vacate item i)).forget i)
  /-- Adds an aspect without facets. -/
  | addAspect (name displayName : String) (hnew : c.findAspect? name = none) :
      Effect c { c with aspects := c.aspects.push { name, displayName } }
  /-- Adds a facet without items. -/
  | addFacet {id : AspectId} {a : Aspect} (ha : c.aspectOf? id = some a) {name : String}
      (displayName : String) (hnew : a.find? name = none) :
      Effect c (c.putAspect id (a.addFacet name displayName c.domain))
  /-- Puts a one at the index of a live item. -/
  | mark {r : Registry} {F : FacetId} {f : Facet} {i : Nat} {item : String}
      (hr : c.owner = some r) (hF : c.facetOf? F = some f)
      (hi : r.slots[i]? = some (some item)) : Effect c (c.putFacet F (f.mark i))
  /-- Puts a zero at an index. -/
  | unmark {r : Registry} {F : FacetId} {f : Facet} {i : Nat}
      (hr : c.owner = some r) (hF : c.facetOf? F = some f)
      (hi : i < r.capacity) : Effect c (c.putFacet F (f.unmark i))
  /-- Drops the catalog. -/
  | drop : Effect c c.drop

theorem effect_newAspect (c : Catalog) (name displayName : String) :
    Effect c (c.newAspect name displayName).2 := by
  rw [newAspect]
  split
  · exact .same
  · next hnew => exact .addAspect name displayName hnew

theorem effect_applyNewAspect (c : Catalog) (name displayName : String)
    (outcome : Except (AlreadyExists AspectId) AspectId → Outcome) :
    Effect c (c.applyNewAspect name displayName outcome).2 := by
  rcases hr : c.owner with _ | r
  · rw [applyNewAspect_of_dropped hr]
    exact .same
  · rw [applyNewAspect_eq hr]
    exact effect_newAspect c name displayName

theorem effect_applyNewFacet (c : Catalog) (id : AspectId) (name displayName : String)
    (outcome : Except (AlreadyExists FacetId) FacetId → Outcome) :
    Effect c (c.applyNewFacet id name displayName outcome).2 := by
  rcases ha : c.aspectOf? id with _ | a
  · rw [applyNewFacet_of_unknown ha]
    exact .same
  · rcases hname : a.find? name with _ | k
    · rw [applyNewFacet_of_some (newFacet_of_new ha hname displayName)]
      exact .addFacet ha displayName hname
    · rw [applyNewFacet_of_some (newFacet_of_taken ha hname displayName)]
      exact .same

theorem effect_applyWrite (c : Catalog) (F : FacetId)
    {change : Facet → Option Registry → Except Error Facet}
    (h : ∀ f f', c.facetOf? F = some f → change f c.owner = .ok f' →
      Effect c (c.putFacet F f')) :
    Effect c (c.applyWrite F change).2 := by
  rcases c.applyWrite_cases F change with hsame | ⟨f, f', hF, hf', heq⟩
  · rw [hsame]
    exact .same
  · rw [heq]
    exact h f f' hF hf'

/-- **Every change has one of the listed effects**, as long as the registry keeps its
records straight: an item is written where the index says it is. -/
theorem effect_apply (hconsistent : ∀ r, c.owner = some r → r.Consistent) (change : Change) :
    Effect c (c.apply change).2 := by
  cases change with
  | upsert item =>
    rcases hr : c.owner with _ | r
    · rw [apply_upsert_of_dropped hr]
      exact .same
    · rcases hi : r.indexes[item]? with _ | i
      · rw [apply_upsert hr]
        exact .occupy hr hi
      · rw [apply_upsert_of_live hr hi]
        exact .same
  | remove item =>
    rcases hr : c.owner with _ | r
    · rw [apply_remove_of_dropped hr]
      exact .same
    · rcases hi : r.indexes[item]? with _ | i
      · rw [apply_remove_of_absent hr hi]
        exact .same
      · rw [apply_remove_of_live hr hi]
        exact .vacate hr hi
  | newAspect name displayName => exact effect_applyNewAspect c name displayName _
  | ensureAspect name => exact effect_applyNewAspect c name name _
  | newFacet id name displayName => exact effect_applyNewFacet c id name displayName _
  | ensureFacet id name => exact effect_applyNewFacet c id name name _
  | setIndex F i =>
    refine effect_applyWrite c F fun f f' hF h => ?_
    obtain ⟨r, item, hr, hi, rfl⟩ := Facet.setIndex?_eq_ok h
    exact .mark hr hF hi
  | setItem F item =>
    refine effect_applyWrite c F fun f f' hF h => ?_
    obtain ⟨r, i, hr, hi, rfl⟩ := Facet.setItem?_eq_ok h
    exact .mark hr hF ((hconsistent r hr).slot_of_indexes hi)
  | unsetIndex F i =>
    refine effect_applyWrite c F fun f f' hF h => ?_
    obtain ⟨r, hr, hi, rfl⟩ := Facet.unsetIndex?_eq_ok h
    exact .unmark hr hF hi
  | unsetItem F item =>
    refine effect_applyWrite c F fun f f' hF h => ?_
    obtain ⟨r, i, hr, hi, rfl⟩ := Facet.unsetItem?_eq_ok h
    exact .unmark hr hF (Registry.lt_capacity ((hconsistent r hr).slot_of_indexes hi))
  | drop =>
    rcases hr : c.owner with _ | r
    · rw [apply_drop_of_dropped hr]
      exact .same
    · rw [apply_drop hr]
      exact .drop

/-- A catalog that was dropped has no registry to keep straight. -/
theorem effect_of_dropped (hdropped : c.owner = none) (change : Change) :
    Effect c (c.apply change).2 := by
  refine effect_apply (fun r hr => ?_) change
  rw [hdropped] at hr
  cases hr

/-! ### Histories -/

theorem run_cons (c : Catalog) (change : Change) (history : List Change) :
    c.run (change :: history) =
      ((c.apply change).1 :: ((c.apply change).2.run history).1,
        ((c.apply change).2.run history).2) :=
  rfl

/-- A history can be stopped anywhere and gone on with. -/
theorem run_append (c : Catalog) (past history : List Change) :
    c.run (past ++ history) =
      ((c.run past).1 ++ ((c.run past).2.run history).1, ((c.run past).2.run history).2) := by
  induction past generalizing c with
  | nil => rfl
  | cons change past ih => rw [List.cons_append, run_cons, run_cons, ih, List.cons_append]

/-- What every change keeps, whether the catalog is there or not, every history keeps. -/
theorem run_invariant {P : Catalog → Prop} (hstep : ∀ c change, P c → P (c.apply change).2)
    (history : List Change) {c : Catalog} (h : P c) : P (c.run history).2 := by
  induction history generalizing c with
  | nil => exact h
  | cons change history ih => exact ih (hstep c change h)

/-- A catalog that was dropped does not come back. -/
theorem owner_of_effect {c' : Catalog} (h : Effect c c') (hdropped : c.owner = none) :
    c'.owner = none := by
  cases h with
  | same => exact hdropped
  | occupy hr | vacate hr | mark hr | unmark hr => rw [hdropped] at hr; cases hr
  | addAspect => exact hdropped
  | addFacet => exact hdropped
  | drop => rfl

theorem owner_run_of_dropped (history : List Change) (hdropped : c.owner = none) :
    (c.run history).2.owner = none := by
  refine run_invariant (P := fun c => c.owner = none) (fun c change hdropped => ?_) history hdropped
  exact owner_of_effect (effect_of_dropped hdropped change) hdropped

/-- A catalog that is there at the end was there all the way. -/
theorem exists_owner_of_run (history : List Change) {r' : Registry}
    (hr' : (c.run history).2.owner = some r') : ∃ r, c.owner = some r := by
  rcases howner : c.owner with _ | r
  · rw [owner_run_of_dropped history howner] at hr'
    cases hr'
  · exact ⟨r, rfl⟩

/-- Only dropping a catalog makes it go. -/
theorem exists_owner_of_apply (hr : c.owner = some r) {change : Change} (hdrop : change ≠ .drop) :
    ∃ r', (c.apply change).2.owner = some r' := by
  cases change with
  | upsert item => exact ⟨_, congrArg (·.2.owner) (apply_upsert hr item)⟩
  | remove item =>
    rcases hi : r.indexes[item]? with _ | i
    · exact ⟨r, (congrArg (·.2.owner) (apply_remove_of_absent hr hi)).trans hr⟩
    · exact ⟨_, congrArg (·.2.owner) (apply_remove_of_live hr hi)⟩
  | newAspect | ensureAspect => exact ⟨r, (owner_applyNewAspect hr ..).trans hr⟩
  | newFacet | ensureFacet => exact ⟨r, (c.owner_applyNewFacet ..).trans hr⟩
  | setIndex | setItem | unsetIndex | unsetItem => exact ⟨r, (c.owner_applyWrite ..).trans hr⟩
  | drop => exact absurd rfl hdrop

/-- **A property that every change keeps as long as the catalog is there** holds after
every history at whose end it is. -/
theorem run_induction {P : Catalog → Registry → Prop}
    (hstep : ∀ c r change r', c.owner = some r → P c r → (c.apply change).2.owner = some r' →
      P (c.apply change).2 r')
    (history : List Change) {c : Catalog} {r r' : Registry} (hr : c.owner = some r) (h : P c r)
    (hr' : (c.run history).2.owner = some r') : P (c.run history).2 r' := by
  induction history generalizing c r with
  | nil =>
    obtain rfl := owner_inj hr hr'
    exact h
  | cons change history ih =>
    rw [run_cons] at hr' ⊢
    obtain ⟨r₁, hr₁⟩ := exists_owner_of_run history hr'
    exact ih hr₁ (hstep c r change r₁ hr h hr₁) hr'

end FacetIndex.Catalog
