import FacetIndex.Catalog
import FacetIndex.Proofs.Facet.Access

/-!
# The facets of a changed catalog

A catalog is changed at one place at a time. What stands under an identifier afterwards
is said here for every way of changing it: only replacing a facet and taking an index
from all facets touch facets that were there, and only creating a facet makes one
appear. Creating one puts it under an identifier that stood for nothing before
(`FacetIndex.Catalog.facetOf?_addFacet`), so that no identifier ever comes to stand for
another facet.
-/

namespace FacetIndex.Catalog

variable {c : Catalog}

/-! ### The owner -/

theorem owner_inj {r r' : Registry} (h : c.owner = some r) (h' : c.owner = some r') : r = r' :=
  Option.some.inj (h.symm.trans h')

theorem domain_eq {r : Registry} (hr : c.owner = some r) : c.domain = r.capacity := by
  rw [domain, hr, domainOf, Option.elim_some]

/-- Without a registry no index was ever made. -/
theorem domain_of_dropped (hdropped : c.owner = none) : c.domain = 0 := by
  rw [domain, hdropped, domainOf, Option.elim_none]

@[simp] theorem owner_withRegistry (c : Catalog) (r : Registry) :
    (c.withRegistry r).owner = some r := rfl

@[simp] theorem owner_forget (c : Catalog) (i : Nat) : (c.forget i).owner = c.owner := rfl

@[simp] theorem owner_putAspect (c : Catalog) (id : AspectId) (a : Aspect) :
    (c.putAspect id a).owner = c.owner := rfl

@[simp] theorem owner_drop (c : Catalog) : c.drop.owner = none := rfl

@[simp] theorem owner_putFacet (c : Catalog) (F : FacetId) (f : Facet) :
    (c.putFacet F f).owner = c.owner := by
  rw [putFacet]
  split <;> rfl

/-! ### Aspects -/

theorem aspectOf?_putAspect (c : Catalog) (id other : AspectId) (a : Aspect) :
    (c.putAspect id a).aspectOf? other =
      if other = id then (c.aspectOf? id).map fun _ => a else c.aspectOf? other := by
  simp only [aspectOf?, putAspect, Array.getElem?_setIfInBounds]
  rcases eq_or_ne other id with rfl | hne
  · rw [if_pos rfl, if_pos rfl]
    split
    · next hlt => rw [Array.getElem?_eq_getElem hlt, Option.map_some]
    · next hge => rw [Array.getElem?_eq_none (Nat.le_of_not_lt hge), Option.map_none]
  · have hnumber : id.number ≠ other.number := fun he => hne (AspectId.mk.injEq .. ▸ he.symm)
    rw [if_neg hnumber, if_neg hne]

/-- A new aspect has an identifier of its own. -/
theorem aspectOf?_pushAspect (c : Catalog) (name displayName : String) (id : AspectId) :
    ({ c with aspects := c.aspects.push { name, displayName } } : Catalog).aspectOf? id =
      if id = ⟨c.aspects.size⟩ then some { name, displayName } else c.aspectOf? id := by
  simp only [aspectOf?, Array.getElem?_push]
  rcases eq_or_ne id ⟨c.aspects.size⟩ with rfl | hne
  · rw [if_pos rfl, if_pos rfl]
  · have hnumber : id.number ≠ c.aspects.size := fun he => hne (congrArg AspectId.mk he)
    rw [if_neg hnumber, if_neg hne]

/-- The identifier of the next aspect stands for nothing yet. -/
theorem aspectOf?_next (c : Catalog) : c.aspectOf? ⟨c.aspects.size⟩ = none :=
  Array.getElem?_eq_none (Nat.le_refl _)

/-! ### Facets that stay as they are -/

theorem facetOf?_create (config : Config) (F : FacetId) : (create config).facetOf? F = none := by
  simp [create, facetOf?, aspectOf?]

@[simp] theorem facetOf?_withRegistry (c : Catalog) (r : Registry) (F : FacetId) :
    (c.withRegistry r).facetOf? F = c.facetOf? F := rfl

@[simp] theorem facetOf?_drop (c : Catalog) (F : FacetId) : c.drop.facetOf? F = c.facetOf? F := rfl

/-- A new aspect comes without facets. -/
theorem facetOf?_pushAspect (c : Catalog) (name displayName : String) (F : FacetId) :
    ({ c with aspects := c.aspects.push { name, displayName } } : Catalog).facetOf? F =
      c.facetOf? F := by
  rw [facetOf?, aspectOf?_pushAspect, facetOf?]
  split
  · next heq =>
    rw [heq, aspectOf?_next]
    rfl
  · rfl

/-! ### Facets that change -/

theorem facetOf?_forget (c : Catalog) (i : Nat) (F : FacetId) :
    (c.forget i).facetOf? F = (c.facetOf? F).map (·.forget i) := by
  simp only [facetOf?, aspectOf?, forget, Array.getElem?_map]
  rcases c.aspects[F.aspect.number]? with _ | a
  · rfl
  · simp only [Option.map_some, Option.bind_some, Aspect.forget, Array.getElem?_map]

theorem facetOf?_putFacet {F : FacetId} {f : Facet} (hF : c.facetOf? F = some f) (f' : Facet)
    (G : FacetId) :
    (c.putFacet F f').facetOf? G = if G = F then some f' else c.facetOf? G := by
  obtain ⟨a, ha, hf⟩ := Option.bind_eq_some_iff.1 hF
  simp only [putFacet, ha, facetOf?, aspectOf?_putAspect, Option.map_some]
  rcases eq_or_ne G.aspect F.aspect with haspect | haspect
  · rw [if_pos haspect, Option.bind_some, Aspect.putFacet, Array.getElem?_setIfInBounds]
    rcases eq_or_ne F.number G.number with hnumber | hnumber
    · have heq : G = F := by
        rcases G with ⟨_, _⟩
        rcases F with ⟨_, _⟩
        exact congrArg₂ FacetId.mk haspect hnumber.symm
      have hlt : F.number < a.facets.size := (Array.getElem?_eq_some_iff.1 hf).1
      rw [if_pos hnumber, if_pos hlt, if_pos heq]
    · have hne : G ≠ F := fun he => hnumber (congrArg FacetId.number he).symm
      rw [if_neg hnumber, if_neg hne, haspect, ha, Option.bind_some]
  · have hne : G ≠ F := fun he => haspect (congrArg FacetId.aspect he)
    rw [if_neg haspect, if_neg hne]

/-! ### A facet that appears -/

/-- The identifier of the next facet of an aspect stands for nothing yet. -/
theorem facetOf?_next {id : AspectId} {a : Aspect} (ha : c.aspectOf? id = some a) :
    c.facetOf? ⟨id, a.facets.size⟩ = none := by
  rw [facetOf?, ha, Option.bind_some]
  exact Array.getElem?_eq_none (Nat.le_refl _)

/-- **A new facet covers the indexes made so far and has none of them**; all others
stay. -/
theorem facetOf?_addFacet {id : AspectId} {a : Aspect} (ha : c.aspectOf? id = some a)
    (name displayName : String) (capacity : Nat) (G : FacetId) :
    (c.putAspect id (a.addFacet name displayName capacity)).facetOf? G =
      if G = ⟨id, a.facets.size⟩ then some ⟨name, displayName, a.name, .zeros capacity⟩
      else c.facetOf? G := by
  simp only [facetOf?, aspectOf?_putAspect, ha, Option.map_some]
  rcases eq_or_ne G.aspect id with haspect | haspect
  · rw [if_pos haspect, Option.bind_some, Aspect.addFacet, Array.getElem?_push]
    rcases eq_or_ne G.number a.facets.size with hnumber | hnumber
    · have heq : G = ⟨id, a.facets.size⟩ := by
        rcases G with ⟨_, _⟩
        exact congrArg₂ FacetId.mk haspect hnumber
      rw [if_pos hnumber, if_pos heq]
    · have hne : G ≠ ⟨id, a.facets.size⟩ := fun he => hnumber (congrArg FacetId.number he)
      rw [if_neg hnumber, if_neg hne, haspect, ha, Option.bind_some]
  · have hne : G ≠ ⟨id, a.facets.size⟩ := fun he => haspect (congrArg FacetId.aspect he)
    rw [if_neg haspect, if_neg hne]

/-! ### Facets that are found by name -/

/-- What an aspect finds by name is there. -/
theorem facetOf?_isSome_of_find? {id : AspectId} {a : Aspect} {name : String} {k : Nat}
    (ha : c.aspectOf? id = some a) (hk : a.find? name = some k) :
    (c.facetOf? ⟨id, k⟩).isSome := by
  obtain ⟨hlt, -⟩ := Array.findIdx?_eq_some_iff_getElem.1 hk
  rw [facetOf?, ha, Option.bind_some, Array.getElem?_eq_getElem hlt]
  rfl

end FacetIndex.Catalog
