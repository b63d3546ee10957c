import FacetIndex.Request
import FacetIndex.Proofs.Catalog.Facets

/-!
# Reading a catalog out of a workspace

A catalog is spread over the memory of its workspace. What
`FacetIndex.Workspace.catalogOf?` reads is told by three things
(`FacetIndex.Workspace.catalogOf?_eq_some_iff`): the registry, the names of the aspects,
and the facets under the names that clients have for them. This is how a catalog is
compared with one that is by itself, since each of the three is said of a changed catalog
in a lemma of its own.

The other way to compare is to follow the references
(`FacetIndex.Workspace.catalogOf?_frame`): a catalog is as it was if the catalog, its
aspects and the facets of these were left alone. Nothing is asked of the rest of the
memory.
-/

namespace FacetIndex

/-! ### Telling catalogs apart -/

/-- The name of an aspect, and the name to be shown. -/
def Aspect.title (a : Aspect) : String × String := (a.name, a.displayName)

/-- Two catalogs with the same items, aspects of the same names and the same facets are the
same. -/
theorem Catalog.ext_facetOf? {c d : Catalog} (howner : c.owner = d.owner)
    (htitles : c.aspects.map Aspect.title = d.aspects.map Aspect.title)
    (hfacets : ∀ F, c.facetOf? F = d.facetOf? F) : c = d := by
  have haspects : c.aspects = d.aspects := by
    refine Array.ext_getElem? fun k => ?_
    have htitle := congrArg (·[k]?) htitles
    have hfacet := fun n => hfacets ⟨⟨k⟩, n⟩
    simp only [Array.getElem?_map] at htitle
    simp only [Catalog.facetOf?, Catalog.aspectOf?] at hfacet
    rcases ha : c.aspects[k]? with _ | a <;> rcases hb : d.aspects[k]? with _ | b
    · rfl
    · simp [ha, hb] at htitle
    · simp [ha, hb] at htitle
    · simp only [ha, hb, Option.map_some, Option.some.injEq, Aspect.title, Prod.mk.injEq] at htitle
      simp only [ha, hb, Option.bind_some] at hfacet
      cases a
      cases b
      rw [Option.some.injEq, Aspect.mk.injEq]
      exact ⟨htitle.1, htitle.2, Array.ext_getElem? hfacet⟩
  cases c
  cases d
  exact congrArg₂ Catalog.mk howner haspects

theorem Catalog.titles_putAspect {c : Catalog} {A : AspectId} {a : Aspect}
    (ha : c.aspectOf? A = some a) (a' : Aspect) (htitle : a'.title = a.title) :
    (c.putAspect A a').aspects.map Aspect.title = c.aspects.map Aspect.title := by
  refine Array.ext_getElem? fun k => ?_
  have hk := c.aspectOf?_putAspect A ⟨k⟩ a'
  rw [Array.getElem?_map, Array.getElem?_map]
  refine (congrArg (Option.map Aspect.title) hk).trans ?_
  split
  · next heq =>
    rw [← heq] at ha
    rw [← heq, ha, show c.aspects[k]? = some a from ha]
    exact congrArg some htitle
  · rfl

theorem Catalog.titles_putFacet (c : Catalog) (F : FacetId) (f : Facet) :
    (c.putFacet F f).aspects.map Aspect.title = c.aspects.map Aspect.title := by
  rw [putFacet]
  split
  · next ha => exact titles_putAspect ha _ rfl
  · rfl

theorem Catalog.titles_forget (c : Catalog) (i : Nat) :
    (c.forget i).aspects.map Aspect.title = c.aspects.map Aspect.title :=
  Array.map_map ..

/-! ### Cells -/

section Cells

variable {α β : Type} {cells : Array α} {i j : Nat} {d : α}

theorem getD_modify_self (h : i < cells.size) (g : α → α) :
    (cells.modify i g)[i]?.getD d = g (cells[i]?.getD d) := by
  rw [Array.getElem?_modify, if_pos rfl, Array.getElem?_eq_getElem h, Option.map_some,
    Option.getD_some, Option.getD_some]

theorem getD_modify_of_ne (h : i ≠ j) (g : α → α) :
    (cells.modify i g)[j]?.getD d = cells[j]?.getD d := by
  rw [Array.getElem?_modify, if_neg h]

/-- A new cell that is like a missing one in some part. -/
theorem apply_getD_push (part : α → β) {cell : α} (h : part cell = part d) :
    part ((cells.push cell)[j]?.getD d) = part (cells[j]?.getD d) := by
  rw [Array.getElem?_push]
  split
  · next heq =>
    rw [heq, Array.getElem?_eq_none (Nat.le_refl _)]
    exact h
  · rfl

/-- What a change of a cell leaves alone is the same in every cell. -/
theorem apply_getD_modify (part : α → β) {g : α → α} (h : ∀ cell, part (g cell) = part cell) :
    part ((cells.modify i g)[j]?.getD d) = part (cells[j]?.getD d) := by
  rw [Array.getElem?_modify]
  split
  · rcases cells[j]? with _ | cell
    · rfl
    · exact h cell
  · rfl

theorem getD_push_of_lt (h : j < cells.size) (cell : α) :
    (cells.push cell)[j]?.getD d = cells[j]?.getD d := by
  rw [Array.getElem?_push, if_neg (Nat.ne_of_lt h)]

theorem lt_size_push (h : i ≤ cells.size) (cell : α) : i < (cells.push cell).size := by
  rw [Array.size_push]
  exact Nat.lt_succ_of_le h

theorem getD_push_size (cell : α) : (cells.push cell)[cells.size]?.getD d = cell := by
  rw [Array.getElem?_push_size, Option.getD_some]

end Cells

namespace Workspace

variable {w w' : Workspace} {id other : CatalogId} {c : Catalog}

/-! ### Reading a catalog -/

/-- The name of an aspect, and the name to be shown. -/
def titleAt (w : Workspace) (a : AspectRef) : String × String :=
  ((w.aspectAt a).name, (w.aspectAt a).displayName)

theorem getElem?_catalogs (hlt : id.number < w.catalogs.size) :
    w.catalogs[id.number]? = some (w.catalogAt id) := by
  rw [catalogAt, Array.getElem?_eq_getElem hlt, Option.getD_some]

theorem catalogOf?_of_lt (hlt : id.number < w.catalogs.size) :
    w.catalogOf? id =
      some ⟨w.registryOf id, (w.catalogAt id).aspects.map w.readAspect⟩ := by
  rw [catalogOf?, getElem?_catalogs hlt]
  rfl

/-- A catalog that was never opened refers to nothing. -/
theorem aspectRef?_of_le (hle : w.catalogs.size ≤ id.number) (A : AspectId) :
    w.aspectRef? id A = none := by
  rw [aspectRef?, catalogAt, Array.getElem?_eq_none hle]
  exact Array.getElem?_empty

/-- What is read of a catalog that was opened: its registry, the names of its aspects, and
its facets. -/
theorem catalogOf?_eq_some_iff :
    w.catalogOf? id = some c ↔
      id.number < w.catalogs.size ∧ c.owner = w.registryOf id ∧
        c.aspects.map Aspect.title = (w.catalogAt id).aspects.map w.titleAt ∧
        ∀ F, c.facetOf? F = w.facetOf? (id, F) := by
  -- the catalog that is read has these parts, and they make up a catalog
  have htitles (aspects : Array AspectRef) :
      (aspects.map w.readAspect).map Aspect.title = aspects.map w.titleAt := Array.map_map ..
  have hfacets (F : FacetId) :
      (Catalog.mk (w.registryOf id) ((w.catalogAt id).aspects.map w.readAspect)).facetOf? F =
        w.facetOf? (id, F) := by
    rw [Catalog.facetOf?, Catalog.aspectOf?, Array.getElem?_map, facetOf?, facetRef?, aspectRef?]
    rcases (w.catalogAt id).aspects[F.aspect.number]? with _ | a
    · rfl
    · exact Array.getElem?_map
  constructor
  · intro h
    obtain ⟨cell, hcell, -⟩ := Option.map_eq_some_iff.1 h
    have hlt : id.number < w.catalogs.size := (Array.getElem?_eq_some_iff.1 hcell).1
    rw [catalogOf?_of_lt hlt] at h
    obtain rfl := Option.some.inj h
    exact ⟨hlt, rfl, htitles _, hfacets⟩
  · rintro ⟨hlt, howner, hc, hF⟩
    rw [catalogOf?_of_lt hlt]
    exact congrArg some (Catalog.ext_facetOf? howner.symm ((htitles _).trans hc.symm)
      fun F => (hfacets F).trans (hF F).symm)

section Reading

variable (hc : w.catalogOf? id = some c)
include hc

theorem lt_of_catalogOf? : id.number < w.catalogs.size := (catalogOf?_eq_some_iff.1 hc).1

theorem owner_of_catalogOf? : c.owner = w.registryOf id := (catalogOf?_eq_some_iff.1 hc).2.1

theorem facetOf?_of_catalogOf? (F : FacetId) : c.facetOf? F = w.facetOf? (id, F) :=
  (catalogOf?_eq_some_iff.1 hc).2.2.2 F

theorem aspects_of_catalogOf? : c.aspects = (w.catalogAt id).aspects.map w.readAspect := by
  rw [catalogOf?_of_lt (lt_of_catalogOf? hc)] at hc
  obtain rfl := Option.some.inj hc
  rfl

theorem aspectOf?_of_catalogOf? (A : AspectId) :
    c.aspectOf? A = (w.aspectRef? id A).map w.readAspect := by
  rw [Catalog.aspectOf?, aspects_of_catalogOf? hc]
  exact Array.getElem?_map

end Reading

/-- **A catalog is as it was if it and all that it refers to was left alone.** -/
theorem catalogOf?_frame (hcatalog : w'.catalogs[id.number]? = w.catalogs[id.number]?)
    (haspect : ∀ A a, w.aspectRef? id A = some a → w'.aspectAt a = w.aspectAt a)
    (hfacet : ∀ F f, w.facetRef? id F = some f → w'.readFacet f = w.readFacet f) :
    w'.catalogOf? id = w.catalogOf? id := by
  rw [catalogOf?, catalogOf?, hcatalog]
  rcases hcell : w.catalogs[id.number]? with _ | cell
  · rfl
  · have haspects : cell.aspects.map w'.readAspect = cell.aspects.map w.readAspect := by
      refine Array.map_congr_left fun a ha => ?_
      obtain ⟨k, hk⟩ := Array.mem_iff_getElem?.1 ha
      have hA : w.aspectRef? id ⟨k⟩ = some a := by
        rw [aspectRef?, catalogAt, hcell]
        exact hk
      have hfacets : (w.aspectAt a).facets.map w'.readFacet =
          (w.aspectAt a).facets.map w.readFacet := by
        refine Array.map_congr_left fun f hf => ?_
        obtain ⟨n, hn⟩ := Array.mem_iff_getElem?.1 hf
        refine hfacet ⟨⟨k⟩, n⟩ f ?_
        rw [facetRef?, hA]
        exact hn
      rw [readAspect, readAspect, haspect ⟨k⟩ a hA, hfacets]
    rw [Option.map_some, Option.map_some, haspects]

end Workspace

end FacetIndex
