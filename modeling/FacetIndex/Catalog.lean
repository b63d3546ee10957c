import FacetIndex.Aspect
import FacetIndex.Config

/-!
# Catalogs: items and their properties

A catalog owns a registry of items and the aspects whose facets are properties of
these items. Handing back the index of an item takes the index from every facet, so
that the next item to hold it has no property of the former one.

A catalog can be dropped. Its registry is gone then, and its aspects and facets
stay, as orphans: `FacetIndex.Catalog.owner` is the owner that each operation of
a facet asks for.

Aspects and facets are handed out as `FacetIndex.AspectId` and
`FacetIndex.FacetId`. Two identifiers of one catalog are equal exactly when they
stand for the same aspect or facet; a name, once taken, stands for the same aspect
for good (`FacetIndex.Catalog.newAspect`), and so it is with facets.

This is a catalog by itself. A workspace keeps several of them in one memory, where a
facet finds its catalog by a reference that it stores; every request does to a catalog
there what it does to the catalog by itself (`FacetIndex.Workspace.request_mirrors`).
-/

namespace FacetIndex

/-- Tells an aspect from the others of its catalog: how many were created before
it. -/
structure AspectId where
  number : Nat
  deriving DecidableEq, Repr

/-- Tells a facet from the others of its catalog: its aspect, and how many facets
were created there before it. -/
structure FacetId where
  aspect : AspectId
  number : Nat
  deriving DecidableEq, Repr

/-- Items, and groups of properties of them. -/
structure Catalog where
  /-- The items; none once the catalog is dropped. -/
  owner : Option Registry := some .empty
  /-- The aspects, in the order of their creation. -/
  aspects : Array Aspect := #[]

namespace Catalog

/-- A catalog without items and aspects. Making room beforehand changes no
answer. -/
def create (_config : Config := {}) : Catalog := {}

instance : Inhabited Catalog := ⟨create⟩

/-! ### Finding -/

/-- The registry, if the catalog is still there. -/
def registry (c : Catalog) : Except Error Registry := requireOwner c.owner

/-- The number of indexes that complements are taken over. -/
def domain (c : Catalog) : Nat := domainOf c.owner

/-- The aspect of an identifier. -/
def aspectOf? (c : Catalog) (id : AspectId) : Option Aspect := c.aspects[id.number]?

/-- The facet of an identifier. -/
def facetOf? (c : Catalog) (id : FacetId) : Option Facet :=
  (c.aspectOf? id.aspect).bind (·.facets[id.number]?)

/-- The aspect of this name. -/
def findAspect? (c : Catalog) (name : String) : Option AspectId :=
  (c.aspects.findIdx? (·.name == name)).map (⟨·⟩)

/-- The aspect of this name, which must be there. -/
def aspect? (c : Catalog) (name : String) : Except Error AspectId :=
  match c.findAspect? name with
  | some id => .ok id
  | none => .error (.aspectNotFound name)

/-- The facet of this name in an aspect, which must be there. -/
def facet? (c : Catalog) (id : AspectId) (name : String) : Option (Except Error FacetId) :=
  (c.aspectOf? id).map fun a => return ⟨id, ← a.facet? name⟩

/-- The aspects, in the order of their names. -/
def sortedAspects (c : Catalog) : List (Aspect × AspectId) :=
  (sortedByName Aspect.name c.aspects).map fun (a, k) => (a, ⟨k⟩)

/-- The facets of an aspect, in the order of their names. -/
def sortedFacets (c : Catalog) (id : AspectId) : Option (List (Facet × FacetId)) :=
  (c.aspectOf? id).map fun a => a.sortedFacets.map fun (f, k) => (f, ⟨id, k⟩)

/-! ### Items -/

/-- The catalog with another registry. -/
def withRegistry (c : Catalog) (r : Registry) : Catalog := { c with owner := some r }

/-- Takes index `i` from every facet of every aspect. -/
def forget (c : Catalog) (i : Nat) : Catalog := { c with aspects := c.aspects.map (·.forget i) }

/-- The index of an item, which is made live if it is not. -/
def upsert (c : Catalog) (item : String) : Except Error (Nat × Catalog) := do
  let (i, r) := (← c.registry).upsert item
  return (i, c.withRegistry r)

/-- Removes an item from the registry and from every facet, and tells whether it was
live. -/
def remove (c : Catalog) (item : String) : Except Error (Bool × Catalog) := do
  match (← c.registry).remove? item with
  | none => return (false, c)
  | some (i, r) => return (true, (c.withRegistry r).forget i)

/-- The catalog after it was dropped. -/
def drop (c : Catalog) : Catalog := { c with owner := none }

/-! ### Aspects and facets -/

/-- Creates an aspect, unless the name is taken. -/
def newAspect (c : Catalog) (name displayName : String) :
    Except (AlreadyExists AspectId) AspectId × Catalog :=
  match c.findAspect? name with
  | some id => (.error ⟨name, id⟩, c)
  | none => (.ok ⟨c.aspects.size⟩, { c with aspects := c.aspects.push { name, displayName } })

/-- The catalog with an aspect replaced. -/
def putAspect (c : Catalog) (id : AspectId) (a : Aspect) : Catalog :=
  { c with aspects := c.aspects.setIfInBounds id.number a }

/-- Creates a facet in an aspect, unless the name is taken there. The facet covers
the indexes made so far. -/
def newFacet (c : Catalog) (id : AspectId) (name displayName : String) :
    Option (Except (AlreadyExists FacetId) FacetId × Catalog) :=
  (c.aspectOf? id).map fun a =>
    match a.find? name with
    | some k => (.error ⟨name, ⟨id, k⟩⟩, c)
    | none => (.ok ⟨id, a.facets.size⟩, c.putAspect id (a.addFacet name displayName c.domain))

/-- The catalog with a facet replaced. -/
def putFacet (c : Catalog) (id : FacetId) (f : Facet) : Catalog :=
  match c.aspectOf? id.aspect with
  | some a => c.putAspect id.aspect (a.putFacet id.number f)
  | none => c

/-- Replaces a facet by what `change` makes of it, given the registry. -/
def changeFacet (c : Catalog) (id : FacetId)
    (change : Facet → Option Registry → Except Error Facet) : Option (Except Error Catalog) :=
  (c.facetOf? id).map fun f => return c.putFacet id (← change f c.owner)

end Catalog

end FacetIndex
