import FacetIndex.Facet

/-!
# Aspects: named groups of facets

An aspect holds facets, which are found by name. They are kept in the order in
which they were created, and none is ever taken out, so that the place of a facet
tells it from every other one; a listing is in the order of the names.
-/

namespace FacetIndex

/-- A named group of facets. -/
structure Aspect where
  /-- The name, by which the aspect is found in its catalog. -/
  name : String
  /-- The name to be shown. -/
  displayName : String
  /-- The facets, in the order of their creation. -/
  facets : Array Facet := #[]
  deriving DecidableEq, Repr

/-- The members of an array with their places, in the order of their names, which
is that of the code points. -/
def sortedByName {α : Type} (nameOf : α → String) (members : Array α) : List (α × Nat) :=
  members.toList.zipIdx.mergeSort fun a b => nameOf a.1 ≤ nameOf b.1

namespace Aspect

/-- The place of the facet of this name. -/
def find? (a : Aspect) (name : String) : Option Nat := a.facets.findIdx? (·.name == name)

/-- There is a facet of this name. -/
def contains (a : Aspect) (name : String) : Bool := (a.find? name).isSome

/-- The place of the facet of this name, which must be there. -/
def facet? (a : Aspect) (name : String) : Except Error Nat :=
  match a.find? name with
  | some k => .ok k
  | none => .error (.facetNotFound a.name name)

/-- The facets with their places, in the order of their names. -/
def sortedFacets (a : Aspect) : List (Facet × Nat) := sortedByName Facet.name a.facets

/-- The aspect with one more facet, over the first `capacity` indexes and without
an item. -/
def addFacet (a : Aspect) (name displayName : String) (capacity : Nat) : Aspect :=
  { a with facets := a.facets.push ⟨name, displayName, a.name, .zeros capacity⟩ }

/-- The aspect with the facet at place `k` replaced. -/
def putFacet (a : Aspect) (k : Nat) (f : Facet) : Aspect :=
  { a with facets := a.facets.setIfInBounds k f }

/-- Takes index `i` from every facet. -/
def forget (a : Aspect) (i : Nat) : Aspect := { a with facets := a.facets.map (·.forget i) }

end Aspect

end FacetIndex
