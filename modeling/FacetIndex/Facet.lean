import FacetIndex.Bitmap.Algebra
import FacetIndex.Registry.Basic

/-!
# Facets: named properties of items

A facet is a boolean property. It is kept as a bitmap over the indexes of a
registry, the bit at an index standing for the item there. The bitmap may be
shorter than the registry's capacity: an item past its end lacks the property, and
writing there makes the bitmap longer.

The registry is that of the catalog the facet belongs to. It is given to each
operation that needs it as `owner`, which is `none` once the catalog is gone; from
then on items cannot be resolved, and reading, writing and listing items is refused
with `FacetIndex.Error.catalogDropped`. Every other request is answered from the
bits.

An index is refused if the registry never made it. Writing a one asks for more: a
live item at the index.
-/

namespace FacetIndex

/-- A named property of items. -/
structure Facet where
  /-- The name, by which the facet is found in its aspect. -/
  name : String
  /-- The name to be shown. -/
  displayName : String
  /-- The name of the aspect that the facet belongs to. -/
  aspect : String
  /-- The indexes of the items that have the property. -/
  bits : Bitmap
  deriving DecidableEq, Repr

/-- The registry of a catalog, if the catalog is still there. -/
def requireOwner (owner : Option Registry) : Except Error Registry :=
  match owner with
  | some r => .ok r
  | none => .error .catalogDropped

/-- The number of indexes that complements are taken over, before the size of the
bitmap is taken into account. -/
def domainOf (owner : Option Registry) : Nat := owner.elim 0 Registry.capacity

namespace Facet

/-! ### One item -/

/-- The item at index `i` has the property. -/
def getIndex? (f : Facet) (owner : Option Registry) (i : Nat) : Except Error Bool := do
  (← requireOwner owner).checkInRange i
  return f.bits.contains i

/-- The item has the property. -/
def getItem? (f : Facet) (owner : Option Registry) (item : String) : Except Error Bool := do
  return f.bits.contains (← (← requireOwner owner).indexOf item)

/-- The facet with a one at index `i`. -/
def write? (f : Facet) (i : Nat) : Except Error Facet := do
  return { f with bits := (← f.bits.set? i).2 }

/-- The facet with a zero at index `i`. -/
def wipe? (f : Facet) (i : Nat) : Except Error Facet := do
  return { f with bits := (← f.bits.unset? i).2 }

/-- Gives the property to the item at index `i`. -/
def setIndex? (f : Facet) (owner : Option Registry) (i : Nat) : Except Error Facet := do
  let r ← requireOwner owner
  r.checkInRange i
  let _ ← r.itemAt i
  f.write? i

/-- Gives the property to an item. -/
def setItem? (f : Facet) (owner : Option Registry) (item : String) : Except Error Facet := do
  f.write? (← (← requireOwner owner).indexOf item)

/-- Takes the property from index `i`, whether an item holds it or not. -/
def unsetIndex? (f : Facet) (owner : Option Registry) (i : Nat) : Except Error Facet := do
  (← requireOwner owner).checkInRange i
  f.wipe? i

/-- Takes the property from an item. -/
def unsetItem? (f : Facet) (owner : Option Registry) (item : String) : Except Error Facet := do
  f.wipe? (← (← requireOwner owner).indexOf item)

/-- Takes the property from index `i` if it is there. The bitmap does not grow. -/
def forget (f : Facet) (i : Nat) : Facet :=
  if f.bits.contains i then { f with bits := f.bits.erase i } else f

/-! ### All items -/

/-- How many items have the property. -/
def count (f : Facet) : Nat := f.bits.count

/-- The indexes of the items that have the property, in ascending order. -/
def indexes (f : Facet) : List Nat := f.bits.toList

/-- The items that have the property, in the order of their indexes. -/
def items? (f : Facet) (owner : Option Registry) : Except Error (List String) := do
  let r ← requireOwner owner
  f.indexes.mapM r.itemAt

/-- The indexes of the domain that lack the property. Indexes that are free are
among them. A bitmap that covers the domain is complemented as it is. -/
def complement (f : Facet) (owner : Option Registry) : Bitmap :=
  if domainOf owner ≤ f.bits.size then f.bits.complement
  else (f.bits.growTo (domainOf owner)).complement

/-- How many indexes of the domain lack the property. -/
def complementCount (f : Facet) (owner : Option Registry) : Nat :=
  f.bits.complementCountWithin (domainOf owner)

/-- Whether the bitmap covers the domain or not, its complement is taken within. -/
theorem complement_eq (f : Facet) (owner : Option Registry) :
    f.complement owner = f.bits.complementWithin (domainOf owner) := by
  rw [complement, Bitmap.complementWithin]
  split
  · next hcovered => rw [Bitmap.growTo, if_pos hcovered]
  · rfl

end Facet

end FacetIndex
