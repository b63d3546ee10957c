import FacetIndex.Bitmap.Basic
import FacetIndex.Error
import FacetIndex.FreeList
import Std.Data.ExtTreeMap

/-!
# Registries: items and their indexes

A registry gives every live item an index and finds either from the other. Indexes
are dense: an index handed back by `FacetIndex.Registry.remove?` is handed out
again by `FacetIndex.Registry.upsert` before a fresh one is made, the last one
handed back first. The number of indexes ever made is the capacity; it never
shrinks.

Items are found by name through `indexes` and by index through `slots`, where
`none` marks an index that is free.
-/

namespace FacetIndex

open Std (ExtTreeMap)

/-- Items and their indexes. -/
structure Registry where
  /-- The index of every live item. -/
  indexes : ExtTreeMap String Nat
  /-- The item at every index; none at an index that is free. -/
  slots : Array (Option String)
  /-- The indexes that are free. -/
  free : FreeList

namespace Registry

/-- The registry without items. -/
def empty : Registry := ⟨∅, #[], .empty⟩

instance : Inhabited Registry := ⟨empty⟩

/-! ### Looking up -/

/-- How many indexes were ever made. -/
def capacity (r : Registry) : Nat := r.slots.size

/-- How many items are live. -/
def count (r : Registry) : Nat := r.indexes.size

/-- The item is live. -/
def contains (r : Registry) (item : String) : Bool := r.indexes.contains item

/-- The index of a live item. -/
def indexOf (r : Registry) (item : String) : Except Error Nat :=
  match r.indexes[item]? with
  | some i => .ok i
  | none => .error (.itemNotFound item)

/-- The live item at an index. -/
def itemAt (r : Registry) (i : Nat) : Except Error String :=
  match r.slots[i]? with
  | some (some item) => .ok item
  | _ => .error (.indexNotFound i)

/-- Refuses an index that was never made. -/
def checkInRange (r : Registry) (i : Nat) : Except Error Unit :=
  if i < r.capacity then .ok () else .error (.indexOutOfRange i r.capacity)

/-- The live items, in the order of their indexes. -/
def items (r : Registry) : List String := r.slots.toList.filterMap id

/-! ### Changing -/

/-- Puts a new item at index `i`, which was taken out of the free list. -/
def recycle (r : Registry) (item : String) (i : Nat) (free : FreeList) : Registry :=
  ⟨r.indexes.insert item i, r.slots.setIfInBounds i (some item), free⟩

/-- Puts a new item at a fresh index. -/
def append (r : Registry) (item : String) : Registry :=
  ⟨r.indexes.insert item r.slots.size, r.slots.push (some item), r.free⟩

/-- The index of an item, which is made live if it is not. -/
def upsert (r : Registry) (item : String) : Nat × Registry :=
  match r.indexes[item]? with
  | some i => (i, r)
  | none =>
    match r.free.pop? with
    | some (i, free) => (i, r.recycle item i free)
    | none => (r.slots.size, r.append item)

/-- Takes an item from index `i`, which goes to the free list. -/
def vacate (r : Registry) (item : String) (i : Nat) : Registry :=
  ⟨r.indexes.erase item, r.slots.setIfInBounds i none, r.free.push i⟩

/-- Hands back the index of a live item. `none` if the item is not live. -/
def remove? (r : Registry) (item : String) : Option (Nat × Registry) :=
  r.indexes[item]?.map fun i => (i, r.vacate item i)

/-! ### The domain as bitmaps -/

/-- The bitmap without an index, over the capacity. -/
def emptySet (r : Registry) : Bitmap := .zeros r.capacity

/-- Puts a one at the index of a slot that holds an item. -/
def enter (s : Bitmap) (slot : Option String × Nat) : Bitmap :=
  if slot.1.isSome then s.insert slot.2 else s

/-- The bitmap of the indexes of live items, over the capacity. -/
def liveSet (r : Registry) : Bitmap := r.slots.toList.zipIdx.foldl enter r.emptySet

end Registry

end FacetIndex
