import FacetIndex.Cursor.Basic
import FacetIndex.Layout

/-!
# Bitmaps: growing sets of indexes

A bitmap has a size and is a set of indexes below it, stored in
`FacetIndex.blocksFor size` blocks. Its size never shrinks: writing at an index
past the end makes the bitmap longer, for a one and for a zero alike, and reading
there finds no one.

The type itself does not exclude a block too many, or ones in the padding past the
size. An operator of `FacetIndex.Bitmap.combine` may well leave such ones behind,
and then the operations differ in whether they see them:

| sees the size only | sees all that is stored |
|---|---|
| `FacetIndex.Bitmap.contains` | `FacetIndex.Bitmap.stored` |
| `FacetIndex.Bitmap.count` | `FacetIndex.Bitmap.isEmpty` |
| `FacetIndex.Bitmap.complement` | `FacetIndex.Bitmap.toList` |
| `FacetIndex.Bitmap.fill` | `FacetIndex.Bitmap.combine` |

`FacetIndex.Bitmap.growTo` only moves the size, so that a one of the padding may
come into view. `FacetIndex.Bitmap.Canonical` says that there is none.
-/

namespace FacetIndex

/-- A growing set of indexes. -/
structure Bitmap where
  /-- The bits, 1024 to a block. -/
  blocks : Array Block
  /-- How many indexes the bitmap covers. -/
  size : Nat
  deriving DecidableEq, Repr

namespace Bitmap

/-- The bitmap that covers no index. -/
def empty : Bitmap := ⟨#[], 0⟩

instance : Inhabited Bitmap := ⟨empty⟩

/-- The bitmap of `size` zeros. -/
def zeros (size : Nat) : Bitmap := ⟨Array.replicate (blocksFor size) .empty, size⟩

/-! ### Reading -/

/-- The bit that is stored for index `i`, be it below the size or in the padding. -/
def stored (s : Bitmap) (i : Nat) : Bool := s.blocks[i / 1024]?.any (·.contains (i % 1024))

/-- The bitmap covers `i` and has a one there. -/
def contains (s : Bitmap) (i : Nat) : Bool := i < s.size && s.stored i

/-- There are as many blocks as the size asks for. -/
def WellSized (s : Bitmap) : Prop := s.blocks.size = blocksFor s.size

/-- There are as many blocks as the size asks for, and no one is stored at or past
the size. -/
structure Canonical (s : Bitmap) : Prop where
  wellSized : s.WellSized
  padding : ∀ i, s.size ≤ i → s.stored i = false

/-- How many ones there are below the size. -/
def count (s : Bitmap) : Nat :=
  total (s.blocks.mapIdx fun k b => b.count (activeLength s.size k)).toList

/-- No one is stored. -/
def isEmpty (s : Bitmap) : Bool := s.blocks.all (·.isEmpty)

/-- The cursor before the first one that is stored. -/
def cursor (s : Bitmap) : IndexCursor := .ofBlocks s.blocks

/-- The indexes of the ones that are stored, in ascending order. -/
def toList (s : Bitmap) : List Nat := s.cursor.drain.1.toList

/-! ### Growing and writing -/

/-- The bitmap made to cover `size` indexes, if it covers fewer. -/
def growTo (s : Bitmap) (size : Nat) : Bitmap :=
  if size ≤ s.size then s
  else ⟨s.blocks ++ Array.replicate (blocksFor size - s.blocks.size) .empty, size⟩

/-- Applies `f` to the block of index `i`. -/
def mapBlock (s : Bitmap) (i : Nat) (f : Block → Block) : Bitmap :=
  { s with blocks := s.blocks.modify (i / 1024) f }

/-- The bitmap made to cover `i`, with a one there. -/
def insert (s : Bitmap) (i : Nat) : Bitmap :=
  (s.growTo (i + 1)).mapBlock i (·.insert (i % 1024))

/-- The bitmap made to cover `i`, with a zero there. -/
def erase (s : Bitmap) (i : Nat) : Bitmap :=
  (s.growTo (i + 1)).mapBlock i (·.erase (i % 1024))

/-- Refuses an index that no bitmap can grow to cover. -/
def checkRoom (i : Nat) : Except Error Unit :=
  if i < maxIndex then .ok () else .error (.noRoom i)

/-- Puts a one at index `i` and tells whether the stored bit changed. -/
def set? (s : Bitmap) (i : Nat) : Except Error (Bool × Bitmap) := do
  checkRoom i
  return (!s.stored i, s.insert i)

/-- Puts a zero at index `i` and tells whether the stored bit changed. -/
def unset? (s : Bitmap) (i : Nat) : Except Error (Bool × Bitmap) := do
  checkRoom i
  return (s.stored i, s.erase i)

/-- The bitmap that grew by putting ones at the listed indexes. -/
def ofList? (indexes : List Nat) : Except Error Bitmap :=
  indexes.foldlM (fun s i => Prod.snd <$> s.set? i) empty

/-! ### All bits at once -/

/-- The bitmap with ones at all the indexes that it covers. -/
def fill (s : Bitmap) : Bitmap :=
  { s with blocks := s.blocks.mapIdx fun k _ => .below (activeLength s.size k) }

/-- The bitmap with zeros in all its blocks. -/
def clear (s : Bitmap) : Bitmap := { s with blocks := s.blocks.map fun _ => .empty }

/-- The bitmap of `size` ones. -/
def ones (size : Nat) : Bitmap := (zeros size).fill

end Bitmap

end FacetIndex
