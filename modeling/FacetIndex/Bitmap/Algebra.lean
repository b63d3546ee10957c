import FacetIndex.Bitmap.Basic
import FacetIndex.WordOp.Basic

/-!
# The algebra of bitmaps

Two bitmaps are combined block by block (`FacetIndex.Bitmap.combine`) over the
larger of the two domains, and the shorter one reads as zeros past its end. Any
operator will do; union, intersection, symmetric difference and difference are the
standard ones. For each there is a count that builds nothing
(`FacetIndex.Bitmap.combineCount`). Nothing is masked here: an operator that turns
two zeros into a one leaves ones in the padding, and they are counted.

The complement is taken over a domain: that of the bitmap itself
(`FacetIndex.Bitmap.complement`), or a larger one that the bitmap is first made to
cover (`FacetIndex.Bitmap.complementWithin`).
-/

namespace FacetIndex.Bitmap

/-- The combination of two bitmaps, over the larger of their domains. -/
def combine (op : WordOp) (s t : Bitmap) : Bitmap where
  blocks := Array.ofFn fun k : Fin (max s.blocks.size t.blocks.size) =>
    (op.combineBlocks s.blocks[k.val]? t.blocks[k.val]?).getD .empty
  size := max s.size t.size

/-- How many ones are stored in the combination. It is not built. -/
def combineCount (op : WordOp) (s t : Bitmap) : Nat :=
  total (Array.ofFn fun k : Fin (max s.blocks.size t.blocks.size) =>
    op.countBlocks s.blocks[k.val]? t.blocks[k.val]?).toList

/-- Indexes that both bitmaps have. -/
def inter (s t : Bitmap) : Bitmap := combine .and s t

/-- Indexes that either bitmap has. -/
def union (s t : Bitmap) : Bitmap := combine .or s t

/-- Indexes that exactly one of the bitmaps has. -/
def symmDiff (s t : Bitmap) : Bitmap := combine .xor s t

/-- Indexes of the first bitmap that the second one lacks. -/
def diff (s t : Bitmap) : Bitmap := combine .diff s t

/-- How many indexes both bitmaps have. -/
def interCount (s t : Bitmap) : Nat := combineCount .and s t

/-- How many indexes either bitmap has. -/
def unionCount (s t : Bitmap) : Nat := combineCount .or s t

/-- How many indexes exactly one of the bitmaps has. -/
def symmDiffCount (s t : Bitmap) : Nat := combineCount .xor s t

/-- How many indexes of the first bitmap the second one lacks. -/
def diffCount (s t : Bitmap) : Nat := combineCount .diff s t

/-! ### Complements -/

/-- The indexes below the size that the bitmap lacks. -/
def complement (s : Bitmap) : Bitmap :=
  { s with blocks := s.blocks.mapIdx fun k b => b.complement (activeLength s.size k) }

/-- How many indexes below the size the bitmap lacks. -/
def complementCount (s : Bitmap) : Nat := s.size - s.count

/-- The indexes below `domain`, and below the size, that the bitmap lacks. -/
def complementWithin (s : Bitmap) (domain : Nat) : Bitmap := (s.growTo domain).complement

/-- How many indexes below `domain`, and below the size, the bitmap lacks. -/
def complementCountWithin (s : Bitmap) (domain : Nat) : Nat := max s.size domain - s.count

end FacetIndex.Bitmap
