import FacetIndex.Bitmap.Basic

/-!
# Listings: bitmaps as text

A set of indexes is written between braces, in ascending order: on one line, with
the indexes parted by a comma and a space, or one index to a line, where every line
is indented by four spaces and ends with a comma. The empty set is a pair of braces
in both forms.
-/

namespace FacetIndex

/-- The indexes on one line, as in `{1, 5, 9}`. -/
def inlineListing (indexes : List Nat) : String :=
  "\x7b" ++ ", ".intercalate (indexes.map toString) ++ "\x7d"

/-- The indexes one to a line. -/
def multilineListing : List Nat → String
  | [] => "\x7b\x7d"
  | indexes => "\x7b\n" ++ String.join (indexes.map fun i => s!"    {i},\n") ++ "\x7d"

/-- The ones of a block on one line. -/
def Block.inlineListing (b : Block) : String := FacetIndex.inlineListing b.toList

/-- The ones of a block one to a line. -/
def Block.multilineListing (b : Block) : String := FacetIndex.multilineListing b.toList

/-- The ones stored in a bitmap on one line. -/
def Bitmap.inlineListing (s : Bitmap) : String := FacetIndex.inlineListing s.toList

/-- The ones stored in a bitmap one to a line. -/
def Bitmap.multilineListing (s : Bitmap) : String := FacetIndex.multilineListing s.toList

end FacetIndex
