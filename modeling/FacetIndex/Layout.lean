/-!
# Layout: how a run of bits is cut into blocks

A block is sixteen words, 1024 bits. A bitmap of `n` bits is cut into
`FacetIndex.blocksFor n` blocks, all of them whole but the last, and the bit of
index `i` lies at place `i % 1024` of block `i / 1024`. Of block `k`, the first
`FacetIndex.activeLength n k` bits belong to the bitmap; the rest is padding.

The statements say that nothing is lost and nothing is counted twice in the cut:
`FacetIndex.div_lt_blocksFor_iff` and `FacetIndex.mod_lt_activeLength_iff` find
every index in its block, and `FacetIndex.blocksFor_max` lets bitmaps of two
lengths be joined block by block.
-/

namespace FacetIndex

/-- The largest number that can be written as an index. A bitmap has at most this
many bits, so that the bit of this index is out of reach of every bitmap. -/
def maxIndex : Nat := 18446744073709551615

/-- How many blocks hold `size` bits. -/
def blocksFor (size : Nat) : Nat := size / 1024 + if size % 1024 = 0 then 0 else 1

/-- How many bits of block `k` belong to a bitmap of `size` bits. -/
def activeLength (size k : Nat) : Nat := min (size - k * 1024) 1024

theorem activeLength_le (size k : Nat) : activeLength size k ≤ 1024 := Nat.min_le_right ..

theorem blocksFor_eq (size : Nat) : blocksFor size = (size + 1023) / 1024 := by
  unfold blocksFor
  split <;> omega

@[simp] theorem blocksFor_zero : blocksFor 0 = 0 := rfl

theorem blocksFor_mono {m n : Nat} (h : m ≤ n) : blocksFor m ≤ blocksFor n := by
  simp only [blocksFor_eq]
  omega

/-- The longer of two bitmaps has the more blocks. -/
theorem blocksFor_max (m n : Nat) : blocksFor (max m n) = max (blocksFor m) (blocksFor n) := by
  simp only [blocksFor_eq]
  omega

/-- The block of an index exists as soon as the bitmap reaches into it. -/
theorem div_lt_blocksFor_iff (size k : Nat) : k < blocksFor size ↔ k * 1024 < size := by
  simp only [blocksFor_eq]
  omega

/-- An index is below the size exactly when its place is active in its block. -/
theorem mod_lt_activeLength_iff (size i : Nat) :
    i % 1024 < activeLength size (i / 1024) ↔ i < size := by
  simp only [activeLength]
  omega

/-- All blocks but the last are wholly active. -/
theorem activeLength_eq {size k : Nat} (h : (k + 1) * 1024 ≤ size) :
    activeLength size k = 1024 := by
  simp only [activeLength]
  omega

end FacetIndex
