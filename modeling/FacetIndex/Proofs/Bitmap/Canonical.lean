import FacetIndex.Bitmap.Bits
import Mathlib.Data.List.Basic

/-!
# Bitmaps without ones in the padding

Of a bitmap with nothing in the padding (`FacetIndex.Bitmap.Canonical`) the stored bits
are the visible ones, so that listing and counting, which read what is stored and what
is visible, agree (`FacetIndex.Bitmap.Canonical.count_eq_length_toList`). Writing one
bit and growing keep a bitmap so. Filling, clearing and complementing make it so, as long
as it has the right number of blocks.

A combination of two such bitmaps is one too if the operator keeps zeros
(`FacetIndex.Word.KeepsZeros`): it puts no one at a place where both operands have a zero.
The four standard operators do. One that acts place by place as well is read index by
index, without any regard to where the blocks end
(`FacetIndex.Bitmap.stored_combine_of_zero`).

The counts that build nothing count what the combination would list, canonical or not
(`FacetIndex.Bitmap.combineCount_eq_length`).
-/

namespace FacetIndex

/-! ### Sums of counts -/

/-- The blocks have as many ones together as their words. -/
theorem total_countAll (blocks : List Block) :
    total (blocks.map Block.countAll) =
      total ((blocks.flatMap (·.words.toList)).map Word.count) := by
  induction blocks with
  | nil => rfl
  | cons b blocks ih =>
    rw [List.map_cons, total_cons, ih, List.flatMap_cons, List.map_append, total_append,
      Block.countAll]

/-! ### Operators that keep zeros -/

namespace Word

/-- Where both operands have a zero, the operator puts a zero. -/
def KeepsZeros (g : Word → Word → Word) : Prop :=
  ∀ v w i, i < 64 → bit v i = false → bit w i = false → bit (g v w) i = false

/-- An operator that acts place by place has to make a zero of two zeros only. -/
theorem Pointwise.keepsZeros {g : Word → Word → Word} {f : Bool → Bool → Bool}
    (hg : Pointwise g f) (hzero : f false false = false) : KeepsZeros g := by
  intro v w i hi hv hw
  rw [hg v w i hi, hv, hw, hzero]

end Word

namespace WordOp

theorem keepsZeros_and : Word.KeepsZeros and.combine := Word.pointwise_and.keepsZeros rfl

theorem keepsZeros_or : Word.KeepsZeros or.combine := Word.pointwise_or.keepsZeros rfl

theorem keepsZeros_xor : Word.KeepsZeros xor.combine := Word.pointwise_xor.keepsZeros rfl

theorem keepsZeros_diff : Word.KeepsZeros diff.combine := Word.pointwise_diff.keepsZeros rfl

theorem keepsZeros_of_standard {op : WordOp} (h : op ∈ [and, or, xor, diff]) :
    Word.KeepsZeros op.combine := by
  simp only [List.mem_cons, List.not_mem_nil, or_false] at h
  rcases h with rfl | rfl | rfl | rfl
  · exact keepsZeros_and
  · exact keepsZeros_or
  · exact keepsZeros_xor
  · exact keepsZeros_diff

end WordOp

theorem Block.contains_combine_eq_false {g : Word → Word → Word} (hg : Word.KeepsZeros g)
    {a b : Block} {i : Nat} (ha : a.contains i = false) (hb : b.contains i = false) :
    (combine g a b).contains i = false := by
  rcases Nat.lt_or_ge i 1024 with hi | hi
  · rw [contains_eq_bit _ hi] at ha hb ⊢
    rw [combine, Vector.getElem_zipWith]
    exact hg _ _ _ (Nat.mod_lt i (by decide)) ha hb
  · exact contains_of_le _ hi

namespace Bitmap

variable {s t : Bitmap}

/-! ### Listing -/

/-- There are as many stored ones as the list has members. -/
theorem total_countAll_eq_length (s : Bitmap) :
    total (s.blocks.map Block.countAll).toList = s.toList.length := by
  have hwords : s.toList = Word.runIndexes (s.blocks.toList.flatMap (·.words.toList)) := by
    rw [toList, cursor, IndexCursor.drain_fst, IndexCursor.remaining_ofBlocks]
  rw [hwords, ← Word.total_count_eq_length, Array.toList_map, total_countAll]

/-- **The count that builds nothing is the length of the list of the combination.** -/
theorem combineCount_eq_length (op : WordOp) (s t : Bitmap) :
    combineCount op s t = (combine op s t).toList.length := by
  rw [combineCount_eq, total_countAll_eq_length]

/-- The list is strictly ascending. -/
theorem pairwise_lt_toList (s : Bitmap) : s.toList.Pairwise (· < ·) := by
  rw [toList_eq]
  exact List.pairwise_lt_range.filter _

theorem nodup_toList (s : Bitmap) : s.toList.Nodup :=
  s.pairwise_lt_toList.imp Nat.ne_of_lt

/-! ### Canonical bitmaps -/

namespace Canonical

/-- A stored one is below the size. -/
theorem lt_size (h : s.Canonical) {i : Nat} (hi : s.stored i = true) : i < s.size := by
  by_contra hge
  rw [h.padding i (Nat.le_of_not_lt hge)] at hi
  cases hi

theorem contains_eq (h : s.Canonical) (i : Nat) : s.contains i = s.stored i := by
  rw [Bitmap.contains_eq, Bool.and_eq_right_iff_imp, decide_eq_true_eq]
  exact h.lt_size

theorem toList_eq (h : s.Canonical) : s.toList = (List.range s.size).filter s.stored := by
  have hsize : s.size ≤ 1024 * s.blocks.size := by
    rw [h.wellSized, blocksFor_eq]
    omega
  rw [Bitmap.toList_eq, ← Block.filter_range_of_le s.stored hsize]
  refine List.filter_congr fun i _ => ?_
  rw [eq_comm, Bool.and_eq_left_iff_imp, decide_eq_true_eq]
  exact h.lt_size

/-- **Counting below the size counts all that is stored.** -/
theorem count_eq_length_toList (h : s.Canonical) : s.count = s.toList.length := by
  rw [h.toList_eq, count_eq_length]

end Canonical

theorem canonical_zeros (n : Nat) : (zeros n).Canonical :=
  ⟨wellSized_zeros n, fun i _ => stored_zeros n i⟩

theorem size_zeros (n : Nat) : (zeros n).size = n := rfl

theorem Canonical.growTo (h : s.Canonical) (n : Nat) : (s.growTo n).Canonical := by
  refine ⟨h.wellSized.growTo n, ?_⟩
  intro i hi
  rw [size_growTo] at hi
  rw [stored_growTo]
  exact h.padding i (Nat.le_trans (Nat.le_max_left ..) hi)

theorem Canonical.insert (h : s.Canonical) (i : Nat) : (s.insert i).Canonical := by
  refine ⟨h.wellSized.insert i, ?_⟩
  intro j hj
  rw [size_insert] at hj
  have hne : (j == i) = false := by
    rw [beq_eq_false_iff_ne]
    omega
  rw [stored_insert h.wellSized, h.padding j (by omega), hne]
  rfl

theorem Canonical.erase (h : s.Canonical) (i : Nat) : (s.erase i).Canonical := by
  refine ⟨h.wellSized.erase i, ?_⟩
  intro j hj
  rw [size_erase] at hj
  rw [stored_erase h.wellSized, h.padding j (by omega)]
  rfl

/-- The complement masks the padding, whatever it held. -/
theorem WellSized.canonical_complement (h : s.WellSized) : s.complement.Canonical := by
  refine ⟨h.complement, ?_⟩
  intro i hi
  have hge : ¬ i < s.size := Nat.not_lt.2 hi
  rw [stored_complement h, decide_eq_false hge]
  rfl

theorem WellSized.canonical_fill (h : s.WellSized) : s.fill.Canonical := by
  refine ⟨h.fill, ?_⟩
  intro i hi
  rw [stored_fill h, decide_eq_false (show ¬ i < s.size from Nat.not_lt.2 hi)]

theorem WellSized.canonical_clear (h : s.WellSized) : s.clear.Canonical :=
  ⟨h.clear, fun i _ => stored_clear s i⟩

theorem canonical_ones (n : Nat) : (ones n).Canonical := (wellSized_zeros n).canonical_fill

theorem size_ones (n : Nat) : (ones n).size = n := rfl

theorem stored_ones (n i : Nat) : (ones n).stored i = decide (i < n) :=
  stored_fill (wellSized_zeros n) i

/-! ### Complements over a domain -/

theorem size_complementWithin (s : Bitmap) (n : Nat) :
    (s.complementWithin n).size = max s.size n :=
  size_growTo s n

theorem Canonical.complementWithin (h : s.Canonical) (n : Nat) :
    (s.complementWithin n).Canonical :=
  (h.growTo n).wellSized.canonical_complement

theorem stored_complementWithin (h : s.WellSized) (n i : Nat) :
    (s.complementWithin n).stored i = (decide (i < max s.size n) && !s.stored i) := by
  rw [Bitmap.complementWithin, stored_complement (h.growTo n), size_growTo, stored_growTo]

/-! ### Combinations -/

/-- **Index by index, past the end of the blocks too.** There every operand reads as
zero, and so does the combination if the operator makes a zero of two zeros. -/
theorem stored_combine_of_zero {op : WordOp} {f : Bool → Bool → Bool}
    (hf : Word.Pointwise op.combine f) (hzero : f false false = false) (s t : Bitmap) (i : Nat) :
    (combine op s t).stored i = f (s.stored i) (t.stored i) := by
  rcases Nat.lt_or_ge (i / 1024) (max s.blocks.size t.blocks.size) with hlt | hge
  · exact stored_combine hf s t hlt
  · have hblocks := size_blocks_combine op s t
    rw [stored_of_le s (by omega), stored_of_le t (by omega), stored_of_le _ (by omega), hzero]

/-- Where neither operand has a one, an operator that keeps zeros stores none. -/
theorem stored_combine_eq_false {op : WordOp} (hop : Word.KeepsZeros op.combine) {i : Nat}
    (hs : s.stored i = false) (ht : t.stored i = false) :
    (combine op s t).stored i = false := by
  rcases Nat.lt_or_ge (i / 1024) (combine op s t).blocks.size with hlt | hge
  · rw [stored_eq_getD] at hs ht
    rw [stored_eq_of_lt _ hlt, getElem_combine]
    exact Block.contains_combine_eq_false hop hs ht
  · exact stored_of_le _ hge

theorem Canonical.combine {op : WordOp} (hop : Word.KeepsZeros op.combine) (hs : s.Canonical)
    (ht : t.Canonical) : (combine op s t).Canonical := by
  refine ⟨wellSized_combine op hs.wellSized ht.wellSized, ?_⟩
  intro i hi
  rw [size_combine] at hi
  exact stored_combine_eq_false hop (hs.padding i (by omega)) (ht.padding i (by omega))

theorem stored_inter (s t : Bitmap) (i : Nat) :
    (s.inter t).stored i = (s.stored i && t.stored i) :=
  stored_combine_of_zero Word.pointwise_and rfl s t i

theorem stored_union (s t : Bitmap) (i : Nat) :
    (s.union t).stored i = (s.stored i || t.stored i) :=
  stored_combine_of_zero Word.pointwise_or rfl s t i

theorem stored_symmDiff (s t : Bitmap) (i : Nat) :
    (s.symmDiff t).stored i = (s.stored i ^^ t.stored i) :=
  stored_combine_of_zero Word.pointwise_xor rfl s t i

theorem stored_diff (s t : Bitmap) (i : Nat) :
    (s.diff t).stored i = (s.stored i && !t.stored i) :=
  stored_combine_of_zero (f := fun a b => a && !b) Word.pointwise_diff rfl s t i

end Bitmap

end FacetIndex
