import FacetIndex.Proofs.Bitmap.Canonical

/-!
# What a combination is, and what it counts

A combination goes block by block, and a block may be missing on either side or on both.
None of these cases can be seen in the result: every word of it is the operator applied to
the words of the operands, where a word that an operand does not have is read as zero
(`FacetIndex.Bitmap.word?_combine`). This holds of every operator and of all lengths, with
or without ones in the padding.

For an operator that acts place by place and for canonical operands it comes down to one
equation between bits (`FacetIndex.Bitmap.contains_combine`). The operator may well make a
one of two zeros; beyond the larger of the two sizes nothing of it is visible.

The count that builds nothing counts what is stored, in the padding as well. So it is the
count of the combination and, in addition, that of its padding
(`FacetIndex.Bitmap.combineCount_eq_add`); the two agree if the operator keeps zeros and
the operands have no padding to show (`FacetIndex.Bitmap.combineCount_eq_count`).
-/

namespace FacetIndex

/-- The ones of a block, as many as there are places that hold one. -/
theorem WordOp.countBlocks_eq_length (op : WordOp) (a? b? : Option Block) :
    op.countBlocks a? b? =
      (op.combineBlocks a? b?).elim 0 fun b => ((List.range 1024).filter b.contains).length := by
  rw [countBlocks_eq]
  exact congrArg ((op.combineBlocks a? b?).elim 0) (funext Block.countAll_eq_length)

namespace Bitmap

variable {s t : Bitmap}

/-! ### Word by word -/

/-- Word `j` of block `k`, if the bitmap has such a block. -/
def word? (s : Bitmap) (k j : Nat) : Option Word := s.blocks[k]?.bind fun b => b.words[j]?

/-- A missing block is read as zeros. -/
theorem getElem_getD_empty (s : Bitmap) (k : Nat) {j : Nat} (hj : j < 16) :
    (s.blocks[k]?.getD .empty).words[j] = (s.word? k j).getD 0 := by
  rw [word?]
  rcases s.blocks[k]? with _ | b
  · simp [Block.empty]
  · simp [hj]

/-- **Every word of a combination joins the words at its place**, which are zero where
there are none. -/
theorem word?_combine (op : WordOp) (s t : Bitmap) {k j : Nat}
    (hk : k < max s.blocks.size t.blocks.size) (hj : j < 16) :
    (combine op s t).word? k j =
      some (op.combine ((s.word? k j).getD 0) ((t.word? k j).getD 0)) := by
  have hlt : k < (combine op s t).blocks.size := by rwa [size_blocks_combine]
  rw [word?, Array.getElem?_eq_getElem hlt, Option.bind_some, getElem_combine,
    Vector.getElem?_eq_getElem hj, ← getElem_getD_empty s k hj, ← getElem_getD_empty t k hj]
  simp only [Block.combine, Vector.getElem_zipWith]

/-! ### Index by index -/

/-- **Every visible bit of a combination joins the visible bits at its index**, whatever
the operator makes of two zeros. -/
theorem contains_combine {op : WordOp} {f : Bool → Bool → Bool}
    (hf : Word.Pointwise op.combine f) (hs : s.Canonical) (ht : t.Canonical) (i : Nat) :
    (combine op s t).contains i =
      (decide (i < max s.size t.size) && f (s.contains i) (t.contains i)) := by
  rw [Bitmap.contains_eq, size_combine, hs.contains_eq, ht.contains_eq]
  by_cases hi : i < max s.size t.size
  · have hblock : i / 1024 < max s.blocks.size t.blocks.size := by
      rw [hs.wellSized, ht.wellSized, ← blocksFor_max, div_lt_blocksFor_iff]
      omega
    rw [stored_combine hf s t hblock]
  · rw [decide_eq_false hi, Bool.false_and, Bool.false_and]

/-- **The meaning of a combination, for every operator and all lengths.** It covers the
larger of the two domains with the larger of the two numbers of blocks, and each of its
words is the operator applied to the words at this place, zero where an operand has no
such block. If the operator acts place by place, through any of the sixteen operators on
bits, and the operands are canonical, each visible bit is this operator applied to the
visible bits. -/
theorem meaning_of_combine (op : WordOp) (s t : Bitmap) :
    (combine op s t).size = max s.size t.size ∧
      (combine op s t).blocks.size = max s.blocks.size t.blocks.size ∧
      (∀ k j, k < max s.blocks.size t.blocks.size → j < 16 →
        (combine op s t).word? k j =
          some (op.combine ((s.word? k j).getD 0) ((t.word? k j).getD 0))) ∧
      ∀ f, Word.Pointwise op.combine f → s.Canonical → t.Canonical → ∀ i,
        (combine op s t).contains i =
          (decide (i < max s.size t.size) && f (s.contains i) (t.contains i)) := by
  refine ⟨size_combine op s t, Array.size_ofFn, ?_, ?_⟩
  · intro k j hk hj
    exact word?_combine op s t hk hj
  · intro f hf hs ht i
    exact contains_combine hf hs ht i

/-- An operator that makes ones of zeros, over one block and two. It fills the padding of
the second block, of which the first operand has nothing, and none of it is visible. -/
theorem meaning_of_combine_nor :
    ∃ u : Bitmap, u = combine ⟨fun v w => ~~~(v ||| w), .readAsZero⟩ (ones 3) (zeros 1030) ∧
      u.size = 1030 ∧ u.blocks.size = 2 ∧ u.word? 1 15 = some (~~~(0 ||| 0)) ∧
      u.stored 1040 = true ∧ u.contains 1040 = false ∧ u.contains 2 = false ∧
      u.contains 1029 = true := by
  have hf : Word.Pointwise (fun v w => ~~~(v ||| w)) (fun a b => !(a || b)) := by
    intro v w i hi
    rw [Word.bit_not _ hi, Word.bit_or _ _ hi]
  obtain ⟨hsize, hblocks, hword, hbits⟩ := meaning_of_combine
    ⟨fun v w => ~~~(v ||| w), .readAsZero⟩ (ones 3) (zeros 1030)
  have hbit := hbits _ hf (wellSized_zeros 3).canonical_fill (canonical_zeros 1030)
  exact ⟨_, rfl, hsize, hblocks, hword 1 15 (by decide +kernel) (by decide), by decide +kernel,
    hbit 1040, (hbit 2).trans (by decide +kernel), (hbit 1029).trans (by decide +kernel)⟩

/-! ### Counting the padding -/

/-- How many ones are stored at or past the size. -/
def paddingCount (s : Bitmap) : Nat :=
  ((List.range (1024 * s.blocks.size)).filter fun i => decide (s.size ≤ i) && s.stored i).length

theorem paddingCount_eq_zero (h : ∀ i, s.size ≤ i → s.stored i = false) : s.paddingCount = 0 := by
  rw [paddingCount, List.length_eq_zero_iff, List.filter_eq_nil_iff]
  intro i _ hi
  obtain ⟨hle, hone⟩ := Bool.and_eq_true_iff.1 hi
  rw [h i (of_decide_eq_true hle)] at hone
  cases hone

/-- Nothing is stored past the last block, so the ones may be looked for beyond it. -/
theorem filter_stored_of_le (s : Bitmap) (p : Nat → Bool) {n : Nat}
    (h : 1024 * s.blocks.size ≤ n) :
    (List.range n).filter (fun i => p i && s.stored i) =
      (List.range (1024 * s.blocks.size)).filter fun i => p i && s.stored i := by
  rw [← Block.filter_range_of_le _ h]
  refine List.filter_congr fun i _ => ?_
  rcases Nat.lt_or_ge i (1024 * s.blocks.size) with hi | hi
  · rw [decide_eq_true hi, Bool.and_true]
  · rw [stored_of_le s (by omega), Bool.and_false, Bool.false_and]

/-- **A stored one is either below the size or in the padding.** -/
theorem length_toList_eq_add (s : Bitmap) : s.toList.length = s.count + s.paddingCount := by
  -- both the size and the end of the blocks are within the range
  obtain ⟨n, hsize, hblocks⟩ : ∃ n, s.size ≤ n ∧ 1024 * s.blocks.size ≤ n :=
    ⟨max s.size (1024 * s.blocks.size), Nat.le_max_left .., Nat.le_max_right ..⟩
  have hlist : s.toList = (List.range n).filter s.stored := by
    rw [toList_eq]
    exact (filter_stored_of_le s (fun _ => true) hblocks).symm
  have hbelow : s.count =
      ((List.range n).filter fun i => s.stored i && decide (i < s.size)).length := by
    rw [count_eq_length, Block.filter_range_of_le _ hsize]
  have hpast : s.paddingCount =
      ((List.range n).filter fun i => decide (s.size ≤ i) && s.stored i).length := by
    rw [paddingCount, filter_stored_of_le s _ hblocks]
  rw [hlist, hbelow, hpast, List.length_eq_length_filter_add (fun i => decide (i < s.size)),
    List.filter_filter, List.filter_filter]
  refine congrArg₂ (· + ·) (congrArg List.length ?_) (congrArg List.length ?_)
  · exact List.filter_congr fun i _ => Bool.and_comm ..
  · refine List.filter_congr fun i _ => ?_
    rw [← decide_not, decide_eq_decide.2 Nat.not_lt]

/-- **The count that builds nothing is the count of the combination and that of its
padding.** -/
theorem combineCount_eq_add (op : WordOp) (s t : Bitmap) :
    combineCount op s t = (combine op s t).count + (combine op s t).paddingCount := by
  rw [combineCount_eq_length, length_toList_eq_add]

/-- Where the operands have no padding to show and the operator keeps zeros, it is the
count. -/
theorem combineCount_eq_count {op : WordOp} (hop : Word.KeepsZeros op.combine)
    (hs : ∀ i, s.size ≤ i → s.stored i = false) (ht : ∀ i, t.size ≤ i → t.stored i = false) :
    combineCount op s t = (combine op s t).count := by
  rw [combineCount_eq_add, paddingCount_eq_zero, Nat.add_zero]
  intro i hi
  rw [size_combine] at hi
  exact stored_combine_eq_false hop (hs i (by omega)) (ht i (by omega))

/-- **The counts that build nothing.** For two blocks, either of which may be missing, it is
the number of ones of the combined block; for two bitmaps it is that of all the blocks
of the combination, and so the count of the combination together with that of its padding.
The counts of the four standard operators are the counts of what they combine, as long as
the operands have no padding to show. -/
theorem counts_of_combine :
    (∀ (op : WordOp) a? b?, op.countBlocks a? b? =
        (op.combineBlocks a? b?).elim 0 fun b => ((List.range 1024).filter b.contains).length) ∧
      (∀ op s t,
        combineCount op s t = total ((combine op s t).blocks.map Block.countAll).toList ∧
          combineCount op s t = (combine op s t).count + (combine op s t).paddingCount) ∧
      ∀ s t : Bitmap, (∀ i, s.size ≤ i → s.stored i = false) →
        (∀ i, t.size ≤ i → t.stored i = false) →
        s.interCount t = (s.inter t).count ∧ s.unionCount t = (s.union t).count ∧
          s.symmDiffCount t = (s.symmDiff t).count ∧ s.diffCount t = (s.diff t).count := by
  refine ⟨WordOp.countBlocks_eq_length,
    fun op s t => ⟨combineCount_eq op s t, combineCount_eq_add op s t⟩, ?_⟩
  intro s t hs ht
  exact ⟨combineCount_eq_count WordOp.keepsZeros_and hs ht,
    combineCount_eq_count WordOp.keepsZeros_or hs ht,
    combineCount_eq_count WordOp.keepsZeros_xor hs ht,
    combineCount_eq_count WordOp.keepsZeros_diff hs ht⟩

/-- An operator that makes ones of zeros has those in the padding counted as well; the
standard operators have none to count there. -/
theorem counts_of_combine_nor :
    ∃ op : WordOp, op = ⟨fun v w => ~~~(v ||| w), .readAsZero⟩ ∧
      combineCount op (ones 3) (zeros 1030) = 2045 ∧
      (combine op (ones 3) (zeros 1030)).count = 1027 ∧
      combineCount op (ones 3) (zeros 1030) =
        (combine op (ones 3) (zeros 1030)).count +
          (combine op (ones 3) (zeros 1030)).paddingCount ∧
      (ones 3).unionCount (zeros 1030) = 3 ∧
      (ones 3).unionCount (zeros 1030) = ((ones 3).union (zeros 1030)).count := by
  obtain ⟨-, hcount, hstandard⟩ := counts_of_combine
  exact ⟨_, rfl, by decide +kernel, by decide +kernel, (hcount _ _ _).2, by decide +kernel,
    (hstandard _ _ (wellSized_zeros 3).canonical_fill.padding
      (canonical_zeros 1030).padding).2.1⟩

end Bitmap

end FacetIndex
