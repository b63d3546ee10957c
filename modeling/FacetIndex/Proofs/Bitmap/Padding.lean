import FacetIndex.Proofs.Bitmap.Combination

/-!
# Which operators leave the padding empty

Two canonical bitmaps are combined and the combination is counted. The count that builds
nothing is the same number exactly when the combination is canonical too
(`FacetIndex.Bitmap.combineCount_eq_count_iff`), and this is up to the operator: what is
past the size of the combination is, in the last word that both reach into, a run of places
at the end that have zeros in both operands. So the operator has to keep every such run of
zeros (`FacetIndex.Word.KeepsTail`). Nothing less will do, since a bitmap may end at any
place of a word, and that includes the very first: two zero words have to give a zero word.

| operator | keeps tails |
|---|---|
| one that keeps zeros, such as the four standard ones | yes |
| one that acts place by place | if it makes a zero of two zeros |
| moving the ones of a word towards its first place | yes, though it does not keep zeros |
| the complement of a union | no |

For an operator that does not keep tails there are two bitmaps whose combination has ones
past its size, and there the two counts differ.
-/

namespace FacetIndex

/-! ### Operators that keep the zeros at the end of a word -/

namespace Word

/-- Where both operands have zeros only from some place on, so has the result. -/
def KeepsTail (g : Word → Word → Word) : Prop :=
  ∀ v w n, (∀ i, n ≤ i → i < 64 → bit v i = false ∧ bit w i = false) →
    ∀ i, n ≤ i → i < 64 → bit (g v w) i = false

theorem KeepsZeros.keepsTail {g : Word → Word → Word} (hg : KeepsZeros g) : KeepsTail g := by
  intro v w n hzeros i hn hi
  obtain ⟨hv, hw⟩ := hzeros i hn hi
  exact hg v w i hi hv hw

/-- A tail may be the whole word, so two zero words give a zero word. -/
theorem KeepsTail.zero {g : Word → Word → Word} (hg : KeepsTail g) : g 0 0 = 0 := by
  refine ext_bit fun i hi => ?_
  rw [bit_zero]
  exact hg 0 0 0 (fun i _ _ => ⟨bit_zero i, bit_zero i⟩) i (Nat.zero_le i) hi

/-- **An operator that acts place by place keeps tails exactly if it makes a zero of two
zeros.** -/
theorem Pointwise.keepsTail_iff {g : Word → Word → Word} {f : Bool → Bool → Bool}
    (hg : Pointwise g f) : KeepsTail g ↔ f false false = false := by
  constructor
  · intro htail
    have hbit := hg 0 0 0 (by decide)
    rwa [htail.zero, bit_zero, eq_comm] at hbit
  · intro hzero
    exact (hg.keepsZeros hzero).keepsTail

theorem bit_shiftLeft_one (w : Word) {i : Nat} (h : i < 64) :
    bit (w <<< 1) i = (decide (i + 1 < 64) && bit w (i + 1)) := by
  have hshift : ((1 : UInt64).toBitVec % 64).toNat = 1 := rfl
  rw [bit_eq_getMsbD _ h, UInt64.toBitVec_shiftLeft, BitVec.shiftLeft_eq', hshift,
    BitVec.getMsbD_shiftLeft]
  by_cases hi : i + 1 < 64
  · rw [← bit_eq_getMsbD _ hi, decide_eq_true hi, Bool.true_and]
  · rw [BitVec.getMsbD_of_ge _ _ (by omega), decide_eq_false hi, Bool.false_and]

end Word

namespace WordOp

/-- The ones of either operand, each moved one place towards the first of its word. -/
def orForward : WordOp where
  combine v w := (v ||| w) <<< 1

/-- Ones that neither operand has. -/
def nor : WordOp where
  combine v w := ~~~(v ||| w)

/-- The standard operators keep zeros wherever they are. -/
theorem keepsTail_of_standard {op : WordOp} (h : op ∈ [and, or, xor, diff]) :
    Word.KeepsTail op.combine :=
  (keepsZeros_of_standard h).keepsTail

/-- A zero may become a one, and yet the zeros at the end of the word stay. -/
theorem keepsTail_orForward : Word.KeepsTail orForward.combine := by
  intro v w n hzeros i hn hi
  rw [orForward, Word.bit_shiftLeft_one _ hi]
  by_cases hnext : i + 1 < 64
  · obtain ⟨hv, hw⟩ := hzeros (i + 1) (by omega) hnext
    rw [Word.bit_or _ _ hnext, hv, hw, Bool.or_false, Bool.and_false]
  · rw [decide_eq_false hnext, Bool.false_and]

end WordOp

namespace Bitmap

variable {s t : Bitmap} {op : WordOp}

/-! ### The word of an index -/

/-- The word that holds the bit of index `i`, zero where there is no block for it. -/
def wordOf (s : Bitmap) (i : Nat) : Word := (s.word? (i / 1024) (i % 1024 / 64)).getD 0

theorem stored_eq_bit (s : Bitmap) (i : Nat) : s.stored i = Word.bit (s.wordOf i) (i % 64) := by
  have hplace : i % 1024 % 64 = i % 64 := by omega
  have hword : i % 1024 / 64 < 16 := by omega
  rw [stored, wordOf, word?]
  rcases s.blocks[i / 1024]? with _ | b
  · simp
  · simp [Block.contains, hword, hplace]

theorem wordOf_combine (op : WordOp) (s t : Bitmap) {i : Nat}
    (h : i / 1024 < max s.blocks.size t.blocks.size) :
    (combine op s t).wordOf i = op.combine (s.wordOf i) (t.wordOf i) := by
  rw [wordOf, word?_combine op s t h (by omega)]
  rfl

/-- In a canonical bitmap, the word of an index past the size is zeros from there on. -/
theorem Canonical.bit_wordOf (h : s.Canonical) {i j : Nat} (hi : s.size ≤ i) (hij : i % 64 ≤ j)
    (hj : j < 64) : Word.bit (s.wordOf i) j = false := by
  -- the index at place `j` of this word is no less than `i`
  have hblock : (i / 64 * 64 + j) / 1024 = i / 1024 := by omega
  have hword : (i / 64 * 64 + j) % 1024 / 64 = i % 1024 / 64 := by omega
  have hplace : (i / 64 * 64 + j) % 64 = j := by omega
  have hbit := stored_eq_bit s (i / 64 * 64 + j)
  rw [h.padding _ (by omega), wordOf, hblock, hword, hplace] at hbit
  exact hbit.symm

/-! ### The combination is canonical -/

theorem canonical_combine_of_keepsTail (hop : Word.KeepsTail op.combine) (hs : s.Canonical)
    (ht : t.Canonical) : (combine op s t).Canonical := by
  refine ⟨wellSized_combine op hs.wellSized ht.wellSized, ?_⟩
  intro i hi
  rw [size_combine] at hi
  rcases Nat.lt_or_ge (i / 1024) (max s.blocks.size t.blocks.size) with hlt | hge
  · -- the tail of the word that begins at this very index is zeros in both operands
    rw [stored_eq_bit, wordOf_combine op s t hlt]
    refine hop _ _ (i % 64) (fun j hj hj64 => ?_) _ (Nat.le_refl _) (Nat.mod_lt i (by decide))
    exact ⟨hs.bit_wordOf (by omega) hj hj64, ht.bit_wordOf (by omega) hj hj64⟩
  · have hblocks := size_blocks_combine op s t
    exact stored_of_le _ (by omega)

/-- The bitmap of the first `n` bits of a word, after sixty-four zeros. It ends at place
`n` of its second word, wherever this is. -/
def afterZeros (v : Word) (n : Nat) : Bitmap := ⟨#[⟨Block.empty.words.set 1 v⟩], 64 + n⟩

theorem wordOf_afterZeros (v : Word) (n i : Nat) :
    (afterZeros v n).wordOf i = if i / 64 = 1 then v else 0 := by
  rw [wordOf, word?, afterZeros]
  rcases Nat.lt_or_ge i 1024 with hi | hi
  · have hblock : i / 1024 = 0 := by omega
    have hword : i % 1024 / 64 = i / 64 := by omega
    have hlt : i / 64 < 16 := by omega
    by_cases h : i / 64 = 1
    · simp [hblock, hword, h]
    · simp [hblock, hword, h, hlt, Ne.symm h, Block.empty]
  · have hblock : i / 1024 ≠ 0 := by omega
    have hword : i / 64 ≠ 1 := by omega
    simp [hblock, hword]

theorem canonical_afterZeros {v : Word} {n : Nat} (hn : n ≤ 64)
    (hv : ∀ i, n ≤ i → i < 64 → Word.bit v i = false) : (afterZeros v n).Canonical := by
  constructor
  · rw [WellSized, blocksFor_eq]
    change 1 = (64 + n + 1023) / 1024
    omega
  · intro i hi
    change 64 + n ≤ i at hi
    rw [stored_eq_bit, wordOf_afterZeros]
    split
    · exact hv _ (by omega) (Nat.mod_lt i (by decide))
    · exact Word.bit_zero _

/-- **The combinations of canonical bitmaps are canonical exactly if the operator keeps
tails.** -/
theorem canonical_combine_iff (op : WordOp) :
    (∀ s t : Bitmap, s.Canonical → t.Canonical → (combine op s t).Canonical) ↔
      Word.KeepsTail op.combine := by
  constructor
  · intro hcanonical v w n hzeros i hn hi
    -- bitmaps that end where the tail begins, so that it is padding
    have hv : (afterZeros v n).Canonical :=
      canonical_afterZeros (by omega) fun j hj hj64 => (hzeros j hj hj64).1
    have hw : (afterZeros w n).Canonical :=
      canonical_afterZeros (by omega) fun j hj hj64 => (hzeros j hj hj64).2
    have hpast : (combine op (afterZeros v n) (afterZeros w n)).size ≤ 64 + i := by
      change max (64 + n) (64 + n) ≤ 64 + i
      omega
    have hblock :
        (64 + i) / 1024 < max (afterZeros v n).blocks.size (afterZeros w n).blocks.size := by
      change (64 + i) / 1024 < max 1 1
      omega
    have hword : (64 + i) / 64 = 1 := by omega
    have hplace : (64 + i) % 64 = i := by omega
    have hbit := (hcanonical _ _ hv hw).padding _ hpast
    rwa [stored_eq_bit, wordOf_combine op _ _ hblock, wordOf_afterZeros, wordOf_afterZeros,
      if_pos hword, if_pos hword, hplace] at hbit
  · intro hop s t hs ht
    exact canonical_combine_of_keepsTail hop hs ht

/-! ### The two counts -/

/-- There is nothing to count in the padding exactly if it is empty. -/
theorem paddingCount_eq_zero_iff (s : Bitmap) :
    s.paddingCount = 0 ↔ ∀ i, s.size ≤ i → s.stored i = false := by
  constructor
  · intro h i hi
    rw [paddingCount, List.length_eq_zero_iff, List.filter_eq_nil_iff] at h
    rcases Nat.lt_or_ge (i / 1024) s.blocks.size with hlt | hge
    · have hnot := h i (List.mem_range.2 (by omega))
      rwa [decide_eq_true hi, Bool.true_and, Bool.not_eq_true] at hnot
    · exact stored_of_le s hge
  · exact paddingCount_eq_zero

/-- **The count that builds nothing is the count of the combination exactly if this is
canonical.** -/
theorem combineCount_eq_count_iff (op : WordOp) (hs : s.WellSized) (ht : t.WellSized) :
    combineCount op s t = (combine op s t).count ↔ (combine op s t).Canonical := by
  rw [combineCount_eq_add, Nat.add_eq_left, paddingCount_eq_zero_iff]
  constructor
  · intro h
    exact ⟨wellSized_combine op hs ht, h⟩
  · intro h
    exact h.padding

/-- **When a combination may be counted without building it.** The combination of two
canonical bitmaps always has as many blocks as its size asks for. The count that builds
nothing exceeds its count by the ones past its size, so that the two are equal exactly if
the combination is canonical. Of all canonical bitmaps both hold exactly if the operator
keeps tails; for an operator that acts place by place this means that it makes a zero of
two zeros, and it is so for the four standard ones. -/
theorem combineCount_eq_count_iff_keepsTail (op : WordOp) :
    (∀ s t : Bitmap, s.Canonical → t.Canonical →
        (combine op s t).WellSized ∧
          combineCount op s t = (combine op s t).count + (combine op s t).paddingCount ∧
          (combineCount op s t = (combine op s t).count ↔ (combine op s t).Canonical)) ∧
      ((∀ s t : Bitmap, s.Canonical → t.Canonical →
          combineCount op s t = (combine op s t).count ∧ (combine op s t).Canonical) ↔
        Word.KeepsTail op.combine) ∧
      (∀ f, Word.Pointwise op.combine f →
        (Word.KeepsTail op.combine ↔ f false false = false)) ∧
      (op ∈ [WordOp.and, .or, .xor, .diff] → Word.KeepsTail op.combine) := by
  refine ⟨?_, ?_, fun f hf => hf.keepsTail_iff, WordOp.keepsTail_of_standard⟩
  · intro s t hs ht
    exact ⟨wellSized_combine op hs.wellSized ht.wellSized, combineCount_eq_add op s t,
      combineCount_eq_count_iff op hs.wellSized ht.wellSized⟩
  · rw [← canonical_combine_iff]
    constructor
    · intro h s t hs ht
      exact (h s t hs ht).2
    · intro h s t hs ht
      have hcanonical := h s t hs ht
      exact ⟨(combineCount_eq_count_iff op hs.wellSized ht.wellSized).2 hcanonical, hcanonical⟩

/-- Both hold of an operator that turns zeros into ones. Here it moves the one of index
1029 to index 1028 and leaves nothing past the size of 1030. -/
theorem combineCount_eq_count_of_orForward :
    ∃ s t : Bitmap, s = (zeros 1030).insert 1029 ∧ t = zeros 3 ∧
      combineCount .orForward s t = (combine .orForward s t).count ∧
      (combine .orForward s t).Canonical ∧ (combine .orForward s t).contains 1028 = true ∧
      s.contains 1028 = false ∧ t.contains 1028 = false := by
  have hs : ((zeros 1030).insert 1029).Canonical := (canonical_zeros 1030).insert 1029
  obtain ⟨-, hlaw, -⟩ := combineCount_eq_count_iff_keepsTail .orForward
  obtain ⟨hcount, hcanonical⟩ := hlaw.2 WordOp.keepsTail_orForward _ _ hs (canonical_zeros 3)
  exact ⟨_, _, rfl, rfl, hcount, hcanonical, by decide +kernel, by decide +kernel,
    by decide +kernel⟩

/-- **The law fails for the complement of a union.** Over two bitmaps that cover index `0`
alone and lack it, the combination has it as its one member; the other 1023 places of its
block hold ones as well, and these are counted too. -/
theorem combineCount_ne_count_of_nor :
    (zeros 1).Canonical ∧ combineCount .nor (zeros 1) (zeros 1) = 1024 ∧
      (combine .nor (zeros 1) (zeros 1)).count = 1 ∧
      ¬ (combine .nor (zeros 1) (zeros 1)).Canonical ∧
      ¬ ∀ (op : WordOp) (s t : Bitmap), s.Canonical → t.Canonical →
        combineCount op s t = (combine op s t).count ∧ (combine op s t).Canonical := by
  have hall : combineCount .nor (zeros 1) (zeros 1) = 1024 := by decide +kernel
  have hbelow : (combine .nor (zeros 1) (zeros 1)).count = 1 := by decide +kernel
  refine ⟨canonical_zeros 1, hall, hbelow, ?_, ?_⟩
  · intro h
    have heq := (combineCount_eq_count_iff .nor (wellSized_zeros 1) (wellSized_zeros 1)).2 h
    omega
  · intro h
    have heq := (h .nor _ _ (canonical_zeros 1) (canonical_zeros 1)).1
    omega

end Bitmap

end FacetIndex
