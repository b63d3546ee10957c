import FacetIndex.Layout
import FacetIndex.Word.Basic

/-!
# Splitting a size over blocks

A size is split over blocks by one division that rounds up and, for each block, a difference
that stops at zero and a minimum. All that there is to know of the split follows from when a
block is needed at all: the bitmap has to reach into it
(`FacetIndex.blocksFor_le_iff`, `FacetIndex.activeLength_pos_iff`). Hence the number of
blocks is the least that is enough, all blocks but the last are whole, and the parts add up,
for as many blocks as one likes (`FacetIndex.total_activeLength`).

Sizes are numbers here, and numbers have no end. Where they are kept in words of sixty-four
bits, a result that does not fit comes out as its remainder, so that the same formulas
(`FacetIndex.Word.blocksFor`, `FacetIndex.Word.activeLength`) could go wrong. They do not, for
any size that a word can hold and any block of the bitmap:

| value, for a block `k` of the bitmap | at most | fits a word |
|---|---|---|
| the number of blocks | `2 ^ 54` | always |
| the start of the block, `k * 1024` | one less than the size | always |
| the end of the block, `(k + 1) * 1024` | `2 ^ 64` | not for the last block of the largest sizes |

The end of a block does not come into the formulas. The product that they do take wraps around
only for a block that starts past every bitmap.
-/

namespace FacetIndex

variable {s k : Nat}

/-! ### The blocks of a size -/

/-- **So many blocks are enough if they have room for all the bits.** -/
theorem blocksFor_le_iff (s n : Nat) : blocksFor s ≤ n ↔ s ≤ 1024 * n := by
  rw [← Nat.not_lt, div_lt_blocksFor_iff, Nat.not_lt, Nat.mul_comm]

/-- There is room for all the bits. -/
theorem le_mul_blocksFor (s : Nat) : s ≤ 1024 * blocksFor s :=
  (blocksFor_le_iff s _).1 (Nat.le_refl _)

/-- One block less would not be enough. -/
theorem mul_pred_blocksFor_lt (hs : 0 < s) : 1024 * (blocksFor s - 1) < s := by
  have hpos : 0 < blocksFor s := (div_lt_blocksFor_iff s 0).2 (by omega)
  have hfew : ¬ blocksFor s ≤ blocksFor s - 1 := by omega
  rwa [blocksFor_le_iff, Nat.not_le] at hfew

/-- **The blocks of a bitmap are those with a bit that belongs to it.** -/
theorem activeLength_pos_iff (s k : Nat) : 0 < activeLength s k ↔ k < blocksFor s := by
  rw [div_lt_blocksFor_iff]
  simp only [activeLength]
  omega

/-- A block that is followed by another one is whole. -/
theorem activeLength_of_lt_pred (hk : k < blocksFor s - 1) : activeLength s k = 1024 := by
  have hnext : (k + 1) * 1024 < s := (div_lt_blocksFor_iff s (k + 1)).1 (by omega)
  exact activeLength_eq (Nat.le_of_lt hnext)

/-- **The first `m` blocks hold the first `1024 * m` bits**, or all there are. -/
theorem total_activeLength (s m : Nat) :
    total ((List.range m).map (activeLength s)) = min s (1024 * m) := by
  induction m with
  | zero => exact (Nat.min_eq_right (Nat.zero_le s)).symm
  | succ m ih =>
    rw [List.range_succ, List.map_append, total_append, ih, List.map_singleton, total_cons,
      total_nil, Nat.add_zero]
    simp only [activeLength]
    omega

/-- The blocks of a bitmap hold all its bits. -/
theorem total_activeLength_blocksFor (s : Nat) :
    total ((List.range (blocksFor s)).map (activeLength s)) = s := by
  rw [total_activeLength, Nat.min_eq_left (le_mul_blocksFor s)]

/-! ### The same in words -/

namespace Word

/-- How many blocks hold `size` bits, found with the operations of words. -/
def blocksFor (size : Word) : Word := size / 1024 + if size % 1024 = 0 then 0 else 1

/-- The difference of two words, or zero if the second is the greater one. -/
def truncatedSub (v w : Word) : Word := if w ≤ v then v - w else 0

/-- How many bits of block `k` belong to a bitmap of `size` bits, found with the operations of
words. The product is a remainder if it does not fit. -/
def activeLength (size k : Word) : Word := min (truncatedSub size (k * 1024)) 1024

/-- Numbers up to the largest index can be written as words. -/
theorem toNat_ofNat {n : Nat} (hn : n ≤ maxIndex) : (UInt64.ofNat n).toNat = n :=
  UInt64.toNat_ofNat_of_lt' (Nat.lt_succ_of_le hn)

theorem toNat_truncatedSub (v w : Word) : (truncatedSub v w).toNat = v.toNat - w.toNat := by
  unfold truncatedSub
  split
  · next hle => exact UInt64.toNat_sub_of_le v w hle
  · next hlt =>
    rw [UInt64.le_iff_toNat_le, Nat.not_le] at hlt
    exact (Nat.sub_eq_zero_of_le (Nat.le_of_lt hlt)).symm

theorem toNat_min (v w : Word) : (min v w).toNat = min v.toNat w.toNat := by
  rw [Nat.min_def]
  exact apply_ite UInt64.toNat (v ≤ w) v w

/-- Rounding up goes to the next quotient, and the quotients are far from the largest word. -/
theorem toNat_blocksFor (v : Word) : (blocksFor v).toNat = FacetIndex.blocksFor v.toNat := by
  have hsize := v.toNat_lt
  have hrest : v % 1024 = 0 ↔ v.toNat % 1024 = 0 := by
    rw [← UInt64.toNat_inj, UInt64.toNat_mod]
    rfl
  have hround :
      (if v % 1024 = 0 then 0 else 1 : Word).toNat = if v.toNat % 1024 = 0 then 0 else 1 := by
    simp only [hrest]
    exact apply_ite UInt64.toNat _ _ _
  have hdiv : (v / 1024).toNat = v.toNat / 1024 := UInt64.toNat_div v 1024
  rw [blocksFor, UInt64.toNat_add, hround, hdiv, FacetIndex.blocksFor]
  refine Nat.mod_eq_of_lt ?_
  split <;> omega

/-- **The start of a block that a bitmap reaches into can be written as a word.** -/
theorem toNat_blockStart (hs : s ≤ maxIndex) (hk : k < FacetIndex.blocksFor s) :
    (UInt64.ofNat k * 1024).toNat = k * 1024 := by
  have hstart : k * 1024 < s := (div_lt_blocksFor_iff s k).1 hk
  have hfits : k * 1024 < 2 ^ 64 := Nat.lt_of_lt_of_le hstart (Nat.le_succ_of_le hs)
  have hblock : (UInt64.ofNat k).toNat = k := toNat_ofNat (by omega)
  rw [UInt64.toNat_mul, hblock]
  exact Nat.mod_eq_of_lt hfits

theorem toNat_activeLength (hs : s ≤ maxIndex) (hk : k < FacetIndex.blocksFor s) :
    (activeLength (.ofNat s) (.ofNat k)).toNat = FacetIndex.activeLength s k := by
  rw [activeLength, toNat_min, toNat_truncatedSub, toNat_ofNat hs, toNat_blockStart hs hk,
    FacetIndex.activeLength]
  rfl

end Word

/-! ### The split of a size -/

/-- **How a size is split over blocks, for every size that can be written.** The words give the
numbers: so many blocks, and for each of them the start, which does not wrap around, and the
active length. The blocks are as many as it takes and no more. All of them but the last are
whole, the last has at least one bit, and together they have all the bits. An index finds its
block, and a place among the active ones of the block, exactly if it is below the size. A
larger size has no fewer blocks, so that the larger of two sizes has the larger of the two
numbers. -/
theorem splitting_of_size (hs : s ≤ maxIndex) :
    ∃ n, n = blocksFor s ∧ (Word.blocksFor (.ofNat s)).toNat = n ∧
      (0 < s → s ≤ 1024 * n ∧ 1024 * (n - 1) < s) ∧ (s = 0 → n = 0) ∧
      (∀ k, k < n →
        k * 1024 ≤ maxIndex ∧ (UInt64.ofNat k * 1024).toNat = k * 1024 ∧
        (Word.activeLength (.ofNat s) (.ofNat k)).toNat = activeLength s k ∧
        (k < n - 1 → activeLength s k = 1024) ∧
        (k = n - 1 → 1 ≤ activeLength s k ∧ activeLength s k ≤ 1024)) ∧
      total ((List.range n).map (activeLength s)) = s ∧
      (∀ i, i < s → i / 1024 < n ∧ i % 1024 < activeLength s (i / 1024)) ∧
      (∀ i, s ≤ i → i / 1024 < n → ¬ i % 1024 < activeLength s (i / 1024)) ∧
      (∀ t, s ≤ t → n ≤ blocksFor t) ∧
      ∀ t, blocksFor (max s t) = max n (blocksFor t) := by
  refine ⟨blocksFor s, rfl, ?_, fun hpos => ⟨le_mul_blocksFor s, mul_pred_blocksFor_lt hpos⟩,
    ?_, ?_, total_activeLength_blocksFor s, ?_, ?_, fun t hst => blocksFor_mono hst,
    blocksFor_max s⟩
  · rw [Word.toNat_blocksFor, Word.toNat_ofNat hs]
  · rintro rfl
    exact blocksFor_zero
  · intro k hk
    have hstart : k * 1024 < s := (div_lt_blocksFor_iff s k).1 hk
    exact ⟨by omega, Word.toNat_blockStart hs hk, Word.toNat_activeLength hs hk,
      activeLength_of_lt_pred, fun _ => ⟨(activeLength_pos_iff s k).2 hk, activeLength_le s k⟩⟩
  · intro i hi
    have hplace := (mod_lt_activeLength_iff s i).2 hi
    exact ⟨(activeLength_pos_iff s _).1 (Nat.zero_lt_of_lt hplace), hplace⟩
  · intro i hi _
    rw [mod_lt_activeLength_iff]
    exact Nat.not_lt.2 hi

/-- The largest size that can be written. Its last block lacks one bit, starts at the last
multiple of 1024 that fits, and ends where the product comes out as zero. -/
theorem splitting_of_size_largest :
    ∃ n k, n = 18014398509481984 ∧ k = 18014398509481983 ∧ maxIndex ≤ maxIndex ∧
      (Word.blocksFor (.ofNat maxIndex)).toNat = n ∧ 0 < maxIndex ∧ k < n ∧ k = n - 1 ∧
      maxIndex ≤ 1024 * n ∧ 1024 * (n - 1) < maxIndex ∧
      (UInt64.ofNat k * 1024).toNat = k * 1024 ∧ (UInt64.ofNat (k + 1) * 1024).toNat = 0 ∧
      activeLength maxIndex k = 1023 ∧
      (Word.activeLength (.ofNat maxIndex) (.ofNat k)).toNat = 1023 ∧
      activeLength maxIndex (k - 1) = 1024 ∧
      total ((List.range n).map (activeLength maxIndex)) = maxIndex ∧
      (maxIndex - 1) % 1024 < activeLength maxIndex ((maxIndex - 1) / 1024) ∧
      ¬ maxIndex % 1024 < activeLength maxIndex (maxIndex / 1024) := by
  obtain ⟨n, hn, hwords, hbounds, -, hblocks, htotal, hbelow, hpast, -, -⟩ :=
    splitting_of_size (Nat.le_refl maxIndex)
  obtain rfl : n = 18014398509481984 := hn
  obtain ⟨-, hstart, hactive, -, -⟩ := hblocks 18014398509481983 (by decide)
  obtain ⟨-, -, -, hwhole, -⟩ := hblocks 18014398509481982 (by decide)
  obtain ⟨hroom, hfew⟩ := hbounds (by decide)
  have hlast : activeLength maxIndex 18014398509481983 = 1023 := by decide
  exact ⟨_, _, rfl, rfl, Nat.le_refl _, hwords, by decide, by decide, by decide, hroom, hfew,
    hstart, by decide, hlast, hlast ▸ hactive, hwhole (by decide), htotal, (hbelow _ (by decide)).2,
    hpast _ (Nat.le_refl _) (by decide)⟩

end FacetIndex
