import FacetIndex.Block.Basic
import FacetIndex.Word.Run

/-!
# The bits of a block

What each operation on blocks does at one place, in terms of
`FacetIndex.Block.contains`. The places determine the block
(`FacetIndex.Block.ext_contains`), and the counts are numbers of places
(`FacetIndex.Block.count_eq_length`), so nothing else need be known of the words.
-/

namespace FacetIndex.Block

theorem contains_eq_runBit (b : Block) (i : Nat) : b.contains i = Word.runBit b.words.toList i := by
  simp [contains, Word.runBit]

theorem contains_eq_bit (b : Block) {i : Nat} (h : i < 1024) :
    b.contains i = (b.words[i / 64]).bit (i % 64) := by
  simp [contains, Vector.getElem?_eq_getElem (show i / 64 < 16 by omega)]

/-- There is no one past the last place. -/
theorem contains_of_le (b : Block) {i : Nat} (h : 1024 ≤ i) : b.contains i = false := by
  rw [contains, Vector.getElem?_eq_none (by omega)]
  rfl

/-- Place `i` of word `j` is place `64 * j + i` of the block. -/
theorem contains_of_word (b : Block) {i j : Nat} (hj : j < 16) (hi : i < 64) :
    b.contains (64 * j + i) = b.words[j].bit i := by
  have hd : (64 * j + i) / 64 = j := by omega
  have hm : (64 * j + i) % 64 = i := by omega
  rw [contains_eq_bit b (by omega)]
  simp only [hd, hm]

/-- The places determine the block. -/
theorem ext_contains {a b : Block} (h : ∀ i, i < 1024 → a.contains i = b.contains i) : a = b := by
  obtain ⟨v⟩ := a
  obtain ⟨w⟩ := b
  congr 1
  apply Vector.ext
  intro j hj
  apply Word.ext_bit
  intro i hi
  have hbit := h (64 * j + i) (by omega)
  rwa [contains_of_word _ hj hi, contains_of_word _ hj hi] at hbit

@[simp] theorem contains_empty (i : Nat) : empty.contains i = false := by
  unfold contains empty
  by_cases h : i / 64 < 16 <;> simp [h]

/-! ### One bit -/

theorem contains_mapWord (b : Block) {f : Word → Word} {i j : Nat} (hi : i < 16) (hj : j < 1024) :
    (b.mapWord i f).contains j =
      if j / 64 = i then (f b.words[i]).bit (j % 64) else b.contains j := by
  rw [contains_eq_bit _ hj, contains_eq_bit _ hj, mapWord, dif_pos hi]
  simp only [Vector.getElem_set]
  grind

/-- **Writing the bit `v` at one place of one word** writes it at one place of the block and
nowhere else. -/
theorem contains_mapWord_of_place (b : Block) {f : Word → Word} {i : Nat} {v : Bool} (hi : i < 1024)
    (hf : ∀ w k, k < 64 → (f w).bit k = if k = i % 64 then v else w.bit k) (j : Nat) :
    (b.mapWord (i / 64) f).contains j = if j = i then v else b.contains j := by
  rcases Nat.lt_or_ge j 1024 with hj | hj
  · rw [contains_mapWord _ (by omega) hj]
    split
    · next h =>
      have hplace : j % 64 = i % 64 ↔ j = i := ⟨Nat.ext_div_mod h, congrArg (· % 64)⟩
      rw [hf _ _ (Nat.mod_lt j (by decide)), contains_eq_bit b hj]
      simp only [h, hplace]
    · next h => rw [if_neg fun he => h (by rw [he])]
  · rw [contains_of_le _ hj, contains_of_le _ hj, if_neg (by omega)]

theorem put_true (b : Block) (i : Nat) : b.put i true = (!b.contains i, b.insert i) := by
  rw [put, Bool.bne_true, if_pos rfl]

theorem put_false (b : Block) (i : Nat) : b.put i false = (b.contains i, b.erase i) := by
  rw [put, Bool.bne_false, if_neg Bool.false_ne_true]

/-- **A bit is found where it was written**, and all others are as they were. -/
theorem contains_put (b : Block) {i : Nat} (hi : i < 1024) (one : Bool) (j : Nat) :
    (b.put i one).2.contains j = if j = i then one else b.contains j := by
  have hplace : i % 64 < 64 := Nat.mod_lt i (by decide)
  cases one with
  | false =>
    rw [put_false]
    refine contains_mapWord_of_place b hi (fun w k hk => ?_) j
    rw [Word.bit_without w hplace hk]
    by_cases h : k = i % 64 <;> simp [h]
  | true =>
    rw [put_true]
    refine contains_mapWord_of_place b hi (fun w k hk => ?_) j
    rw [Word.bit_or w _ hk, Word.bit_mask hplace hk]
    by_cases h : k = i % 64 <;> simp [h]

/-! ### Two blocks -/

theorem contains_combine {g : Word → Word → Word} {f : Bool → Bool → Bool} (hg : Word.Pointwise g f)
    (a b : Block) {i : Nat} (h : i < 1024) :
    (combine g a b).contains i = f (a.contains i) (b.contains i) := by
  rw [contains_eq_bit _ h, contains_eq_bit _ h, contains_eq_bit _ h, combine,
    Vector.getElem_zipWith]
  exact hg _ _ _ (Nat.mod_lt i (by decide))

/-- The count that builds nothing is the count of what would have been built. -/
theorem combineCount_eq (g : Word → Word → Word) (a b : Block) :
    combineCount g a b = (combine g a b).countAll := by
  simp [combineCount, combine, countAll, Vector.toList_zipWith, List.map_zipWith]

/-! ### The first bits of a block -/

theorem contains_below {n : Nat} (hn : n ≤ 1024) (i : Nat) :
    (below n).contains i = decide (i < n) := by
  rcases Nat.lt_or_ge i 1024 with h | h
  · rw [contains_eq_bit _ h, below, Vector.getElem_ofFn,
      Word.bit_leading (Nat.min_le_right ..) (Nat.mod_lt i (by decide)), decide_eq_decide]
    simp only
    omega
  · rw [contains_of_le _ h]
    simp
    omega

theorem pointwise_complement :
    Word.Pointwise (fun w m => ~~~w &&& m) (fun a b => !a && b) :=
  fun v w i h => by simp [Word.bit_and _ w h, Word.bit_not v h]

theorem contains_complement (b : Block) {n : Nat} (hn : n ≤ 1024) (i : Nat) :
    (b.complement n).contains i = (decide (i < n) && !b.contains i) := by
  rcases Nat.lt_or_ge i 1024 with h | h
  · rw [complement, contains_combine pointwise_complement _ _ h, contains_below hn, Bool.and_comm]
  · rw [contains_of_le _ h]
    simp
    omega

theorem contains_complementAll (b : Block) {i : Nat} (h : i < 1024) :
    b.complementAll.contains i = !b.contains i := by
  rw [contains_eq_bit _ h, contains_eq_bit _ h, complementAll, Vector.getElem_map]
  exact Word.bit_not _ (Nat.mod_lt i (by decide))

/-! ### Counting -/

/-- The places of the ones of a block, in ascending order. -/
theorem runIndexes_words (b : Block) :
    Word.runIndexes b.words.toList = (List.range 1024).filter b.contains := by
  rw [Word.runIndexes, Vector.length_toList]
  exact List.filter_congr fun i _ => (contains_eq_runBit b i).symm

theorem countAll_eq_length (b : Block) :
    b.countAll = ((List.range 1024).filter b.contains).length := by
  rw [countAll, Word.total_count_eq_length, runIndexes_words]

/-- Restricting a range to the numbers below `n` cuts it off there. -/
theorem filter_range_of_le (p : Nat → Bool) {n m : Nat} (h : n ≤ m) :
    (List.range m).filter (fun i => p i && decide (i < n)) = (List.range n).filter p := by
  obtain ⟨k, rfl⟩ := Nat.exists_eq_add_of_le h
  have hrest : ((List.range k).map (n + ·)).filter (fun i => p i && decide (i < n)) = [] := by
    simp [List.filter_map]
  rw [List.range_add, List.filter_append, hrest, List.append_nil]
  exact List.filter_congr fun i hi => by simp [List.mem_range.mp hi]

theorem count_eq_length (b : Block) {n : Nat} (hn : n ≤ 1024) :
    b.count n = ((List.range n).filter b.contains).length := by
  have hbits : (List.range 1024).filter (combine (· &&& ·) b (below n)).contains =
      (List.range 1024).filter fun i => b.contains i && decide (i < n) :=
    List.filter_congr fun i hi => by
      rw [contains_combine Word.pointwise_and _ _ (List.mem_range.mp hi), contains_below hn]
  rw [count, combineCount_eq, countAll_eq_length, hbits, filter_range_of_le _ hn]

theorem isEmpty_iff (b : Block) : b.isEmpty = true ↔ b = empty := by
  obtain ⟨ws⟩ := b
  rw [isEmpty, Vector.all_eq_true, empty, Block.mk.injEq]
  constructor
  · intro h
    apply Vector.ext
    intro i hi
    simpa using h i hi
  · rintro rfl i hi
    simp

end FacetIndex.Block
