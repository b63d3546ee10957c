import FacetIndex.Cursor.Reading
import Mathlib.Data.Nat.Count

/-!
# The first bits of a block

Four operations of a block are about its first `n` bits, the active ones, and treat the rest
as if it were not there. Word by word this comes in three parts: the words that lie wholly
below place `n`, the word of place `n` of which the first `n % 64` bits are active, and the
words after it.

| operation | words below | the word of place `n` | words after it |
|---|---|---|---|
| complementing | the complement | the complement, marked off | zero |
| filling | ones | ones, marked off | zero |
| counting | counted | counted, marked off | not counted |
| clearing | zero | zero | zero |

A block that came about like this is `FacetIndex.Block.CutAfter`. Marking off every word by
as many places as are left for it comes to the same
(`FacetIndex.Word.and_leading_cut`), be `n` in the midst of a word, at the start of one, where
nothing is kept of it, or at the end of the block, where there is no such word.

Bit by bit there is only one question, whether a place is below `n`, and the laws follow from
this: a block and its complement share the active places between them
(`FacetIndex.Block.countAll_complement`), complementing twice takes away what is not active
(`FacetIndex.Block.contains_complement_complement`), and the more places are active, the more
are counted (`FacetIndex.Block.count_le_count`).

No more than 1024 places can be active. An operation that is asked for more is refused, and
the block is left as it was (`FacetIndex.Block.attempt`).
-/

namespace FacetIndex

namespace Word

/-- Marking off all places changes nothing. -/
theorem and_leading_all (w : Word) : w &&& leading 64 = w := by
  refine ext_bit fun i hi => ?_
  rw [bit_and _ _ hi, bit_leading (Nat.le_refl 64) hi, decide_eq_true hi, Bool.and_true]

/-- **Marking off the first `n` bits of a run of words**, in its word `j`: a word before
that of place `n` is kept as a whole, that word in part, and nothing is kept of the words
after it. -/
theorem and_leading_cut (w : Word) (n j : Nat) :
    w &&& leading (min (n - 64 * j) 64) =
      if j < n / 64 then w else if j = n / 64 then w &&& leading (n % 64) else 0 := by
  rcases Nat.lt_trichotomy j (n / 64) with hlt | heq | hgt
  · have hactive : min (n - 64 * j) 64 = 64 := by omega
    rw [hactive, if_pos hlt, and_leading_all]
  · have hactive : min (n - 64 * j) 64 = n % 64 := by omega
    rw [hactive, if_neg (Nat.not_lt.2 heq.ge), if_pos heq]
  · have hactive : min (n - 64 * j) 64 = 0 := by omega
    rw [hactive, if_neg (Nat.not_lt.2 hgt.le), if_neg hgt.ne']
    exact UInt64.and_zero

/-- To count the marked places is to count the first ones. -/
theorem count_and_leading (w : Word) {n : Nat} (hn : n ≤ 64) :
    (w &&& leading n).count = countBelow w n := by
  have hbits : (List.range 64).filter (bit (w &&& leading n)) =
      (List.range 64).filter fun i => bit w i && decide (i < n) :=
    List.filter_congr fun i hi => by
      have hi := List.mem_range.1 hi
      rw [bit_and _ _ hi, bit_leading hn hi]
  rw [count_eq_length, hbits, Block.filter_range_of_le _ hn, countBelow_eq_length]

end Word

namespace Block

variable {b : Block} {m n : Nat}

/-! ### Word by word -/

/-- **The block is cut off after `n` places**: up to the word of place `n` it has the words
`g`, of the one at that place the first bits only, and then zeros. For `n = 1024` there is no
word in part. -/
def CutAfter (b : Block) (n : Nat) (g : Fin 16 → Word) : Prop :=
  ∀ j : Fin 16, b.words[j.val] =
    if j.val < n / 64 then g j
    else if j.val = n / 64 then g j &&& Word.leading (n % 64)
    else 0

/-- Filling writes ones, a part of a word of ones, and zeros. -/
theorem cutAfter_below (n : Nat) : (below n).CutAfter n fun _ => Word.ones := by
  intro j
  have hword : (below n).words[j.val] = Word.ones &&& Word.leading (min (n - 64 * j.val) 64) := by
    rw [below, Vector.getElem_ofFn]
    exact UInt64.neg_one_and.symm
  rw [hword, Word.and_leading_cut]

/-- Complementing writes complements, a part of one, and zeros. -/
theorem cutAfter_complement (b : Block) (n : Nat) :
    (b.complement n).CutAfter n fun j => ~~~b.words[j.val] := by
  intro j
  have hword : (b.complement n).words[j.val] =
      ~~~b.words[j.val] &&& Word.leading (min (n - 64 * j.val) 64) := by
    rw [complement, combine, Vector.getElem_zipWith, below, Vector.getElem_ofFn]
  rw [hword, Word.and_leading_cut]

/-- The bits of the words below place `n` are those of the run that these words make. -/
theorem filter_contains_whole (b : Block) (hn : n ≤ 1024) :
    (List.range (64 * (n / 64))).filter b.contains =
      Word.runIndexes (b.words.toList.take (n / 64)) := by
  have hlength : (b.words.toList.take (n / 64)).length = n / 64 := by
    rw [List.length_take, Vector.length_toList]
    omega
  rw [Word.runIndexes, hlength]
  refine List.filter_congr fun i hi => ?_
  have hi := List.mem_range.1 hi
  rw [contains_eq_runBit, Word.runBit, Word.runBit, List.getElem?_take_of_lt (by omega)]

/-- The bits from the start of the word of place `n` on are the marked ones of that word. -/
theorem length_filter_contains_part (b : Block) (hn : n ≤ 1024) :
    ((List.range (n % 64)).filter fun i => b.contains (64 * (n / 64) + i)).length =
      b.words[n / 64]?.elim 0 fun w => (w &&& Word.leading (n % 64)).count := by
  have hmod : n % 64 < 64 := Nat.mod_lt n (by decide)
  rcases Nat.lt_or_ge (n / 64) 16 with hlt | hge
  · rw [Vector.getElem?_eq_getElem hlt, Option.elim_some, Word.count_and_leading _ hmod.le,
      Word.countBelow_eq_length]
    refine congrArg List.length (List.filter_congr fun i hi => ?_)
    have hi := List.mem_range.1 hi
    exact contains_of_word b hlt (by omega)
  · -- all sixteen words are whole
    have hnone : n % 64 = 0 := by omega
    rw [Vector.getElem?_eq_none hge, hnone]
    rfl

/-- **Counting adds up whole words and a part of one.** -/
theorem count_eq_add (b : Block) (hn : n ≤ 1024) :
    b.count n = total ((b.words.toList.take (n / 64)).map Word.count) +
      b.words[n / 64]?.elim 0 fun w => (w &&& Word.leading (n % 64)).count := by
  have hrange : List.range n =
      List.range (64 * (n / 64)) ++ (List.range (n % 64)).map (64 * (n / 64) + ·) := by
    rw [← List.range_add, Nat.div_add_mod]
  rw [count_eq_length b hn, hrange, List.filter_append, List.length_append,
    filter_contains_whole b hn, ← Word.total_count_eq_length, List.filter_map, List.length_map,
    ← length_filter_contains_part b hn]
  rfl

/-! ### Bit by bit -/

theorem count_eq_natCount (b : Block) (hn : n ≤ 1024) :
    b.count n = Nat.count (fun i => b.contains i = true) n := by
  rw [count_eq_length b hn, Nat.count, List.countP_eq_length_filter]
  simp only [Bool.decide_eq_true]

theorem count_le (b : Block) (hn : n ≤ 1024) : b.count n ≤ n := by
  rw [count_eq_natCount b hn]
  exact Nat.count_le _

theorem count_eq_countP_toList (b : Block) (hn : n ≤ 1024) :
    b.count n = b.toList.countP fun i => decide (i < n) := by
  rw [count_eq_length b hn, toList_eq, List.countP_eq_length_filter, List.filter_filter,
    ← filter_range_of_le _ hn]
  simp only [Bool.and_comm]

theorem count_le_count (b : Block) (hmn : m ≤ n) (hn : n ≤ 1024) : b.count m ≤ b.count n := by
  rw [count_eq_natCount b (hmn.trans hn), count_eq_natCount b hn]
  exact Nat.count_monotone _ hmn

/-- **Each of the first `n` places has a one, in the block or in its complement.** -/
theorem countAll_complement (b : Block) (hn : n ≤ 1024) :
    (b.complement n).countAll = n - b.count n := by
  have hbits : (List.range 1024).filter (b.complement n).contains =
      (List.range 1024).filter fun i => !b.contains i && decide (i < n) :=
    List.filter_congr fun i _ => by rw [contains_complement b hn, Bool.and_comm]
  have hsplit := List.length_eq_length_filter_add (l := List.range n) b.contains
  rw [List.length_range] at hsplit
  rw [countAll_eq_length, hbits, filter_range_of_le _ hn, count_eq_length b hn]
  omega

/-- Complementing twice leaves the first `n` places as they were, and nothing after them. -/
theorem contains_complement_complement (b : Block) (hn : n ≤ 1024) (i : Nat) :
    ((b.complement n).complement n).contains i = (b.contains i && decide (i < n)) := by
  rw [contains_complement _ hn, contains_complement _ hn]
  cases decide (i < n) <;> simp

theorem complementAll_eq (b : Block) : b.complementAll = b.complement 1024 := by
  refine ext_contains fun i hi => ?_
  rw [contains_complementAll b hi, contains_complement b (Nat.le_refl _), decide_eq_true hi,
    Bool.true_and]

theorem countAll_eq (b : Block) : b.countAll = b.count 1024 := by
  rw [countAll_eq_length, count_eq_length b (Nat.le_refl _)]

/-! ### Changes in place -/

/-- Something that is done to a block in place. -/
inductive Edit where
  /-- Puts a one at a place. -/
  | set (i : Nat)
  /-- Puts a zero at a place. -/
  | unset (i : Nat)
  /-- Puts ones at the first places and zeros at the others. -/
  | fill (n : Nat)
  /-- Puts zeros at all places; the length is only checked. -/
  | clear (n : Nat)
  deriving DecidableEq, Repr

/-- The block after a change in place, which may be refused. -/
def edit? (b : Block) : Edit → Except Error Block
  | .set i => b.set? i
  | .unset i => b.unset? i
  | .fill n => b.fill? n
  | .clear n => b.clear? n

/-- Goes on with the block that was made, or with the one before the refusal. -/
def attempt (b : Block) (e : Edit) : Except Error Unit × Block :=
  match b.edit? e with
  | .ok c => (.ok (), c)
  | .error cause => (.error cause, b)

theorem attempt_of_ok {c : Block} {e : Edit} (h : b.edit? e = .ok c) :
    b.attempt e = (.ok (), c) := by
  rw [attempt, h]

/-- **A change that is refused leaves the block as it was.** -/
theorem attempt_of_error {e : Edit} {cause : Error} (h : b.edit? e = .error cause) :
    b.attempt e = (.error cause, b) := by
  rw [attempt, h]

/-! ### Lengths in range and out of range -/

theorem checkLength_of_le (hn : n ≤ 1024) : checkLength n = .ok () := if_pos hn

theorem checkLength_of_lt (hn : 1024 < n) : checkLength n = .error (.indexOutOfRange n 1024) :=
  if_neg (Nat.not_le.2 hn)

theorem complement?_of_le (b : Block) (hn : n ≤ 1024) : b.complement? n = .ok (b.complement n) := by
  rw [complement?, checkLength_of_le hn]
  rfl

theorem count?_of_le (b : Block) (hn : n ≤ 1024) : b.count? n = .ok (b.count n) := by
  rw [count?, checkLength_of_le hn]
  rfl

theorem fill?_of_le (b : Block) (hn : n ≤ 1024) : b.fill? n = .ok (below n) := by
  rw [fill?, checkLength_of_le hn]
  rfl

theorem clear?_of_le (b : Block) (hn : n ≤ 1024) : b.clear? n = .ok empty := by
  rw [clear?, checkLength_of_le hn]
  rfl

/-- **Whatever is asked of more places than there are is refused**, with the length that was
asked for and the one that there is. -/
theorem refused_of_lt (b : Block) (hn : 1024 < n) :
    b.complement? n = .error (.indexOutOfRange n 1024) ∧
      b.count? n = .error (.indexOutOfRange n 1024) ∧
      b.fill? n = .error (.indexOutOfRange n 1024) ∧
      b.clear? n = .error (.indexOutOfRange n 1024) := by
  rw [complement?, count?, fill?, clear?, checkLength_of_lt hn]
  exact ⟨rfl, rfl, rfl, rfl⟩

/-! ### All operations -/

/-- **What the operations do that are about the first `n` bits of a block.** If there are as
many, complementing leaves ones at the places among them that had none; counting gives the
number of those that have one, which is how many members of the list are below `n`; filling
leaves ones at just these places, and clearing the zero block. Word by word, complementing
and filling write whole words, a part of one, and zeros, and counting adds up whole words and
a part of one. The complement has as many ones as the count leaves over, complementing it
again brings back the first `n` bits alone, and fewer places have no larger a count. The
operations on all bits are those on the first 1024. If there are not as many, each of the
four is refused for this reason and the block is left as it was. -/
theorem operations_of_activeLength (b : Block) (n : Nat) :
    (n ≤ 1024 → ∃ c k f,
        (b.complement? n = .ok c ∧ b.count? n = .ok k ∧ b.attempt (.fill n) = (.ok (), f) ∧
          b.attempt (.clear n) = (.ok (), empty)) ∧
        ((∀ i, c.contains i = (decide (i < n) && !b.contains i)) ∧
          k = Nat.count (fun i => b.contains i = true) n ∧
          k = b.toList.countP (fun i => decide (i < n)) ∧
          ∀ i, f.contains i = decide (i < n)) ∧
        (c.CutAfter n (fun j => ~~~b.words[j.val]) ∧
          k = total ((b.words.toList.take (n / 64)).map Word.count) +
            b.words[n / 64]?.elim 0 (fun w => (w &&& Word.leading (n % 64)).count) ∧
          f.CutAfter n fun _ => Word.ones) ∧
        (k ≤ n ∧ c.countAll = n - k) ∧
        (∃ d, c.complement? n = .ok d ∧ ∀ i, d.contains i = (b.contains i && decide (i < n))) ∧
        ∀ m, m ≤ n → ∃ j, b.count? m = .ok j ∧ j ≤ k) ∧
      (b.complement? 1024 = .ok b.complementAll ∧ b.count? 1024 = .ok b.countAll) ∧
      (1024 < n →
        b.complement? n = .error (.indexOutOfRange n 1024) ∧
          b.count? n = .error (.indexOutOfRange n 1024) ∧
          b.attempt (.fill n) = (.error (.indexOutOfRange n 1024), b) ∧
          b.attempt (.clear n) = (.error (.indexOutOfRange n 1024), b)) := by
  refine ⟨fun hn => ?_, ⟨?_, ?_⟩, fun hn => ?_⟩
  · refine ⟨b.complement n, b.count n, below n,
      ⟨b.complement?_of_le hn, b.count?_of_le hn, attempt_of_ok (b.fill?_of_le hn),
        attempt_of_ok (b.clear?_of_le hn)⟩,
      ⟨b.contains_complement hn, b.count_eq_natCount hn, b.count_eq_countP_toList hn,
        contains_below hn⟩,
      ⟨b.cutAfter_complement n, b.count_eq_add hn, cutAfter_below n⟩,
      ⟨b.count_le hn, b.countAll_complement hn⟩, ?_, ?_⟩
    · exact ⟨_, complement?_of_le _ hn, b.contains_complement_complement hn⟩
    · intro m hmn
      exact ⟨_, b.count?_of_le (hmn.trans hn), b.count_le_count hmn hn⟩
  · rw [b.complement?_of_le (Nat.le_refl _), complementAll_eq]
  · rw [b.count?_of_le (Nat.le_refl _), countAll_eq]
  · obtain ⟨hcomplement, hcount, hfill, hclear⟩ := b.refused_of_lt hn
    exact ⟨hcomplement, hcount, attempt_of_error hfill, attempt_of_error hclear⟩

/-- A length in the midst of a word, of a block that lacks a place below it and one far above,
and a length that is one too many. -/
theorem operations_of_activeLength_ragged :
    ∃ b c f : Block, b = (full.erase 70).erase 1000 ∧ 100 ≤ 1024 ∧
      b.complement? 100 = .ok c ∧ c.contains 70 = true ∧ c.contains 1000 = false ∧
      c.CutAfter 100 (fun j => ~~~b.words[j.val]) ∧ b.count? 100 = .ok 99 ∧ c.countAll = 1 ∧
      (∃ j, b.count? 64 = .ok j ∧ j ≤ 99) ∧
      b.attempt (.fill 100) = (.ok (), f) ∧ f.contains 99 = true ∧ f.contains 100 = false ∧
      1024 < 1025 ∧ b.attempt (.fill 1025) = (.error (.indexOutOfRange 1025 1024), b) ∧
      b.count? 1025 = .error (.indexOutOfRange 1025 1024) := by
  obtain ⟨b, hb⟩ : ∃ b : Block, b = (full.erase 70).erase 1000 := ⟨_, rfl⟩
  obtain ⟨hwithin, -, -⟩ := operations_of_activeLength b 100
  obtain ⟨-, -, hpast⟩ := operations_of_activeLength b 1025
  obtain ⟨c, k, f, ⟨hc, hk, hf, -⟩, ⟨hcbits, -, -, hfbits⟩, ⟨hcwords, -, -⟩, ⟨-, hrest⟩, -,
    hmono⟩ := hwithin (by decide)
  obtain ⟨-, hcount, hfill, -⟩ := hpast (by decide)
  obtain rfl : k = 99 := by
    rw [hb] at hk
    exact Except.ok.inj (hk.symm.trans (by decide +kernel))
  refine ⟨b, c, f, hb, by decide, hc, ?_, ?_, hcwords, hk, hrest, hmono 64 (by decide), hf,
    hfbits 99, hfbits 100, by decide, hfill, hcount⟩
  · rw [hcbits, hb]
    decide +kernel
  · exact hcbits 1000

end Block

end FacetIndex
