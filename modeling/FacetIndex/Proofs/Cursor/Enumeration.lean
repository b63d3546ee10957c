import FacetIndex.Cursor.Reading
import FacetIndex.Layout
import Mathlib.Data.List.Basic

/-!
# What a cursor enumerates, wherever it is interrupted

A cursor is a value. What it enumerates is therefore said of a state and a list, for a
reader of any kind: `FacetIndex.Enumerates` says that reading number `k` gives member `k`
of the list and nothing past its end, that a reader which was stopped after any number of
elements goes on with the rest of the list, however often it is taken up again from
there, and that a drained reader stays empty.

All of it follows from two facts about one reading: it takes the head of a list and leaves
its tail (`FacetIndex.enumerates_of_remaining`). Both cursors have such a list, be they
fresh or not. For a run of blocks the lists are known
(`FacetIndex.enumeration_of_blocks`): the words in their order, and the indexes of the
ones in ascending order.
-/

namespace FacetIndex

/-! ### Readings, one after the other -/

section Reader

variable {σ α : Type}

/-- The reader after `k` readings. -/
def afterReading (next : σ → Option α × σ) : Nat → σ → σ
  | 0, s => s
  | k + 1, s => afterReading next k (next s).2

/-- What reading number `k` gives, the first one being number zero. -/
def reading (next : σ → Option α × σ) (s : σ) (k : Nat) : Option α :=
  (next (afterReading next k s)).1

/-- **The reader in state `s` enumerates `items`**, wherever it is interrupted. -/
structure Enumerates (next : σ → Option α × σ) (drain : σ → Array α × σ) (s : σ)
    (items : List α) : Prop where
  /-- Each reading gives the next member; past the last one there is nothing, for good. -/
  reading : ∀ k, reading next s k = items[k]?
  /-- Taking `n` elements takes the first `n` members. -/
  taken : ∀ n, (readUpTo next n s #[]).1.toList = items.take n
  /-- From where it was stopped the reader goes on with the members after them. -/
  resumed : ∀ n k, FacetIndex.reading next (readUpTo next n s #[]).2 k = items[n + k]?
  /-- Draining it there gives what is left. -/
  drained : ∀ n, (readUpTo next n s #[]).1.toList ++ (drain (readUpTo next n s #[]).2).1.toList =
    items
  /-- A drained reader stays empty. -/
  exhausted : ∀ n k, FacetIndex.reading next (drain (readUpTo next n s #[]).2).2 k = none

variable {next : σ → Option α × σ} {drain : σ → Array α × σ} {remaining : σ → List α}
  (hhead : ∀ s, (next s).1 = (remaining s).head?)
  (htail : ∀ s, remaining (next s).2 = (remaining s).tail)

include hhead htail

omit hhead in
theorem remaining_afterReading (k : Nat) (s : σ) :
    remaining (afterReading next k s) = (remaining s).drop k := by
  induction k generalizing s with
  | zero => rfl
  | succ k ih => rw [afterReading, ih, htail, List.drop_tail]

theorem reading_eq_getElem? (s : σ) (k : Nat) : reading next s k = (remaining s)[k]? := by
  rw [reading, hhead, remaining_afterReading htail, List.head?_drop]

/-- **One reading says it all**: a reader that takes the head of a list and leaves its tail
enumerates the list, if draining reads the whole of it. -/
theorem enumerates_of_remaining
    (hdrain : ∀ s, (drain s).1.toList = remaining s ∧ remaining (drain s).2 = []) (s : σ) :
    Enumerates next drain s (remaining s) := by
  have hread : ∀ n, (readUpTo next n s #[]).1.toList = (remaining s).take n ∧
      remaining (readUpTo next n s #[]).2 = (remaining s).drop n := by
    intro n
    obtain ⟨htaken, hleft⟩ := readUpTo_eq hhead htail n s #[]
    rw [Array.empty_append] at htaken
    exact ⟨congrArg Array.toList htaken, hleft⟩
  refine ⟨reading_eq_getElem? hhead htail s, fun n => (hread n).1, ?_, ?_, ?_⟩
  · intro n k
    rw [reading_eq_getElem? hhead htail, (hread n).2, List.getElem?_drop]
  · intro n
    rw [(hread n).1, (hdrain _).1, (hread n).2, List.take_append_drop]
  · intro n k
    rw [reading_eq_getElem? hhead htail, (hdrain _).2, List.getElem?_nil]

/-- Once a reading gave nothing, none gives anything. -/
theorem reading_eq_none_of_next {s : σ} (h : (next s).1 = none) (k : Nat) :
    reading next (next s).2 k = none := by
  have hnil : remaining s = [] := List.head?_eq_none_iff.1 ((hhead s).symm.trans h)
  rw [reading_eq_getElem? hhead htail, htail, hnil, List.tail_nil, List.getElem?_nil]

end Reader

/-! ### The two cursors -/

namespace WordCursor

/-- **A word cursor enumerates the words still to come.** -/
theorem enumerates_rest (c : WordCursor) : Enumerates next drain c c.rest := by
  refine enumerates_of_remaining next_fst rest_next (fun c => ⟨?_, ?_⟩) c
  · rw [drain_fst]
  · rw [drain, rest_take, ← length_rest, List.drop_length]

end WordCursor

namespace IndexCursor

/-- **An index cursor enumerates the indexes still to come.** -/
theorem enumerates_remaining (c : IndexCursor) : Enumerates next drain c c.remaining := by
  refine enumerates_of_remaining next_fst remaining_next (fun c => ⟨?_, ?_⟩) c
  · rw [drain_fst]
  · have hlength := c.length_remaining_le
    rw [drain, remaining_take, List.drop_of_length_le (by omega)]

/-- The word that is being read, if any, is the one before the place. -/
def Behind (c : IndexCursor) : Prop := c.current ≠ 0 → 0 < c.ahead.position

theorem behind_ofBlocks (blocks : Array Block) : (ofBlocks blocks).Behind :=
  fun h => absurd rfl h

theorem Behind.next {c : IndexCursor} (h : c.Behind) : c.next.2.Behind := by
  fun_induction IndexCursor.next c with
  | case1 c hzero w ahead hnext ih =>
    refine ih fun _ => ?_
    have hplace := c.ahead.next_eq
    rw [hnext] at hplace
    obtain ⟨hhead, hahead⟩ := Prod.mk.inj hplace
    have hne : c.ahead.rest ≠ [] := by
      intro hnil
      rw [hnil] at hhead
      cases hhead
    rw [hahead, if_neg hne]
    exact Nat.succ_pos _
  | case2 => exact fun hcurrent => absurd rfl hcurrent
  | case3 c hcurrent place => exact fun _ => h hcurrent

theorem Behind.afterReading {c : IndexCursor} (h : c.Behind) (k : Nat) :
    (afterReading IndexCursor.next k c).Behind := by
  induction k generalizing c with
  | zero => exact h
  | succ k ih => exact ih h.next

end IndexCursor

/-! ### Runs of blocks -/

/-- **What the cursors of a run of blocks enumerate.** The word cursor enumerates all the
words, block after block. The index cursor enumerates, in strictly ascending order, exactly
the indexes whose bit is a one. Both do so wherever they are interrupted, and once
either has given nothing, whatever state it was in, it gives nothing for good. The word
that an index cursor is reading is always the one before its place. Indexes are numbers
without a bound here; those of at most `2 ^ 54` blocks, which is more than a memory of
64-bit addresses holds, are of sixty-four bits. -/
theorem enumeration_of_blocks (blocks : Array Block) :
    (∃ words : List Word, words.length = 16 * blocks.size ∧
        (∀ n, words[n]? = blocks[n / 16]?.bind (·.words[n % 16]?)) ∧
        Enumerates WordCursor.next WordCursor.drain (.ofBlocks blocks) words) ∧
      (∃ indexes : List Nat, indexes.Pairwise (· < ·) ∧
        (∀ p, p ∈ indexes ↔
          p < 1024 * blocks.size ∧ blocks[p / 1024]?.any (·.contains (p % 1024)) = true) ∧
        (blocks.size ≤ 18014398509481984 → ∀ p ∈ indexes, p ≤ maxIndex) ∧
        Enumerates IndexCursor.next IndexCursor.drain (.ofBlocks blocks) indexes) ∧
      (∀ c : WordCursor, c.next.1 = none → ∀ k, reading WordCursor.next c.next.2 k = none) ∧
      (∀ c : IndexCursor, c.next.1 = none → ∀ k, reading IndexCursor.next c.next.2 k = none) ∧
      ∀ k, (afterReading IndexCursor.next k (.ofBlocks blocks)).Behind := by
  refine ⟨⟨(WordCursor.ofBlocks blocks).rest, ?_, ?_, WordCursor.enumerates_rest _⟩,
    ⟨(IndexCursor.ofBlocks blocks).remaining, ?_, ?_, ?_, IndexCursor.enumerates_remaining _⟩,
    fun c => reading_eq_none_of_next WordCursor.next_fst WordCursor.rest_next,
    fun c => reading_eq_none_of_next IndexCursor.next_fst IndexCursor.remaining_next,
    (IndexCursor.behind_ofBlocks blocks).afterReading⟩
  · rw [WordCursor.rest_ofBlocks, length_flatMap_words, Array.length_toList]
  · intro n
    have hword : ∀ b : Block, b.words[n % 16]? = some b.words[n % 16] := fun b =>
      Vector.getElem?_eq_getElem (by omega)
    rw [WordCursor.rest_ofBlocks, getElem?_flatMap_words, Array.getElem?_toList]
    simp only [hword, Option.map_eq_bind]
    rfl
  · rw [IndexCursor.remaining_ofBlocks_eq_filter]
    exact List.pairwise_lt_range.filter _
  · intro p
    rw [IndexCursor.remaining_ofBlocks_eq_filter, List.mem_filter, List.mem_range]
  · intro hsize p hp
    rw [IndexCursor.remaining_ofBlocks_eq_filter, List.mem_filter, List.mem_range] at hp
    unfold maxIndex
    omega

/-- A reading that is interrupted within a word, goes on past an empty block and comes to
its end. -/
theorem enumeration_of_blocks_crossing :
    ∃ blocks c, blocks = #[(Block.empty.insert 960).insert 1000, Block.empty,
        Block.empty.insert 64] ∧
      c = ((IndexCursor.ofBlocks blocks).take 1).2 ∧
      ((IndexCursor.ofBlocks blocks).take 1).1 = #[960] ∧ c.drain.1 = #[1000, 2112] ∧
      c.drain.2.next.1 = none ∧ (∀ k, reading IndexCursor.next c.drain.2.next.2 k = none) ∧
      ∃ indexes, Enumerates IndexCursor.next IndexCursor.drain (.ofBlocks blocks) indexes ∧
        ∀ p ∈ indexes, p ≤ maxIndex := by
  obtain ⟨-, ⟨indexes, -, -, hfit, henumerates⟩, -, hexhausted, -⟩ := enumeration_of_blocks
    #[(Block.empty.insert 960).insert 1000, Block.empty, Block.empty.insert 64]
  exact ⟨_, _, rfl, rfl, by decide +kernel, by decide +kernel, by decide +kernel,
    hexhausted _ (by decide +kernel), indexes, henumerates, hfit (by decide)⟩

end FacetIndex
