import FacetIndex.Block.Bits
import FacetIndex.Cursor.Basic

/-!
# What a cursor reads

A cursor stands for the list of elements still to come: `FacetIndex.WordCursor.rest`,
and `FacetIndex.IndexCursor.remaining`. Reading takes the head of that list and leaves
its tail (`FacetIndex.IndexCursor.next_fst`,
`FacetIndex.IndexCursor.remaining_next`); so taking `n` elements takes the first `n`
of the list, and draining takes all of it. For a run of blocks the list is that of
the indexes of its ones, in ascending order
(`FacetIndex.IndexCursor.drain_ofBlocks`).

What is to come to an index cursor is in two parts: what is left of the word that it is
reading, which is the word before its place, and the words from its place on.
-/

namespace FacetIndex

/-! ### Reading on -/

/-- A reader that takes the head of a list and leaves its tail reads that list. -/
theorem readUpTo_eq {σ α : Type} {next : σ → Option α × σ} {remaining : σ → List α}
    (hhead : ∀ s, (next s).1 = (remaining s).head?)
    (htail : ∀ s, remaining (next s).2 = (remaining s).tail) (n : Nat) (s : σ) (read : Array α) :
    (readUpTo next n s read).1 = read ++ ((remaining s).take n).toArray ∧
      remaining (readUpTo next n s read).2 = (remaining s).drop n := by
  induction n generalizing s read with
  | zero => simp [readUpTo]
  | succ n ih =>
    have h1 := hhead s
    have h2 := htail s
    unfold readUpTo
    split
    · next t heq =>
      rw [heq] at h1 h2
      have hnil : remaining s = [] := List.head?_eq_none_iff.mp h1.symm
      rw [hnil] at h2
      simp [hnil, h2]
    · next a t heq =>
      rw [heq] at h1 h2
      obtain ⟨rest, hcons⟩ := List.head?_eq_some_iff.mp h1.symm
      rw [hcons] at h2
      obtain ⟨ih1, ih2⟩ := ih t (read.push a)
      rw [ih1, ih2]
      simp_all

/-! ### Words -/

/-- The word of number `n` in a run of blocks is word `n % 16` of block `n / 16`. -/
theorem getElem?_flatMap_words (blocks : List Block) (n : Nat) :
    (blocks.flatMap (·.words.toList))[n]? = blocks[n / 16]?.map (·.words[n % 16]) := by
  induction blocks generalizing n with
  | nil => rfl
  | cons b blocks ih =>
    rw [List.flatMap_cons, List.getElem?_append, Vector.length_toList]
    split
    · next h =>
      have hd : n / 16 = 0 := by omega
      have hm : n % 16 = n := by omega
      simp [hd, hm, h]
    · next h =>
      have hd : n / 16 = (n - 16) / 16 + 1 := by omega
      have hm : n % 16 = (n - 16) % 16 := by omega
      simp only [ih, hd, hm, List.getElem?_cons_succ]

theorem length_flatMap_words (blocks : List Block) :
    (blocks.flatMap (·.words.toList)).length = 16 * blocks.length := by
  induction blocks with
  | nil => rfl
  | cons b blocks ih =>
    rw [List.flatMap_cons, List.length_append, ih, Vector.length_toList, List.length_cons]
    omega

namespace WordCursor

/-- The words still to come. -/
def rest (c : WordCursor) : List Word := (c.blocks.toList.flatMap (·.words.toList)).drop c.position

theorem rest_ofBlocks (blocks : Array Block) :
    (ofBlocks blocks).rest = blocks.toList.flatMap (·.words.toList) :=
  rfl

theorem length_rest (c : WordCursor) : c.rest.length = c.left := by
  rw [rest, List.length_drop, length_flatMap_words, Array.length_toList, left]

/-- Reading takes the head of what is to come, and moves on by one word. -/
theorem next_eq (c : WordCursor) :
    c.next = (c.rest.head?, if c.rest = [] then c else { c with position := c.position + 1 }) := by
  have hhead : c.rest.head? = c.blocks[c.position / 16]?.map (·.words[c.position % 16]) := by
    rw [rest, List.head?_drop, getElem?_flatMap_words, Array.getElem?_toList]
  rw [hhead, next]
  split
  · next b hb =>
    have hne : c.rest ≠ [] := by
      intro hnil
      rw [hnil, hb] at hhead
      cases hhead
    rw [hb, if_neg hne, Option.map_some]
  · next hb =>
    have hnil : c.rest = [] := List.head?_eq_none_iff.1 (by rw [hhead, hb, Option.map_none])
    rw [hb, if_pos hnil, Option.map_none]

theorem next_fst (c : WordCursor) : c.next.1 = c.rest.head? := by
  rw [next_eq]

theorem rest_next (c : WordCursor) : c.next.2.rest = c.rest.tail := by
  rw [next_eq]
  split
  · next hnil => rw [hnil, List.tail_nil]
  · exact List.tail_drop.symm

theorem take_fst (c : WordCursor) (n : Nat) : (c.take n).1 = (c.rest.take n).toArray := by
  rw [take, (readUpTo_eq next_fst rest_next n c #[]).1, Array.empty_append]

theorem rest_take (c : WordCursor) (n : Nat) : (c.take n).2.rest = c.rest.drop n :=
  (readUpTo_eq next_fst rest_next n c #[]).2

/-- Draining reads all that is to come. -/
theorem drain_fst (c : WordCursor) : c.drain.1 = c.rest.toArray := by
  rw [drain, take_fst, ← length_rest, List.take_length]

end WordCursor

/-! ### Indexes of ones -/

/-- The numbers below `n` that have a property begin with the first that has it. -/
theorem filter_range_eq_cons {p : Nat → Bool} {k n : Nat} (hk : k < n) (hp : p k = true)
    (hbefore : ∀ i, i < k → p i = false) :
    (List.range n).filter p = k :: (List.range n).filter (fun i => p i && i != k) := by
  obtain ⟨m, rfl⟩ := Nat.exists_eq_add_of_le (Nat.succ_le_of_lt hk)
  have hsplit : List.range (k.succ + m) = List.range k ++ k :: (List.range m).map (k + 1 + ·) := by
    rw [Nat.succ_eq_add_one, List.range_add, List.range_succ, List.append_assoc]
    rfl
  have hnil : (List.range k).filter p = [] :=
    List.filter_eq_nil_iff.2 fun i hi => by simp [hbefore i (List.mem_range.mp hi)]
  have hnil' : (List.range k).filter (fun i => p i && i != k) = [] :=
    List.filter_eq_nil_iff.2 fun i hi => by simp [hbefore i (List.mem_range.mp hi)]
  have hrest : ((List.range m).map (k + 1 + ·)).filter p =
      ((List.range m).map (k + 1 + ·)).filter (fun i => p i && i != k) :=
    List.filter_congr fun i hi => by
      obtain ⟨j, _, rfl⟩ := List.mem_map.mp hi
      have : k + 1 + j ≠ k := by omega
      simp [this]
  rw [hsplit, List.filter_append, List.filter_append, hnil, hnil', List.filter_cons_of_pos hp,
    List.filter_cons_of_neg (by simp), hrest]
  rfl

namespace Word

/-- The indexes of a word that is not zero begin with its first one. -/
theorem filter_bit_eq_cons {w : Word} (h : w ≠ 0) :
    (List.range 64).filter (bit w) =
      firstBit w :: (List.range 64).filter (bit (without w (firstBit w))) := by
  obtain ⟨hlt, hone, hbefore⟩ := firstBit_spec h
  rw [filter_range_eq_cons hlt hone hbefore]
  exact congrArg _ (List.filter_congr fun i hi =>
    (bit_without w hlt (List.mem_range.mp hi)).symm)

end Word

namespace IndexCursor

/-- The indexes still to come: those in the word that is being read, and those in the
words after it. -/
def remaining (c : IndexCursor) : List Nat :=
  ((List.range 64).filter c.current.bit).map (64 * (c.ahead.position - 1) + ·) ++
    (Word.runIndexes c.ahead.rest).map (64 * c.ahead.position + ·)

/-- While no word is being read, all indexes are in the words to come. -/
theorem remaining_of_current_eq_zero {c : IndexCursor} (h : c.current = 0) :
    c.remaining = (Word.runIndexes c.ahead.rest).map (64 * c.ahead.position + ·) := by
  have hnone : (List.range 64).filter (Word.bit 0) = [] :=
    List.filter_eq_nil_iff.2 fun i _ => by simp
  rw [remaining, h, hnone, List.map_nil, List.nil_append]

/-- Going on to the next word loses no index. -/
theorem remaining_load {c : IndexCursor} {w : Word} {ahead : WordCursor} (h : c.current = 0)
    (hnext : c.ahead.next = (some w, ahead)) : remaining ⟨ahead, w⟩ = c.remaining := by
  have hhead := c.ahead.next_fst
  have htail := c.ahead.rest_next
  have hplace := c.ahead.next_eq
  rw [hnext] at hhead htail hplace
  obtain ⟨rest, hrest⟩ := List.head?_eq_some_iff.1 hhead.symm
  rw [hrest, List.tail_cons] at htail
  rw [if_neg (by rw [hrest]; exact List.cons_ne_nil w rest)] at hplace
  have hposition : ahead.position = c.ahead.position + 1 :=
    congrArg WordCursor.position (Prod.mk.inj hplace).2
  have hshift : ((64 * c.ahead.position + ·) ∘ (64 + ·) : Nat → Nat) =
      (64 * (c.ahead.position + 1) + ·) := by
    funext i
    simp only [Function.comp_apply]
    omega
  rw [remaining_of_current_eq_zero h, remaining, htail, hrest, Word.runIndexes_cons, hposition,
    List.map_append, List.map_map, hshift, Nat.add_sub_cancel]

/-- **Reading takes the head of what is to come and leaves its tail.** -/
theorem next_spec (c : IndexCursor) :
    c.next.1 = c.remaining.head? ∧ c.next.2.remaining = c.remaining.tail := by
  fun_induction next c with
  | case1 c hzero w ahead hnext ih => rwa [remaining_load hzero hnext] at ih
  | case2 c hzero ahead hnext =>
    have hhead := c.ahead.next_fst
    have htail := c.ahead.rest_next
    rw [hnext] at hhead htail
    have hnil : c.ahead.rest = [] := List.head?_eq_none_iff.1 hhead.symm
    rw [hnil] at htail
    rw [remaining_of_current_eq_zero hzero, remaining_of_current_eq_zero rfl, hnil, htail]
    exact ⟨rfl, rfl⟩
  | case3 c hzero place =>
    have hcons : c.remaining =
        (64 * (c.ahead.position - 1) + place) :: remaining ⟨c.ahead, c.current.without place⟩ := by
      rw [remaining, remaining, Word.filter_bit_eq_cons hzero, List.map_cons, List.cons_append]
    rw [hcons]
    exact ⟨rfl, rfl⟩

theorem next_fst (c : IndexCursor) : c.next.1 = c.remaining.head? := c.next_spec.1

theorem remaining_next (c : IndexCursor) : c.next.2.remaining = c.remaining.tail := c.next_spec.2

theorem take_fst (c : IndexCursor) (n : Nat) : (c.take n).1 = (c.remaining.take n).toArray := by
  rw [take, (readUpTo_eq next_fst remaining_next n c #[]).1, Array.empty_append]

theorem remaining_take (c : IndexCursor) (n : Nat) : (c.take n).2.remaining = c.remaining.drop n :=
  (readUpTo_eq next_fst remaining_next n c #[]).2

theorem length_remaining_le (c : IndexCursor) : c.remaining.length ≤ 64 * (c.ahead.left + 1) := by
  have hcurrent := List.length_filter_le c.current.bit (List.range 64)
  have hrest := List.length_filter_le (Word.runBit c.ahead.rest)
    (List.range (64 * c.ahead.rest.length))
  rw [List.length_range] at hcurrent hrest
  rw [remaining, List.length_append, List.length_map, List.length_map, Word.runIndexes,
    ← WordCursor.length_rest]
  omega

/-- Draining reads all that is to come. -/
theorem drain_fst (c : IndexCursor) : c.drain.1 = c.remaining.toArray := by
  have := length_remaining_le c
  rw [drain, take_fst, List.take_of_length_le (by omega)]

/-- Before the first one, the indexes to come are those in all the words. -/
theorem remaining_ofBlocks (blocks : Array Block) :
    (ofBlocks blocks).remaining = Word.runIndexes (blocks.toList.flatMap (·.words.toList)) := by
  have hshift : ((64 * (ofBlocks blocks).ahead.position + ·) : Nat → Nat) = id :=
    funext Nat.zero_add
  rw [remaining_of_current_eq_zero rfl, hshift, List.map_id]
  rfl

end IndexCursor

/-! ### Runs of blocks -/

/-- The bit of index `i` in a run of blocks lies in block `i / 1024`. -/
theorem runBit_flatMap_words (blocks : List Block) (i : Nat) :
    Word.runBit (blocks.flatMap (·.words.toList)) i =
      blocks[i / 1024]?.any (·.contains (i % 1024)) := by
  induction blocks generalizing i with
  | nil => rfl
  | cons b blocks ih =>
    rw [List.flatMap_cons, Word.runBit_append, Vector.length_toList]
    split
    · next h =>
      have hd : i / 1024 = 0 := by omega
      have hm : i % 1024 = i := by omega
      simp [hd, hm, Block.contains_eq_runBit]
    · next h =>
      have hd : i / 1024 = (i - 1024) / 1024 + 1 := by omega
      have hm : i % 1024 = (i - 1024) % 1024 := by omega
      rw [ih, hd, hm, List.getElem?_cons_succ]

namespace IndexCursor

/-- To come in a run of blocks are the indexes of its ones, in ascending order. -/
theorem remaining_ofBlocks_eq_filter (blocks : Array Block) :
    (ofBlocks blocks).remaining = (List.range (1024 * blocks.size)).filter
      (fun i => blocks[i / 1024]?.any (·.contains (i % 1024))) := by
  have hlength : 64 * (16 * blocks.size) = 1024 * blocks.size := by omega
  rw [remaining_ofBlocks, Word.runIndexes, length_flatMap_words, Array.length_toList, hlength]
  refine List.filter_congr fun i _ => ?_
  rw [runBit_flatMap_words, Array.getElem?_toList]

/-- A run of blocks is read as the ascending list of the indexes of its ones. -/
theorem drain_ofBlocks (blocks : Array Block) :
    (ofBlocks blocks).drain.1.toList = (List.range (1024 * blocks.size)).filter
      (fun i => blocks[i / 1024]?.any (·.contains (i % 1024))) := by
  rw [drain_fst, remaining_ofBlocks_eq_filter]

end IndexCursor

theorem Block.toList_eq (b : Block) : b.toList = (List.range 1024).filter b.contains := by
  rw [toList, IndexCursor.drain_ofBlocks]
  refine List.filter_congr fun i hi => ?_
  have hi := List.mem_range.mp hi
  rw [show i / 1024 = 0 by simp at hi; omega, show i % 1024 = i by simp at hi; omega]
  rfl

end FacetIndex
