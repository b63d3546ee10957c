import FacetIndex.Proofs.Bitmap.Writing
import FacetIndex.Proofs.Block.ActiveLength

/-!
# The places of a block

A block has 1024 places, and place `i` is a bit of one of its words. As words are numbers, this
can be said without masks: place `i` is bit `63 - i % 64` of word `i / 64`, counted from the
low end (`FacetIndex.Block.get?_eq_testBit`). It is the only statement here that knows of the
order of the bits. Beyond it there are four laws.

| law | theorem |
|---|---|
| a bit is read where it was written, and nowhere else | `FacetIndex.Block.contains_put` |
| what a write tells is whether the block is another one | `FacetIndex.Block.put_fst_iff_ne` |
| a place from 1024 on is refused | `FacetIndex.Block.place_refused_of_le` |
| blocks that read the same are equal | `FacetIndex.Block.ext_get?` |

There are three ways to write a bit. Setting and unsetting check the place. The third,
`FacetIndex.Block.put`, is for a place that is known to be in range, and tells whether the bit
changed. A bitmap writes in the third way: it is made to cover the index first, so that there
is a block for it, and then writes at the place of the index in this block
(`FacetIndex.Bitmap.WellSized.write?_eq_put`).

Words and places come from an index by division, and a cursor has to go the other way, from
the word it reads and the place it found to an index (`FacetIndex.IndexCursor.next_eq_index`).
The two ways are inverse to each other.
-/

namespace FacetIndex

namespace Block

variable {b c : Block} {i : Nat}

/-! ### Places in range and out of range -/

theorem checkPlace_of_lt (hi : i < 1024) : checkPlace i = .ok () := if_pos hi

theorem checkPlace_of_le (hi : 1024 ≤ i) : checkPlace i = .error (.indexOutOfRange i 1024) :=
  if_neg (Nat.not_lt.2 hi)

theorem get?_of_lt (b : Block) (hi : i < 1024) : b.get? i = .ok (b.contains i) := by
  rw [get?, checkPlace_of_lt hi]
  rfl

/-- Setting a place is the write that does not check it. -/
theorem set?_of_lt (b : Block) (hi : i < 1024) : b.set? i = .ok (b.put i true).2 := by
  rw [set?, checkPlace_of_lt hi]
  rfl

theorem unset?_of_lt (b : Block) (hi : i < 1024) : b.unset? i = .ok (b.put i false).2 := by
  rw [unset?, checkPlace_of_lt hi]
  rfl

/-- **No bit is read or written past the last place.** -/
theorem place_refused_of_le (b : Block) (hi : 1024 ≤ i) :
    b.get? i = .error (.indexOutOfRange i 1024) ∧ b.set? i = .error (.indexOutOfRange i 1024) ∧
      b.unset? i = .error (.indexOutOfRange i 1024) := by
  rw [get?, set?, unset?, checkPlace_of_le hi]
  exact ⟨rfl, rfl, rfl⟩

/-! ### Reading -/

/-- **Where a place is in the numbers that the words are.** -/
theorem get?_eq_testBit (b : Block) (hi : i < 1024) :
    ∃ w, b.words[i / 64]? = some w ∧ b.get? i = .ok (w.toNat.testBit (63 - i % 64)) := by
  refine ⟨_, Vector.getElem?_eq_getElem (by omega), ?_⟩
  rw [get?_of_lt b hi, contains_eq_bit b hi, Word.bit_eq_testBit _ (Nat.mod_lt i (by decide))]

/-- **Blocks that read the same are equal.** -/
theorem ext_get? (h : ∀ j, j < 1024 → b.get? j = c.get? j) : b = c := by
  refine ext_contains fun j hj => ?_
  have hbit := h j hj
  rw [get?_of_lt b hj, get?_of_lt c hj] at hbit
  exact Except.ok.inj hbit

/-! ### Writing -/

/-- **What a write tells is whether the block is another one than before.** -/
theorem put_fst_iff_ne (b : Block) (hi : i < 1024) (one : Bool) :
    (b.put i one).1 = true ↔ (b.put i one).2 ≠ b := by
  have htold : (b.put i one).1 = (b.contains i != one) := rfl
  have hself : (b.put i one).2.contains i = one := by rw [contains_put b hi, if_pos rfl]
  rw [htold, bne_iff_ne]
  constructor
  · intro hne heq
    rw [heq] at hself
    exact hne hself
  · -- If the bit was there already, no place has changed.
    intro hne heq
    refine hne (ext_contains fun j _ => ?_)
    rw [contains_put b hi]
    split
    · next h => rw [h, heq]
    · rfl

/-- **`c` is `b` with the bit `one` written at place `i`** and no other place changed, and
`changed` tells whether this one did. -/
structure Writes (b : Block) (i : Nat) (one changed : Bool) (c : Block) : Prop where
  get?_self : c.get? i = .ok one
  get?_of_ne : ∀ j, j < 1024 → j ≠ i → c.get? j = b.get? j
  changed_iff_get? : changed = true ↔ c.get? i ≠ b.get? i
  changed_iff_ne : changed = true ↔ c ≠ b

theorem writes_put (b : Block) (hi : i < 1024) (one : Bool) :
    b.Writes i one (b.put i one).1 (b.put i one).2 := by
  have htold : (b.put i one).1 = (b.contains i != one) := rfl
  have hself : (b.put i one).2.get? i = .ok one := by
    rw [get?_of_lt _ hi, contains_put b hi, if_pos rfl]
  refine ⟨hself, fun j hj hne => ?_, ?_, b.put_fst_iff_ne hi one⟩
  · rw [get?_of_lt _ hj, get?_of_lt b hj, contains_put b hi, if_neg hne]
  · rw [hself, get?_of_lt b hi, htold, bne_iff_ne, ne_comm, ne_eq, ne_eq, Except.ok.injEq]

end Block

/-! ### Where places are used -/

/-- **A bitmap writes a bit in the block of its index**, once it covers the index, and passes on
what the block tells. -/
theorem Bitmap.WellSized.write?_eq_put {s : Bitmap} (hs : s.WellSized) {i : Nat}
    (hi : i < maxIndex) (one : Bool) :
    ∃ t c, t = s.growTo (i + 1) ∧ t.blocks[i / 1024]? = some c ∧
      s.write? ⟨i, one⟩ =
        .ok ((c.put (i % 1024) one).1, t.mapBlock i fun _ => (c.put (i % 1024) one).2) := by
  have hlt : i / 1024 < (s.growTo (i + 1)).blocks.size :=
    (hs.growTo (i + 1)).div_lt (by rw [size_growTo]; omega)
  obtain ⟨c, hc⟩ : ∃ c, c = (s.growTo (i + 1)).blocks[i / 1024] := ⟨_, rfl⟩
  have hblock : (s.growTo (i + 1)).blocks[i / 1024]? = some c := by
    rw [hc, Array.getElem?_eq_getElem hlt]
  -- The bit was told before the bitmap grew, and growing does not move it.
  have hstored : s.stored i = c.contains (i % 1024) := by
    rw [hc, ← stored_eq_of_lt _ hlt, stored_growTo]
  refine ⟨_, c, rfl, hblock, ?_⟩
  cases one with
  | false =>
    have hwrite : s.erase i = (s.growTo (i + 1)).mapBlock i fun _ => c.erase (i % 1024) :=
      mapBlock_congr hblock rfl
    rw [write?, if_neg Bool.false_ne_true, unset?_eq, if_pos hi, hstored, hwrite, Block.put_false]
  | true =>
    have hwrite : s.insert i = (s.growTo (i + 1)).mapBlock i fun _ => c.insert (i % 1024) :=
      mapBlock_congr hblock rfl
    rw [write?, if_pos rfl, set?_eq, if_pos hi, hstored, hwrite, Block.put_true]

/-- **A cursor that reads a word gives the index of the first one that is left of it.** -/
theorem IndexCursor.next_eq_index {c : IndexCursor} (h : c.current ≠ 0) :
    ∃ a : Word.Address, a.word = c.ahead.position - 1 ∧ a.place = c.current.firstBit ∧
      c.next.1 = some a.index := by
  obtain ⟨hlt, -, -⟩ := Word.firstBit_spec h
  refine ⟨⟨c.ahead.position - 1, ⟨c.current.firstBit, hlt⟩⟩, rfl, rfl, ?_⟩
  rw [next, if_neg h]
  rfl

namespace Block

/-! ### All laws -/

/-- **How the bits of a block are addressed.** Below 1024, reading a place gives bit
`63 - i % 64` of word `i / 64`, counted from the low end. Setting and unsetting it are granted;
they leave the same block as the write that does not check the place, the bit is then read
there, all other places are read as before, and this write tells whether the place, and with it
the block, is another one. From 1024 on each of the three is refused, with the place that was
asked for and the number of places, and the block is left as it was. Blocks that read the same
at all places are equal. An index has one address, in word `i / 64` at place `i % 64`, and an
address belongs to one index.

This is how bitmaps and cursors address their blocks: writing index `i` of a bitmap, once it
covers the index, is the write that does not check the place, in block `i / 1024` at place
`i % 1024`, and a cursor that found a one gives the index of the address where it did. -/
theorem addressing_of_block (b : Block) (i : Nat) :
    (i < 1024 →
        (∃ w, b.words[i / 64]? = some w ∧ b.get? i = .ok (w.toNat.testBit (63 - i % 64))) ∧
        (∃ c changed, b.attempt (.set i) = (.ok (), c) ∧ b.put i true = (changed, c) ∧
          b.Writes i true changed c) ∧
        ∃ c changed, b.attempt (.unset i) = (.ok (), c) ∧ b.put i false = (changed, c) ∧
          b.Writes i false changed c) ∧
      (1024 ≤ i →
        b.get? i = .error (.indexOutOfRange i 1024) ∧
          b.attempt (.set i) = (.error (.indexOutOfRange i 1024), b) ∧
          b.attempt (.unset i) = (.error (.indexOutOfRange i 1024), b)) ∧
      (∀ c, (∀ j, j < 1024 → b.get? j = c.get? j) → b = c) ∧
      (∃ a, a = Word.Address.ofIndex i ∧ a.word = i / 64 ∧ a.place = i % 64 ∧ a.index = i) ∧
      (∀ a, Word.Address.ofIndex a.index = a) ∧
      (∀ s : Bitmap, s.WellSized → i < maxIndex → ∀ one, ∃ t c, t = s.growTo (i + 1) ∧
        t.blocks[i / 1024]? = some c ∧ s.write? ⟨i, one⟩ =
          .ok ((c.put (i % 1024) one).1, t.mapBlock i fun _ => (c.put (i % 1024) one).2)) ∧
      ∀ c : IndexCursor, c.current ≠ 0 → ∃ a : Word.Address, a.word = c.ahead.position - 1 ∧
        a.place = c.current.firstBit ∧ c.next.1 = some a.index := by
  refine ⟨fun hi => ⟨b.get?_eq_testBit hi, ?_, ?_⟩, fun hi => ?_, fun c h => ext_get? h,
    ⟨_, rfl, rfl, rfl, Word.Address.index_ofIndex i⟩, Word.Address.ofIndex_index,
    fun s hs hi one => hs.write?_eq_put hi one, fun c h => IndexCursor.next_eq_index h⟩
  · exact ⟨_, _, attempt_of_ok (b.set?_of_lt hi), rfl, b.writes_put hi true⟩
  · exact ⟨_, _, attempt_of_ok (b.unset?_of_lt hi), rfl, b.writes_put hi false⟩
  · obtain ⟨hget, hset, hunset⟩ := b.place_refused_of_le hi
    exact ⟨hget, attempt_of_error hset, attempt_of_error hunset⟩

/-- The block of ones without the one at place 70, which is bit 57 of the second word. To set it
brings back the block of ones, and to unset it changes nothing. Index 70 of a bitmap of eight
bits is written at this place of its first block, once it has grown; a cursor in the
middle of a word of the second block finds the one at index 1034. -/
theorem addressing_of_block_hole :
    ∃ b c w, b = full.erase 70 ∧ 70 < 1024 ∧
      b.words[1]? = some w ∧ b.get? 70 = .ok (w.toNat.testBit 57) ∧ b.get? 70 = .ok false ∧
      b.attempt (.set 70) = (.ok (), c) ∧ b.put 70 true = (true, c) ∧ c.get? 70 = .ok true ∧
      c.get? 71 = b.get? 71 ∧ c ≠ b ∧ c = full ∧
      b.attempt (.unset 70) = (.ok (), b) ∧ b.put 70 false = (false, b) ∧
      1024 ≤ 1024 ∧ b.get? 1024 = .error (.indexOutOfRange 1024 1024) ∧
      b.attempt (.set 1024) = (.error (.indexOutOfRange 1024 1024), b) ∧
      (Word.Address.ofIndex 70).index = 70 ∧ Word.Address.ofIndex 70 = ⟨1, 6⟩ ∧
      (∃ t d, t = (Bitmap.zeros 8).growTo 71 ∧ t.blocks[0]? = some d ∧
        (Bitmap.zeros 8).write? ⟨70, true⟩ =
          .ok ((d.put 70 true).1, t.mapBlock 70 fun _ => (d.put 70 true).2)) ∧
      ∃ cursor a, cursor = ((IndexCursor.ofBlocks #[Block.empty,
          (Block.empty.insert 3).insert 10]).take 1).2 ∧
        a = (⟨16, 10⟩ : Word.Address) ∧ cursor.next.1 = some a.index ∧ a.index = 1034 := by
  obtain ⟨b, hb⟩ : ∃ b : Block, b = full.erase 70 := ⟨_, rfl⟩
  obtain ⟨hwithin, -, -, ⟨_, rfl, -, -, haddress⟩, -, hbitmap, hcursor⟩ :=
    addressing_of_block b 70
  obtain ⟨-, hpast, -, -, -⟩ := addressing_of_block b 1024
  obtain ⟨⟨w, hword, hbit⟩, ⟨c, news, hset, hput, hwrites⟩, d, same, hunset, hagain, hkept⟩ :=
    hwithin (by decide)
  obtain ⟨hget, hrefused, -⟩ := hpast (by decide)
  obtain rfl : news = true := by
    rw [hb] at hput
    exact (congrArg Prod.fst hput).symm.trans (by decide +kernel)
  obtain rfl : same = false := by
    rw [hb] at hagain
    exact (congrArg Prod.fst hagain).symm.trans (by decide +kernel)
  obtain rfl : d = b := by
    by_contra hne
    exact Bool.false_ne_true (hkept.changed_iff_ne.2 hne)
  have hfull : c = full := by
    rw [hb] at hput
    exact (congrArg Prod.snd hput).symm.trans (by decide +kernel)
  obtain ⟨a, hword', hplace, hnext⟩ := hcursor ((IndexCursor.ofBlocks #[Block.empty,
    (Block.empty.insert 3).insert 10]).take 1).2 (by decide +kernel)
  obtain rfl : a = ⟨16, 10⟩ := by
    cases a
    exact congrArg₂ Word.Address.mk (hword'.trans (by decide +kernel))
      (Fin.ext (hplace.trans (by decide +kernel)))
  refine ⟨d, c, w, hb, by decide, hword, hbit, hkept.get?_self, hset, hput, hwrites.get?_self,
    hwrites.get?_of_ne 71 (by decide) (by decide), hwrites.changed_iff_ne.1 rfl, hfull, hunset,
    hagain, by decide, hget, hrefused, haddress, rfl,
    hbitmap _ (Bitmap.wellSized_zeros 8) (by decide) true, _, _, rfl, rfl, hnext, rfl⟩

end Block

end FacetIndex
