import FacetIndex.Proofs.Bitmap.Canonical
import Mathlib.Data.List.Nodup

/-!
# Bits written one after the other

A one or a zero is written at an index (`FacetIndex.BitWrite`), and the answer is whether
the bit there changed. Depending on where the bitmap ends this is a write in place, makes
it longer within its last block, or adds blocks; a zero makes it longer just as a one does.
What is common to all of them is `FacetIndex.Bitmap.Writes`: the size moves up to cover the
index, the bit there is the one that was written, and no other bit moves.

A sequence of writes (`FacetIndex.Bitmap.writeAll`) is a chain of such steps
(`FacetIndex.Bitmap.Chain`), and everything that can be said of its end is an induction on
the chain:

| at the end of the chain | is determined by |
|---|---|
| a bit | the last write at its index (`FacetIndex.BitWrite.last?`) |
| the size | the greatest index written (`FacetIndex.BitWrite.frontier`) |
| the count | the ones and the zeros that were news |

The first two leave nothing of a canonical bitmap open, so two sequences that agree in them
end with the same bitmap (`FacetIndex.Bitmap.Chain.unique`). The order of writes at
different indexes is the foremost case.

An index that no bitmap can grow to cover is refused before anything is done. A sequence
goes on after that with the bitmap as it was.
-/

namespace FacetIndex

/-- A bit to be written at an index. -/
structure BitWrite where
  index : Nat
  /-- Whether it is a one. -/
  one : Bool
  deriving DecidableEq, Repr

namespace BitWrite

/-- The bit that is written last at index `j`, if any is. -/
def last? (writes : List BitWrite) (j : Nat) : Option Bool :=
  (writes.findRev? (·.index == j)).map one

/-- One past the greatest index that is written at; zero if there is none. -/
def frontier (writes : List BitWrite) : Nat := (writes.map index).max?.elim 0 (· + 1)

/-- Writes that come later hide the first one. -/
theorem last?_cons (w : BitWrite) (writes : List BitWrite) (j : Nat) :
    last? (w :: writes) j =
      (last? writes j).or (if j = w.index then some w.one else none) := by
  rw [last?, List.findRev?_eq_find?_reverse, List.reverse_cons, List.find?_append,
    ← List.findRev?_eq_find?_reverse, Option.map_or, List.find?_singleton, last?]
  split
  · next heq => rw [if_pos (beq_iff_eq.1 heq).symm, Option.map_some]
  · next hne => rw [if_neg fun heq => hne (beq_iff_eq.2 heq.symm), Option.map_none]

theorem frontier_cons (w : BitWrite) (writes : List BitWrite) :
    frontier (w :: writes) = max (w.index + 1) (frontier writes) := by
  rw [frontier, List.map_cons, List.max?_cons, frontier]
  rcases (writes.map index).max? with _ | n
  · exact (Nat.max_eq_left (Nat.zero_le _)).symm
  · simp only [Option.elim_some]
    omega

/-- Of two writes at different indexes neither hides the other. -/
theorem last?_swap {v w : BitWrite} (hne : v.index ≠ w.index) (writes : List BitWrite) (j : Nat) :
    last? (v :: w :: writes) j = last? (w :: v :: writes) j := by
  simp only [last?_cons, Option.or_assoc]
  rcases eq_or_ne j v.index with rfl | hv
  · rw [if_neg hne, Option.none_or, Option.or_none]
  · rw [if_neg hv, Option.none_or, Option.or_none]

theorem frontier_swap (v w : BitWrite) (writes : List BitWrite) :
    frontier (v :: w :: writes) = frontier (w :: v :: writes) := by
  simp only [frontier_cons]
  omega

end BitWrite

/-- Two predicates that differ at one member of a list at most. -/
theorem countP_add_of_eq_except {α : Type} [DecidableEq α] {l : List α} (hl : l.Nodup) {a : α}
    (ha : a ∈ l) {p q : α → Bool} (h : ∀ b, b ≠ a → q b = p b) :
    l.countP q + (p a).toNat = l.countP p + (q a).toNat := by
  -- The list is the member and the rest, and on the rest the two agree.
  have hrest : (l.erase a).countP q = (l.erase a).countP p := by
    refine List.countP_congr fun b hb => ?_
    rw [h b (hl.mem_erase_iff.1 hb).1]
  have hsplit := List.perm_cons_erase ha
  rw [hsplit.countP_eq q, hsplit.countP_eq p, List.countP_cons, List.countP_cons, hrest]
  cases p a <;> cases q a <;> rfl

namespace Bitmap

variable {s t u : Bitmap} {i : Nat} {one : Bool} {w : BitWrite} {writes : List BitWrite}
  {flags : List Bool}

/-! ### One write -/

/-- **`t` is `s` with a bit written at `i`**, and with nothing else but what it takes to
cover `i`. -/
structure Writes (s : Bitmap) (i : Nat) (one : Bool) (t : Bitmap) : Prop where
  canonical : t.Canonical
  size : t.size = max s.size (i + 1)
  contains : ∀ j, t.contains j = if j = i then one else s.contains j

theorem Canonical.writes_insert (h : s.Canonical) (i : Nat) : s.Writes i true (s.insert i) where
  canonical := h.insert i
  size := size_insert s i
  contains j := by
    rw [(h.insert i).contains_eq, stored_insert h.wellSized, h.contains_eq]
    split
    · next heq => rw [heq, beq_self_eq_true, Bool.or_true]
    · next hne => rw [beq_false_of_ne hne, Bool.or_false]

theorem Canonical.writes_erase (h : s.Canonical) (i : Nat) : s.Writes i false (s.erase i) where
  canonical := h.erase i
  size := size_erase s i
  contains j := by
    rw [(h.erase i).contains_eq, stored_erase h.wellSized, h.contains_eq]
    split
    · next heq => rw [heq, bne_self_eq_false, Bool.and_false]
    · next hne => rw [bne_iff_ne.2 hne, Bool.and_true]

/-- Counting over more indexes than the bitmap covers changes nothing. -/
theorem count_eq_countP (s : Bitmap) {n : Nat} (hn : s.size ≤ n) :
    s.count = (List.range n).countP s.contains := by
  rw [count_eq_length, ← Block.filter_range_of_le s.stored hn, List.countP_eq_length_filter]
  refine congrArg List.length (List.filter_congr fun i _ => ?_)
  rw [contains_eq, Bool.and_comm]

/-- **The count moves with the one bit that was written.** -/
theorem Writes.count (h : s.Writes i one t) :
    t.count + (s.contains i).toNat = s.count + one.toNat := by
  have hsize := h.size
  have hbit : t.contains i = one := by rw [h.contains, if_pos rfl]
  -- Both are counted over the indexes that `t` covers.
  rw [t.count_eq_countP (Nat.le_refl _), s.count_eq_countP (n := t.size) (by omega), ← hbit]
  refine countP_add_of_eq_except List.nodup_range (List.mem_range.2 (by omega)) fun j hne => ?_
  rw [h.contains, if_neg hne]

/-- Writes a bit and tells whether it changed. -/
def write? (s : Bitmap) (w : BitWrite) : Except Error (Bool × Bitmap) :=
  if w.one then s.set? w.index else s.unset? w.index

theorem Canonical.write?_of_lt (h : s.Canonical) (hw : w.index < maxIndex) :
    ∃ t, s.write? w = .ok (s.contains w.index != w.one, t) ∧ s.Writes w.index w.one t := by
  obtain ⟨i, one⟩ := w
  rw [h.contains_eq]
  cases one with
  | false =>
    refine ⟨s.erase i, ?_, h.writes_erase i⟩
    rw [write?, if_neg Bool.false_ne_true, unset?_eq, if_pos hw, Bool.bne_false]
  | true =>
    refine ⟨s.insert i, ?_, h.writes_insert i⟩
    rw [write?, if_pos rfl, set?_eq, if_pos hw, Bool.bne_true]

theorem write?_of_le (s : Bitmap) (hw : maxIndex ≤ w.index) :
    s.write? w = .error (.noRoom w.index) := by
  have hroom : ¬ w.index < maxIndex := Nat.not_lt.2 hw
  rw [write?, set?_eq, unset?_eq, if_neg hroom, if_neg hroom, ite_self]

/-! ### Sequences of writes -/

/-- Goes on with the bitmap that was made, or with the one before the refusal. -/
def attempt (s : Bitmap) (w : BitWrite) : Except Error Bool × Bitmap :=
  match s.write? w with
  | .ok (changed, t) => (.ok changed, t)
  | .error cause => (.error cause, s)

/-- Writes bits one after the other. -/
def writeAll (s : Bitmap) : List BitWrite → List (Except Error Bool) × Bitmap
  | [] => ([], s)
  | w :: rest =>
    let (answer, t) := s.attempt w
    let (answers, t) := t.writeAll rest
    (answer :: answers, t)

theorem writeAll_cons (s : Bitmap) (w : BitWrite) (rest : List BitWrite) :
    s.writeAll (w :: rest) =
      ((s.attempt w).1 :: ((s.attempt w).2.writeAll rest).1,
        ((s.attempt w).2.writeAll rest).2) :=
  rfl

/-- A sequence can be stopped anywhere and gone on with. -/
theorem writeAll_append (s : Bitmap) (past rest : List BitWrite) :
    s.writeAll (past ++ rest) =
      ((s.writeAll past).1 ++ ((s.writeAll past).2.writeAll rest).1,
        ((s.writeAll past).2.writeAll rest).2) := by
  induction past generalizing s with
  | nil => rfl
  | cons w past ih => rw [List.cons_append, writeAll_cons, writeAll_cons, ih, List.cons_append]

theorem Canonical.attempt_of_lt (h : s.Canonical) (hw : w.index < maxIndex) :
    ∃ t, s.attempt w = (.ok (s.contains w.index != w.one), t) ∧ s.Writes w.index w.one t := by
  obtain ⟨t, hwrite, hwrites⟩ := h.write?_of_lt hw
  exact ⟨t, by rw [attempt, hwrite], hwrites⟩

/-- **A write that is refused leaves the bitmap as it was.** -/
theorem attempt_of_le (s : Bitmap) (hw : maxIndex ≤ w.index) :
    s.attempt w = (.error (.noRoom w.index), s) := by
  rw [attempt, write?_of_le s hw]

/-- **The writes of a list lead from one bitmap to another**, and the flags tell which of
them changed a bit. -/
inductive Chain : Bitmap → List BitWrite → List Bool → Bitmap → Prop
  | nil (s : Bitmap) : Chain s [] [] s
  | cons {s t u : Bitmap} {w : BitWrite} {writes : List BitWrite} {flags : List Bool}
      (hwrites : s.Writes w.index w.one t) (hrest : Chain t writes flags u) :
      Chain s (w :: writes) ((s.contains w.index != w.one) :: flags) u

/-- **As long as there is room, a sequence is a chain of writes.** -/
theorem Canonical.chain_writeAll (h : s.Canonical) (hroom : ∀ w ∈ writes, w.index < maxIndex) :
    ∃ flags t, s.writeAll writes = (flags.map .ok, t) ∧ Chain s writes flags t := by
  induction writes generalizing s with
  | nil => exact ⟨[], s, rfl, .nil s⟩
  | cons w writes ih =>
    obtain ⟨hw, hrest⟩ := List.forall_mem_cons.1 hroom
    obtain ⟨t, hattempt, hwrites⟩ := h.attempt_of_lt hw
    obtain ⟨flags, u, hall, hchain⟩ := ih hwrites.canonical hrest
    refine ⟨_, u, ?_, .cons hwrites hchain⟩
    rw [writeAll_cons, hattempt, hall]
    rfl

/-- How many of the writes put the bit `one` where the other one was. -/
def changes (one : Bool) (writes : List BitWrite) (flags : List Bool) : Nat :=
  (writes.zip flags).countP fun p => p.1.one == one && p.2

theorem changes_cons (one : Bool) (w : BitWrite) (writes : List BitWrite) (changed : Bool)
    (flags : List Bool) :
    changes one (w :: writes) (changed :: flags) =
      changes one writes flags + (w.one == one && changed).toNat := by
  rw [changes, List.zip_cons_cons, List.countP_cons, changes]
  cases w.one == one && changed <;> rfl

namespace Chain

theorem canonical (h : Chain s writes flags t) (hs : s.Canonical) : t.Canonical := by
  induction h with
  | nil => exact hs
  | cons hwrites _ ih => exact ih hwrites.canonical

theorem length_flags (h : Chain s writes flags t) : flags.length = writes.length := by
  induction h with
  | nil => rfl
  | cons _ _ ih => rw [List.length_cons, List.length_cons, ih]

/-- **At every index is what was written there last**, or else what was there before. -/
theorem contains (h : Chain s writes flags t) (j : Nat) :
    t.contains j = (BitWrite.last? writes j).getD (s.contains j) := by
  induction h with
  | nil => rfl
  | cons hwrites _ ih =>
    rw [ih, BitWrite.last?_cons, Option.getD_or, hwrites.contains]
    split <;> rfl

/-- **The size covers the greatest index that was written at**, and no more than it has
to. -/
theorem size (h : Chain s writes flags t) : t.size = max s.size (BitWrite.frontier writes) := by
  induction h with
  | nil => exact (Nat.max_eq_left (Nat.zero_le _)).symm
  | cons hwrites _ ih => rw [ih, hwrites.size, BitWrite.frontier_cons, Nat.max_assoc]

/-- **The count follows the flags.** -/
theorem count (h : Chain s writes flags t) :
    t.count + changes false writes flags = s.count + changes true writes flags := by
  induction h with
  | nil => rfl
  | @cons s _ _ w _ _ hwrites _ ih =>
    have hstep := hwrites.count
    rw [changes_cons, changes_cons]
    -- The bit before and the bit written: the flag is up where they differ.
    generalize s.contains w.index = before, w.one = one at hstep ⊢
    cases before <;> cases one <;> simp at hstep ⊢ <;> omega

/-- **The last writes and the greatest index determine the end**, whatever the order of the
writes and however many of them there were. -/
theorem unique {writes' : List BitWrite} {flags' : List Bool} (hs : s.Canonical)
    (h : Chain s writes flags t) (h' : Chain s writes' flags' u)
    (hlast : ∀ j, BitWrite.last? writes j = BitWrite.last? writes' j)
    (hfrontier : BitWrite.frontier writes = BitWrite.frontier writes') : t = u := by
  have ht := h.canonical hs
  have hu := h'.canonical hs
  refine ext_stored ht.wellSized hu.wellSized ?_ fun j => ?_
  · rw [h.size, h'.size, hfrontier]
  · rw [← ht.contains_eq, ← hu.contains_eq, h.contains, h'.contains, hlast]

end Chain

/-! ### What becomes of each write -/

theorem length_writeAll (s : Bitmap) (writes : List BitWrite) :
    (s.writeAll writes).1.length = writes.length := by
  induction writes generalizing s with
  | nil => rfl
  | cons w writes ih => rw [writeAll_cons, List.length_cons, ih, List.length_cons]

theorem Canonical.writeAll (h : s.Canonical) (hroom : ∀ w ∈ writes, w.index < maxIndex) :
    (s.writeAll writes).2.Canonical := by
  obtain ⟨flags, t, hall, hchain⟩ := h.chain_writeAll hroom
  rw [hall]
  exact hchain.canonical h

/-- **Each write is answered by whether the bit at its index is another one than before.** -/
theorem Canonical.getElem?_writeAll (h : s.Canonical) {past : List BitWrite}
    (hpast : ∀ w ∈ past, w.index < maxIndex) (hw : w.index < maxIndex) (rest : List BitWrite) :
    (s.writeAll (past ++ w :: rest)).1[past.length]? =
      some (.ok ((s.writeAll past).2.contains w.index !=
        (s.writeAll (past ++ [w])).2.contains w.index)) := by
  obtain ⟨t, hattempt, hwrites⟩ := (h.writeAll hpast).attempt_of_lt hw
  have hafter : (s.writeAll (past ++ [w])).2 = t := by
    rw [writeAll_append, writeAll_cons, hattempt]
    rfl
  have hbit : t.contains w.index = w.one := by rw [hwrites.contains, if_pos rfl]
  rw [hafter, hbit, writeAll_append, writeAll_cons, hattempt, ← s.length_writeAll past,
    List.getElem?_append_right (Nat.le_refl _), Nat.sub_self]
  rfl

/-- **Writes at different indexes commute**, and each is answered as it would be without the
other. -/
theorem Canonical.writeAll_swap (h : s.Canonical) {v w : BitWrite} (hne : v.index ≠ w.index)
    (hv : v.index < maxIndex) (hw : w.index < maxIndex) :
    ∃ u, s.writeAll [v, w] = ([(s.attempt v).1, (s.attempt w).1], u) ∧
      s.writeAll [w, v] = ([(s.attempt w).1, (s.attempt v).1], u) := by
  obtain ⟨t, htv, hv₁⟩ := h.attempt_of_lt hv
  obtain ⟨u, huw, hw₂⟩ := hv₁.canonical.attempt_of_lt hw
  obtain ⟨t', htw, hw₁⟩ := h.attempt_of_lt hw
  obtain ⟨u', huv, hv₂⟩ := hw₁.canonical.attempt_of_lt hv
  obtain rfl : u = u' :=
    Chain.unique h (.cons hv₁ (.cons hw₂ (.nil u))) (.cons hw₁ (.cons hv₂ (.nil u')))
      (BitWrite.last?_swap hne []) (BitWrite.frontier_swap v w [])
  rw [htv, htw]
  -- The write that comes first is at another index, so the second does not see it.
  refine ⟨u, ?_, ?_⟩
  · rw [writeAll_cons, htv, writeAll_cons, huw, hv₁.contains, if_neg (Ne.symm hne)]
    rfl
  · rw [writeAll_cons, htw, writeAll_cons, huv, hw₁.contains, if_neg hne]
    rfl

/-- **What a sequence of writes does.** As long as there is room, all of them are granted.
At every index is then what was written there last, or what was there before; the size
covers the greatest index written at, in as many blocks as it takes. Each write is answered
by whether the bit at its index changed with it, and from these answers the count can be
followed. Two more writes at different indexes can be made in either order: each gets the
same answer, and the bitmap is the same. A write at the index that no bitmap can grow to
cover is refused and changes nothing. -/
theorem bits_of_writeAll (hs : s.Canonical) (writes : List BitWrite)
    (hroom : ∀ w ∈ writes, w.index < maxIndex) :
    ∃ flags t, s.writeAll writes = (flags.map .ok, t) ∧ flags.length = writes.length ∧
      (∀ j, t.contains j = (BitWrite.last? writes j).getD (s.contains j)) ∧
      t.size = max s.size (BitWrite.frontier writes) ∧
      t.blocks.size = blocksFor t.size ∧ t.Canonical ∧
      (∀ past w rest, writes = past ++ w :: rest →
        flags[past.length]? = some ((s.writeAll past).2.contains w.index !=
          (s.writeAll (past ++ [w])).2.contains w.index)) ∧
      t.count + changes false writes flags = s.count + changes true writes flags ∧
      (∀ v w, v.index ≠ w.index → v.index < maxIndex → w.index < maxIndex →
        ∃ u, t.writeAll [v, w] = ([(t.attempt v).1, (t.attempt w).1], u) ∧
          t.writeAll [w, v] = ([(t.attempt w).1, (t.attempt v).1], u)) ∧
      ∀ one, t.attempt ⟨maxIndex, one⟩ = (.error (.noRoom maxIndex), t) := by
  obtain ⟨flags, t, hall, hchain⟩ := hs.chain_writeAll hroom
  have ht := hchain.canonical hs
  refine ⟨flags, t, hall, hchain.length_flags, hchain.contains, hchain.size, ht.wellSized, ht, ?_,
    hchain.count, fun v w hne hv hw => ht.writeAll_swap hne hv hw,
    fun one => attempt_of_le t (Nat.le_refl _)⟩
  rintro past w rest rfl
  have hpast : ∀ v ∈ past, v.index < maxIndex := fun v hv => hroom v (List.mem_append_left _ hv)
  have hw : w.index < maxIndex := hroom w (List.mem_append_right _ List.mem_cons_self)
  have hanswer := hs.getElem?_writeAll hpast hw rest
  rw [hall, List.getElem?_map, Option.map_eq_some_iff] at hanswer
  obtain ⟨flag, hflag, heq⟩ := hanswer
  rw [hflag, Except.ok.inj heq]

/-- Ten ones are written at far past their end, there again, further on with a zero, and
then in place. -/
theorem bits_of_writeAll_growing :
    ∃ writes flags t, writes = [⟨2500, true⟩, ⟨2500, true⟩, ⟨4000, false⟩, ⟨3, false⟩] ∧
      (ones 10).Canonical ∧ (∀ w ∈ writes, w.index < maxIndex) ∧
      (ones 10).writeAll writes = (flags.map .ok, t) ∧ flags = [true, false, false, true] ∧
      (∀ j, t.contains j = (BitWrite.last? writes j).getD ((ones 10).contains j)) ∧
      t.size = 4001 ∧ t.blocks.size = 4 ∧ t.count = 10 ∧
      (t.writeAll [⟨5000, true⟩, ⟨3, true⟩]).2 = (t.writeAll [⟨3, true⟩, ⟨5000, true⟩]).2 ∧
      t.attempt ⟨maxIndex, true⟩ = (.error (.noRoom maxIndex), t) := by
  obtain ⟨writes, hwrites⟩ : ∃ writes : List BitWrite,
      writes = [⟨2500, true⟩, ⟨2500, true⟩, ⟨4000, false⟩, ⟨3, false⟩] := ⟨_, rfl⟩
  have hs : (ones 10).Canonical := (wellSized_zeros 10).canonical_fill
  have hroom : ∀ w ∈ writes, w.index < maxIndex := by
    rw [hwrites]
    decide
  obtain ⟨flags, t, hall, -, hbits, hsize, hblocks, -, -, hcount, hswap, hrefused⟩ :=
    bits_of_writeAll hs writes hroom
  have hanswers : ((ones 10).writeAll writes).1 =
      [true, false, false, true].map Except.ok := by
    rw [hwrites]
    decide +kernel
  have hflags : flags = [true, false, false, true] := by
    rw [hall] at hanswers
    exact List.map_injective_iff.2 (fun _ _ => Except.ok.inj) hanswers
  have hsize : t.size = 4001 := by
    rw [hsize, hwrites]
    rfl
  obtain ⟨u, hfar, hnear⟩ := hswap ⟨5000, true⟩ ⟨3, true⟩ (by decide) (by decide) (by decide)
  refine ⟨writes, flags, t, hwrites, hs, hroom, hall, hflags, hbits, hsize, ?_, ?_, ?_,
    hrefused true⟩
  · rw [hblocks, hsize]
    rfl
  · have hten : (ones 10).count = 10 := by decide +kernel
    have hnews : changes false writes flags = 1 ∧ changes true writes flags = 1 := by
      rw [hwrites, hflags]
      decide
    rw [hnews.1, hnews.2, hten] at hcount
    exact Nat.add_right_cancel hcount
  · rw [hfar, hnear]

end Bitmap

end FacetIndex
