import FacetIndex.Proofs.Bitmap.Counting

/-!
# When two bitmaps are equal

Bitmaps are compared word by word, and what is in the words is more than can be seen of a
bitmap. The comparison is right all the same as long as nothing that cannot be seen makes a
difference: there must be no block too many or too few, and no one in the padding. This is
what `FacetIndex.Bitmap.Canonical` says, and of canonical bitmaps three things are the same
(`FacetIndex.Bitmap.Canonical.eq_iff_contains`, `FacetIndex.Bitmap.WellSized.eq_iff_toList`):
that the words agree; that the sizes and all visible bits agree; that the sizes and the
lists agree. The history of a bitmap does not come into it, be it that it was grown bit by
bit, collected, filled, combined or complemented, provided that the operators were the
standard ones (`FacetIndex.Bitmap.Built.canonical_of_standard`).

Other operators may leave ones in the padding. The list shows these and the visible bits do
not, so that two bitmaps may look the same and be listed differently. Filling and clearing
bring such a bitmap back: what they leave is a function of the size alone
(`FacetIndex.Bitmap.WellSized.fill_eq_ones`, `FacetIndex.Bitmap.WellSized.clear_eq_zeros`).
Nothing of the old contents is left to come into view when the bitmap is made to cover more.
-/

namespace FacetIndex.Bitmap

variable {s t : Bitmap}

/-! ### Equality -/

/-- **The size and the bits below it determine a canonical bitmap.** -/
theorem Canonical.ext_contains (hs : s.Canonical) (ht : t.Canonical) (hsize : s.size = t.size)
    (h : ∀ i, i < s.size → s.contains i = t.contains i) : s = t := by
  refine ext_stored hs.wellSized ht.wellSized hsize fun i => ?_
  rcases Nat.lt_or_ge i s.size with hi | hi
  · rw [← hs.contains_eq, ← ht.contains_eq, h i hi]
  · rw [hs.padding i hi, ht.padding i (hsize ▸ hi)]

theorem Canonical.eq_iff_contains (hs : s.Canonical) (ht : t.Canonical) :
    s = t ↔ s.size = t.size ∧ ∀ i, s.contains i = t.contains i := by
  constructor
  · rintro rfl
    exact ⟨rfl, fun _ => rfl⟩
  · rintro ⟨hsize, h⟩
    exact hs.ext_contains ht hsize fun i _ => h i

/-- The list tells of the padding as well, so here the right number of blocks is enough. -/
theorem WellSized.eq_iff_toList (hs : s.WellSized) (ht : t.WellSized) :
    s = t ↔ s.size = t.size ∧ s.toList = t.toList := by
  constructor
  · rintro rfl
    exact ⟨rfl, rfl⟩
  · rintro ⟨hsize, h⟩
    exact ext_members hs ht hsize (congrArg List.toFinset h)

/-- The standard operators leave nothing in the padding, whatever they are applied to. -/
theorem Built.canonical_of_standard
    (h : Built (· ∈ [WordOp.and, WordOp.or, WordOp.xor, WordOp.diff]) s) : s.Canonical :=
  h.canonical fun _ hop => WordOp.keepsZeros_of_standard hop

/-- **Equality is extensional.** Two bitmaps that were built in any way with the standard
operators are equal, as they are compared word by word, exactly if they have the same size
and show the same indexes, and exactly if they have the same size and the same list. For
bitmaps of one size it is enough to look at the indexes below it: if these agree, so do all
the blocks. -/
theorem beq_iff_of_built
    (hs : Built (· ∈ [WordOp.and, WordOp.or, WordOp.xor, WordOp.diff]) s)
    (ht : Built (· ∈ [WordOp.and, WordOp.or, WordOp.xor, WordOp.diff]) t) :
    ((s == t) = true ↔ s.size = t.size ∧ ∀ i, s.contains i = t.contains i) ∧
      ((s == t) = true ↔ s.size = t.size ∧ s.toList = t.toList) ∧
      (s.size = t.size → (∀ i, i < s.size → s.contains i = t.contains i) →
        s.blocks = t.blocks) := by
  have hsc : s.Canonical := hs.canonical_of_standard
  have htc : t.Canonical := ht.canonical_of_standard
  rw [beq_iff_eq]
  refine ⟨hsc.eq_iff_contains htc, hsc.wellSized.eq_iff_toList htc.wellSized, ?_⟩
  intro hsize h
  exact congrArg Bitmap.blocks (hsc.ext_contains htc hsize h)

/-- One bitmap was grown by putting two ones, the later one first; the other is the complement
of one that was filled and then lost these two. They have the same list, and so the same
bits and the same blocks. An operator that makes ones of zeros gives a bitmap that covers as
much and shows the same two indexes, and it is not equal. -/
theorem beq_iff_of_built_histories :
    ∃ s t u : Bitmap, s = (empty.insert 1029).insert 0 ∧
      t = (((ones 1030).erase 0).erase 1029).complement ∧
      u = combine ⟨fun v w => ~~~(v ||| w), .readAsZero⟩ s.complement empty ∧
      Built (· ∈ [WordOp.and, WordOp.or, WordOp.xor, WordOp.diff]) s ∧
      Built (· ∈ [WordOp.and, WordOp.or, WordOp.xor, WordOp.diff]) t ∧
      s.size = t.size ∧ s.toList = t.toList ∧ (s == t) = true ∧
      (∀ i, s.contains i = t.contains i) ∧ s.blocks = t.blocks ∧
      u.size = s.size ∧ u.count = s.count ∧ u.contains 0 = s.contains 0 ∧
      u.contains 1029 = s.contains 1029 ∧ (s == u) = false := by
  obtain ⟨s, hs⟩ : ∃ s : Bitmap, s = (empty.insert 1029).insert 0 := ⟨_, rfl⟩
  obtain ⟨t, ht⟩ : ∃ t : Bitmap, t = (((ones 1030).erase 0).erase 1029).complement := ⟨_, rfl⟩
  have hsb : Built (· ∈ [WordOp.and, WordOp.or, WordOp.xor, WordOp.diff]) s :=
    hs ▸ .edit (e := .set 0) (.edit (e := .set 1029) .empty rfl) rfl
  have htb : Built (· ∈ [WordOp.and, WordOp.or, WordOp.xor, WordOp.diff]) t :=
    ht ▸ .complement (.edit (e := .unset 1029) (.edit (e := .unset 0) (.ones 1030) rfl) rfl)
  have hsize : s.size = t.size := by
    rw [hs, ht]
    rfl
  have hlist : s.toList = t.toList := by
    rw [hs, ht]
    decide +kernel
  obtain ⟨hbits, hlists, hblocks⟩ := beq_iff_of_built hsb htb
  have heq : (s == t) = true := hlists.2 ⟨hsize, hlist⟩
  obtain ⟨-, hsame⟩ := hbits.1 heq
  refine ⟨s, t, _, hs, ht, rfl, hsb, htb, hsize, hlist, heq, hsame,
    hblocks hsize fun i _ => hsame i, ?_⟩
  rw [hs]
  decide +kernel

/-! ### Ones -/

theorem contains_ones (n i : Nat) : (ones n).contains i = decide (i < n) := by
  rw [(canonical_ones n).contains_eq, stored_ones]

theorem count_ones (n : Nat) : (ones n).count = n := by
  rw [(canonical_ones n).count_eq_card, members_ones, Finset.card_range]

theorem count_zeros (n : Nat) : (zeros n).count = 0 := by
  rw [(canonical_zeros n).count_eq_card, members_zeros, Finset.card_empty]

theorem isEmpty_zeros (n : Nat) : (zeros n).isEmpty = true :=
  (isEmpty_iff _).2 (members_zeros n)

/-- What is added to a bitmap of ones is zeros. -/
theorem toList_growTo_ones (n m : Nat) : ((ones n).growTo m).toList = List.range n := by
  rw [toList_eq_sort, members_growTo, members_ones, Finset.sort_range]

theorem count_growTo_ones (n m : Nat) : ((ones n).growTo m).count = n := by
  rw [(canonical_ones n).count_growTo, count_ones]

/-! ### Filling and clearing -/

/-- **A filled bitmap is that of as many ones**, whatever it held. -/
theorem WellSized.fill_eq_ones (h : s.WellSized) : s.fill = ones s.size := by
  refine ext_stored h.fill (canonical_ones s.size).wellSized rfl fun i => ?_
  rw [stored_fill h, stored_ones]

/-- **A cleared bitmap is that of as many zeros**, whatever it held. -/
theorem WellSized.clear_eq_zeros (h : s.WellSized) : s.clear = zeros s.size := by
  refine ext_stored h.clear (wellSized_zeros s.size) rfl fun i => ?_
  rw [stored_clear, stored_zeros]

/-- **Filling and clearing leave nothing but the size.** A bitmap that was built with any
operators at all (`FacetIndex.Bitmap.Built.wellSized`) is, once it is filled, the bitmap of
as many ones, and all that it covers is counted and shown; once it is cleared, it is the
bitmap of as many zeros. And a bitmap of ones that is made to cover more has as many ones as
before, lists just these, and lacks what was added. -/
theorem values_of_fill :
    (∀ s : Bitmap, s.WellSized →
        (s.fill = ones s.size ∧ s.fill.count = s.size ∧
          ∀ i, s.fill.contains i = decide (i < s.size)) ∧
        s.clear = zeros s.size ∧ s.clear.count = 0 ∧ s.clear.isEmpty = true) ∧
      ∀ n m, n ≤ m →
        ((ones n).growTo m).size = m ∧ ((ones n).growTo m).count = n ∧
          ((ones n).growTo m).complementCount = m - n ∧
          ((ones n).growTo m).toList = List.range n := by
  constructor
  · intro s h
    rw [h.fill_eq_ones, h.clear_eq_zeros]
    exact ⟨⟨rfl, count_ones s.size, contains_ones s.size⟩, rfl, count_zeros s.size,
      isEmpty_zeros s.size⟩
  · intro n m hnm
    have hsize : ((ones n).growTo m).size = m := by
      rw [size_growTo, size_ones, Nat.max_eq_right hnm]
    refine ⟨hsize, count_growTo_ones n m, ?_, toList_growTo_ones n m⟩
    rw [complementCount, hsize, count_growTo_ones]

/-- The padding of this bitmap is all ones, and they would come into view if it grew. Filled
first, it grows by zeros only. -/
theorem values_of_fill_padded :
    ∃ s : Bitmap, s = combine ⟨fun v w => ~~~(v ||| w), .readAsZero⟩ (ones 3) (zeros 1030) ∧
      Built (fun _ => True) s ∧ s.WellSized ∧ s.stored 1040 = true ∧
      (s.growTo 1100).contains 1040 = true ∧
      s.fill = ones 1030 ∧ s.clear = zeros 1030 ∧ 1030 ≤ 1100 ∧
      (s.fill.growTo 1100).complementCount = 70 ∧
      (s.fill.growTo 1100).toList = List.range 1030 := by
  obtain ⟨s, hs⟩ : ∃ s : Bitmap,
      s = combine ⟨fun v w => ~~~(v ||| w), .readAsZero⟩ (ones 3) (zeros 1030) := ⟨_, rfl⟩
  have hbuilt : Built (fun _ => True) s := hs ▸ .combine (.ones 3) (.zeros 1030) trivial
  have hsize : s.size = 1030 := by
    rw [hs]
    rfl
  obtain ⟨hforgets, hgrown⟩ := values_of_fill
  obtain ⟨⟨hfill, -, -⟩, hclear, -, -⟩ := hforgets s hbuilt.wellSized
  obtain ⟨-, -, hlacks, hlists⟩ := hgrown 1030 1100 (by decide)
  rw [hsize] at hfill hclear
  refine ⟨s, hs, hbuilt, hbuilt.wellSized, ?_, ?_, hfill, hclear, by decide, ?_, ?_⟩
  · rw [hs]
    decide +kernel
  · rw [hs]
    decide +kernel
  · rw [hfill, hlacks]
  · rw [hfill, hlists]

end FacetIndex.Bitmap
