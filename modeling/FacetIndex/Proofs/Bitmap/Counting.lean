import FacetIndex.Proofs.Bitmap.Built
import FacetIndex.Proofs.Bitmap.Members
import Mathlib.Data.Set.Card

/-!
# Counting a bitmap, and counting two of them

There are several ways to count a bitmap, and each goes over its bits in a manner of its
own:

| way | how it goes |
|---|---|
| `FacetIndex.Bitmap.count` | block by block, masked by the active length |
| `FacetIndex.Bitmap.complementCount` | that count, subtracted from the size |
| `FacetIndex.Bitmap.toList` | word by word, each searched for its first one |
| `FacetIndex.Bitmap.isEmpty` | word by word, not masked |
| `FacetIndex.Bitmap.combineCount` | two bitmaps at a time, not masked either |

Those that mask count the members below the size (`FacetIndex.Bitmap.count_eq_card`), the
others all members (`FacetIndex.Bitmap.card_members`,
`FacetIndex.Bitmap.combineCount_eq_card`). In a canonical bitmap these are the same, so that
all ways agree there (`FacetIndex.Bitmap.counting_of_wellSized`), and what is known of the
numbers of elements of finite sets is known of the counts, whether the sets were built or
not (`FacetIndex.Bitmap.identities_of_counts`).
-/

namespace FacetIndex.Bitmap

variable {s t : Bitmap}

/-! ### One bitmap -/

/-- **The count is the number of members below the size.** -/
theorem count_eq_card (s : Bitmap) : s.count = (s.members ∩ Finset.range s.size).card := by
  have hset : s.members ∩ Finset.range s.size =
      ((List.range s.size).filter s.stored).toFinset := by
    ext i
    rw [Finset.mem_inter, Finset.mem_range, mem_members, List.mem_toFinset, List.mem_filter,
      List.mem_range, and_comm]
  rw [hset, List.toFinset_card_of_nodup (List.nodup_range.filter _), count_eq_length]

theorem Canonical.count_eq_card (h : s.Canonical) : s.count = s.members.card := by
  rw [Bitmap.count_eq_card, Finset.inter_eq_left.2 h.members_subset]

/-- The indexes that can be seen are finitely many, and the count is their number. -/
theorem encard_contains (s : Bitmap) : {i | s.contains i = true}.encard = s.count := by
  have hset : {i | s.contains i = true} = ↑(s.members ∩ Finset.range s.size) := by
    ext i
    exact contains_iff_mem.trans Finset.mem_coe.symm
  rw [hset, Set.encard_coe_eq_coe_finsetCard, ← count_eq_card]

/-- The list goes on into the padding, and the count does not. -/
theorem count_eq_countP_toList (s : Bitmap) :
    s.count = s.toList.countP fun i => decide (i < s.size) := by
  have hset : s.members ∩ Finset.range s.size =
      (s.toList.filter fun i => decide (i < s.size)).toFinset := by
    ext i
    rw [Finset.mem_inter, Finset.mem_range, members, List.mem_toFinset, List.mem_toFinset,
      List.mem_filter, decide_eq_true_eq]
  rw [count_eq_card, hset, List.toFinset_card_of_nodup (s.nodup_toList.filter _),
    List.countP_eq_length_filter]

/-- Growing adds zeros. -/
theorem Canonical.count_growTo (h : s.Canonical) (n : Nat) : (s.growTo n).count = s.count := by
  rw [(h.growTo n).count_eq_card, h.count_eq_card, members_growTo]

/-- **Of the indexes that a bitmap covers, each is in it or in its complement.** -/
theorem WellSized.count_complement (h : s.WellSized) : s.complement.count + s.count = s.size := by
  have hsplit := Finset.card_sdiff_add_card_inter (Finset.range s.size) s.members
  rw [Finset.card_range, Finset.inter_comm, ← count_eq_card] at hsplit
  rwa [h.canonical_complement.count_eq_card, members_complement h]

/-! ### No one at all -/

/-- All words are zero exactly if there is no member. -/
theorem isEmpty_iff (s : Bitmap) : s.isEmpty = true ↔ s.members = ∅ := by
  rw [isEmpty, Array.all_eq_true, Finset.eq_empty_iff_forall_notMem]
  constructor
  · intro h i
    rw [mem_members, Bool.not_eq_true]
    rcases Nat.lt_or_ge (i / 1024) s.blocks.size with hlt | hge
    · rw [stored_eq_of_lt s hlt, (Block.isEmpty_iff _).1 (h _ hlt), Block.contains_empty]
    · exact stored_of_le s hge
  · intro h k hk
    refine (Block.isEmpty_iff _).2 (Block.ext_contains fun i hi => ?_)
    have hnot := h (1024 * k + i)
    rwa [mem_members, Bool.not_eq_true, stored_of_block s hk hi, ← Block.contains_empty i] at hnot

theorem Canonical.isEmpty_iff_count (h : s.Canonical) : s.isEmpty = true ↔ s.count = 0 := by
  rw [isEmpty_iff, h.count_eq_card, Finset.card_eq_zero]

/-- **A canonical bitmap without a one is the bitmap of zeros of its size**, whatever
became of it before. -/
theorem Canonical.count_eq_zero_iff (h : s.Canonical) : s.count = 0 ↔ s = zeros s.size := by
  rw [h.count_eq_card, Finset.card_eq_zero]
  constructor
  · intro hnone
    exact ext_members h.wellSized (wellSized_zeros s.size) rfl
      (hnone.trans (members_zeros s.size).symm)
  · intro heq
    rw [heq, members_zeros]

/-- **All ways to count a bitmap agree**, whichever operators it was built with
(`FacetIndex.Bitmap.Built.wellSized`). The count is the number of indexes that can be seen,
and of those in the list it is the number below the size; it is no more than the size, so
that what is left is the count of the complement. This is so whatever the padding holds. If
it holds nothing, the list has just the indexes that can be seen, as many as the count
says; and there is no one, wherever it is looked for, exactly if the bitmap is that of as
many zeros. -/
theorem counting_of_wellSized (h : s.WellSized) :
    {i | s.contains i = true}.encard = s.count ∧
      s.count = s.toList.countP (fun i => decide (i < s.size)) ∧
      s.count ≤ s.size ∧
      s.complementCount = s.size - s.count ∧ s.complementCount = s.complement.count ∧
      ((∀ i, s.size ≤ i → s.stored i = false) →
        s.count = s.toList.length ∧ (∀ i, i ∈ s.toList ↔ s.contains i = true) ∧
          (s.isEmpty = true ↔ s.count = 0) ∧ (s.count = 0 ↔ s = zeros s.size)) := by
  have hcomplement : s.complementCount = s.complement.count := by
    have hsplit := h.count_complement
    rw [complementCount]
    omega
  refine ⟨s.encard_contains, s.count_eq_countP_toList, s.count_le_size, rfl, hcomplement, ?_⟩
  intro hpadding
  have hs : s.Canonical := ⟨h, hpadding⟩
  refine ⟨hs.count_eq_length_toList, fun i => ?_, hs.isEmpty_iff_count, hs.count_eq_zero_iff⟩
  rw [mem_toList_iff, hs.contains_eq]

/-- A bitmap over two blocks that was built with an operator that makes ones of zeros: all
of its padding is ones, and it is listed but not counted. Another one of this size was
emptied one by one. -/
theorem counting_of_wellSized_nor :
    ∃ s t : Bitmap, s = combine ⟨fun v w => ~~~(v ||| w), .readAsZero⟩ (ones 3) (zeros 1030) ∧
      Built (fun _ => True) s ∧ s.WellSized ∧ s.toList.length = 2045 ∧ s.count = 1027 ∧
      {i | s.contains i = true}.encard = 1027 ∧
      s.toList.countP (fun i => decide (i < s.size)) = 1027 ∧ s.complement.count = 3 ∧
      t = ((zeros 1030).insert 1029).erase 1029 ∧ t.WellSized ∧
      (∀ i, t.size ≤ i → t.stored i = false) ∧ t.count = 0 ∧ t.isEmpty = true ∧
      t = zeros 1030 := by
  obtain ⟨s, hs⟩ : ∃ s : Bitmap,
      s = combine ⟨fun v w => ~~~(v ||| w), .readAsZero⟩ (ones 3) (zeros 1030) := ⟨_, rfl⟩
  obtain ⟨t, ht⟩ : ∃ t : Bitmap, t = ((zeros 1030).insert 1029).erase 1029 := ⟨_, rfl⟩
  have hbuilt : Built (fun _ => True) s := hs ▸ .combine (.ones 3) (.zeros 1030) trivial
  have htc : t.Canonical := ht ▸ ((canonical_zeros 1030).insert 1029).erase 1029
  have hcount : s.count = 1027 := by
    rw [hs]
    decide +kernel
  have hsize : s.size = 1030 := by
    rw [hs]
    rfl
  have hnone : t.count = 0 := by
    rw [ht]
    decide +kernel
  obtain ⟨hseen, hlisted, -, hleft, hlacks, -⟩ := counting_of_wellSized hbuilt.wellSized
  obtain ⟨-, -, -, -, -, hclean⟩ := counting_of_wellSized htc.wellSized
  obtain ⟨-, -, hempty, hzeros⟩ := hclean htc.padding
  refine ⟨s, t, hs, hbuilt, hbuilt.wellSized, ?_, hcount, ?_, ?_, ?_, ht, htc.wellSized,
    htc.padding, hnone, hempty.2 hnone, ?_⟩
  · rw [hs, ← combineCount_eq_length]
    decide +kernel
  · rw [hseen, hcount]
    rfl
  · rw [← hlisted, hcount]
  · rw [← hlacks, hleft, hcount, hsize]
  · have heq := hzeros.1 hnone
    rwa [show t.size = 1030 by rw [ht]; rfl] at heq

/-! ### Two bitmaps -/

/-- **The count that builds nothing is the number of members of the combination.** -/
theorem combineCount_eq_card (op : WordOp) (s t : Bitmap) :
    combineCount op s t = (combine op s t).members.card := by
  rw [combineCount_eq_length, card_members]

theorem interCount_eq_card (s t : Bitmap) :
    s.interCount t = (s.members ∩ t.members).card := by
  rw [← members_inter]
  exact combineCount_eq_card .and s t

theorem unionCount_eq_card (s t : Bitmap) :
    s.unionCount t = (s.members ∪ t.members).card := by
  rw [← members_union]
  exact combineCount_eq_card .or s t

theorem diffCount_eq_card (s t : Bitmap) :
    s.diffCount t = (s.members \ t.members).card := by
  rw [← members_diff]
  exact combineCount_eq_card .diff s t

open scoped symmDiff in
theorem symmDiffCount_eq_card (s t : Bitmap) :
    s.symmDiffCount t = (s.members ∆ t.members).card := by
  rw [← members_symmDiff]
  exact combineCount_eq_card .xor s t

/-- What both have is counted twice if each is counted. -/
theorem interCount_add_unionCount (s t : Bitmap) :
    s.interCount t + s.unionCount t = s.members.card + t.members.card := by
  rw [interCount_eq_card, unionCount_eq_card, Finset.card_inter_add_card_union]

theorem diffCount_add_interCount (s t : Bitmap) :
    s.diffCount t + s.interCount t = s.members.card := by
  rw [diffCount_eq_card, interCount_eq_card, Finset.card_sdiff_add_card_inter]

/-- What exactly one of them has, the first or the second one has and the other lacks. -/
theorem symmDiffCount_eq_add (s t : Bitmap) :
    s.symmDiffCount t = s.diffCount t + t.diffCount s := by
  rw [symmDiffCount_eq_card, diffCount_eq_card, diffCount_eq_card]
  exact Finset.card_union_of_disjoint disjoint_sdiff_sdiff

theorem symmDiffCount_add_interCount (s t : Bitmap) :
    s.symmDiffCount t + s.interCount t = s.unionCount t := by
  have hboth : s.members ∩ t.members ⊆ s.members ∪ t.members :=
    Finset.inter_subset_left.trans Finset.subset_union_left
  rw [symmDiffCount_eq_card, interCount_eq_card, unionCount_eq_card, symmDiff_eq_sup_sdiff_inf]
  exact Finset.card_sdiff_add_card_eq_card hboth

theorem diffCount_eq_zero_iff (s t : Bitmap) :
    s.diffCount t = 0 ↔ s.members ⊆ t.members := by
  rw [diffCount_eq_card, Finset.card_eq_zero, Finset.sdiff_eq_empty_iff_subset]

/-- **Identities between the counts.** Two canonical bitmaps of any sizes are counted
together without building anything, and the counts relate as numbers of elements do: what
both have and what either has make up the two; what exactly one has and what both have is
what either has; what the first has is what the second lacks of it or has as well; what
exactly one has is what the one or the other lacks. So the intersection counts no more than
either, the union no less, and there is nothing in the first that the second lacks exactly
if every index of the first is in the second. -/
theorem identities_of_counts (hs : s.Canonical) (ht : t.Canonical) :
    s.interCount t + s.unionCount t = s.count + t.count ∧
      s.symmDiffCount t + s.interCount t = s.unionCount t ∧
      s.diffCount t + s.interCount t = s.count ∧
      s.symmDiffCount t = s.diffCount t + t.diffCount s ∧
      s.interCount t ≤ min s.count t.count ∧ max s.count t.count ≤ s.unionCount t ∧
      (s.diffCount t = 0 ↔ ∀ i, s.contains i = true → t.contains i = true) := by
  have hsum := interCount_add_unionCount s t
  have hleft := diffCount_add_interCount s t
  rw [← hs.count_eq_card, ← ht.count_eq_card] at hsum
  rw [← hs.count_eq_card] at hleft
  have hle : s.interCount t ≤ min s.count t.count := by
    rw [interCount_eq_card, hs.count_eq_card, ht.count_eq_card]
    exact le_min (Finset.card_le_card Finset.inter_subset_left)
      (Finset.card_le_card Finset.inter_subset_right)
  refine ⟨hsum, symmDiffCount_add_interCount s t, hleft, symmDiffCount_eq_add s t, hle, ?_, ?_⟩
  · -- the union makes up for what the intersection leaves out
    omega
  · rw [diffCount_eq_zero_iff]
    refine forall_congr' fun i => ?_
    rw [hs.contains_iff_mem, ht.contains_iff_mem]

/-- Two bitmaps over two blocks and one that have nine indexes in common. Their counts and
this number settle all the others. -/
theorem identities_of_counts_overlapping :
    ∃ s t : Bitmap, s = (ones 1030).erase 4 ∧ t = ones 10 ∧ s.Canonical ∧ t.Canonical ∧
      s.count = 1029 ∧ t.count = 10 ∧ s.interCount t = 9 ∧ s.unionCount t = 1030 ∧
      s.diffCount t = 1020 ∧ s.symmDiffCount t = 1021 ∧ t.diffCount s = 1 ∧
      ¬ ∀ i, s.contains i = true → t.contains i = true := by
  have hs : ((ones 1030).erase 4).Canonical := (wellSized_zeros 1030).canonical_fill.erase 4
  have ht : (ones 10).Canonical := (wellSized_zeros 10).canonical_fill
  have hlong : ((ones 1030).erase 4).count = 1029 := by decide +kernel
  have hshort : (ones 10).count = 10 := by decide +kernel
  have hboth : ((ones 1030).erase 4).interCount (ones 10) = 9 := by decide +kernel
  obtain ⟨hsum, hsymm, hdiff, hadd, -, -, hsubset⟩ := identities_of_counts hs ht
  refine ⟨_, _, rfl, rfl, hs, ht, hlong, hshort, hboth, by omega, by omega, by omega, by omega, ?_⟩
  rw [← hsubset]
  omega

end FacetIndex.Bitmap
