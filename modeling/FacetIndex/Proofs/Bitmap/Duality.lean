import FacetIndex.Proofs.Bitmap.Counting

/-!
# Complements across unequal sizes

The complement of a bitmap is taken over what the bitmap itself covers, while a combination
covers what either of its operands does. So the laws of complements do not hold as they
stand: the complement of an intersection covers more than the complement of the shorter
operand, and past the end of this one it has ones where that has nothing. They hold once
both operands cover the larger of the two domains before they are complemented
(`FacetIndex.Bitmap.complementWithin`), and then as equations between bitmaps, with the
same blocks and the same size on both sides.

| law | what it asks for | theorem |
|---|---|---|
| complementing twice | nothing in the padding | `FacetIndex.Bitmap.Canonical.complement_complement` |
| the complement of an intersection | both widened | `FacetIndex.Bitmap.complement_inter` |
| the complement of a union | both widened | `FacetIndex.Bitmap.complement_union` |
| a difference as an intersection | the second one widened | `FacetIndex.Bitmap.Canonical.diff_eq_inter` |
| a symmetric difference as a difference | nothing | `FacetIndex.Bitmap.symmDiff_eq_diff` |

Each is the law of finite sets of the same form, read off the members. Ones in the padding
get in the way of two of them: of the first, because a complement forgets them
(`FacetIndex.Bitmap.members_complement_complement`), and of the fourth, because they may lie
further out than the complement reaches.
-/

namespace FacetIndex.Bitmap

variable {s t : Bitmap} {n : Nat}

/-! ### Complements over a larger domain -/

theorem WellSized.complementWithin (h : s.WellSized) (n : Nat) :
    (s.complementWithin n).WellSized :=
  (h.growTo n).complement

theorem size_complementWithin_of_le (hn : s.size ≤ n) : (s.complementWithin n).size = n := by
  rw [size_complementWithin, Nat.max_eq_right hn]

theorem members_complementWithin_of_le (h : s.WellSized) (hn : s.size ≤ n) :
    (s.complementWithin n).members = Finset.range n \ s.members := by
  rw [Bitmap.complementWithin, members_complement (h.growTo n), size_growTo, members_growTo,
    Nat.max_eq_right hn]

/-! ### Complementing twice -/

/-- **Complementing twice forgets what is in the padding**, and only this. -/
theorem members_complement_complement (h : s.WellSized) :
    s.complement.complement.members = s.members ∩ Finset.range s.size := by
  have hsize : s.complement.size = s.size := rfl
  rw [members_complement h.complement, members_complement h, hsize,
    Finset.sdiff_sdiff_self_left, Finset.inter_comm]

theorem stored_complement_complement (h : s.WellSized) (i : Nat) :
    s.complement.complement.stored i = (s.stored i && decide (i < s.size)) := by
  rw [Bool.eq_iff_iff, ← mem_members, members_complement_complement h, Finset.mem_inter,
    Finset.mem_range, mem_members, Bool.and_eq_true, decide_eq_true_eq]

/-- **Complementing twice gives a canonical bitmap back.** -/
theorem Canonical.complement_complement (h : s.Canonical) : s.complement.complement = s := by
  refine ext_members h.wellSized.complement.complement h.wellSized rfl ?_
  rw [members_complement_complement h.wellSized, Finset.inter_eq_left.2 h.members_subset]

/-- A bitmap has nothing in common with its complement, not even in the padding. -/
theorem interCount_complement (h : s.WellSized) : s.interCount s.complement = 0 := by
  rw [interCount_eq_card, members_complement h, Finset.inter_sdiff_self, Finset.card_empty]

/-! ### Complements of combinations -/

/-- Over the larger of two domains, complements are combined as their members are. -/
theorem complement_combine {op op' : WordOp} (hs : s.WellSized) (ht : t.WellSized)
    (hn : max s.size t.size = n)
    (h : Finset.range n \ (combine op s t).members =
      (combine op' (s.complementWithin n) (t.complementWithin n)).members) :
    (combine op s t).complement = combine op' (s.complementWithin n) (t.complementWithin n) := by
  obtain ⟨hsn, htn⟩ := Nat.max_le.1 hn.le
  have hboth : (combine op s t).WellSized := wellSized_combine op hs ht
  have hsize : (combine op s t).size = n := hn
  refine ext_members hboth.complement
    (wellSized_combine op' (hs.complementWithin n) (ht.complementWithin n)) ?_ ?_
  · rw [size_combine, size_complementWithin_of_le hsn, size_complementWithin_of_le htn,
      Nat.max_self]
    exact hsize
  · rw [members_complement hboth, hsize, h]

/-- **The complement of an intersection is the union of the complements**, over the larger
of the two domains. -/
theorem complement_inter (hs : s.WellSized) (ht : t.WellSized) (hn : max s.size t.size = n) :
    (s.inter t).complement = (s.complementWithin n).union (t.complementWithin n) := by
  obtain ⟨hsn, htn⟩ := Nat.max_le.1 hn.le
  refine complement_combine hs ht hn ?_
  show Finset.range n \ (s.inter t).members =
    ((s.complementWithin n).union (t.complementWithin n)).members
  rw [members_inter, members_union, members_complementWithin_of_le hs hsn,
    members_complementWithin_of_le ht htn, Finset.sdiff_inter_distrib_right]

/-- **The complement of a union is the intersection of the complements**, over the larger of
the two domains. -/
theorem complement_union (hs : s.WellSized) (ht : t.WellSized) (hn : max s.size t.size = n) :
    (s.union t).complement = (s.complementWithin n).inter (t.complementWithin n) := by
  obtain ⟨hsn, htn⟩ := Nat.max_le.1 hn.le
  refine complement_combine hs ht hn ?_
  show Finset.range n \ (s.union t).members =
    ((s.complementWithin n).inter (t.complementWithin n)).members
  rw [members_union, members_inter, members_complementWithin_of_le hs hsn,
    members_complementWithin_of_le ht htn, Finset.sdiff_union_distrib]

/-- **Taking a difference in one pass is complementing and intersecting**, provided that the
complement covers all that the first operand has. -/
theorem Canonical.diff_eq_inter (hs : s.Canonical) (ht : t.WellSized)
    (hn : max s.size t.size = n) : s.diff t = s.inter (t.complementWithin n) := by
  obtain ⟨hsn, htn⟩ := Nat.max_le.1 hn.le
  have hrange : s.members ⊆ Finset.range n :=
    hs.members_subset.trans (Finset.range_subset_range.2 hsn)
  refine ext_members (wellSized_combine .diff hs.wellSized ht)
    (wellSized_combine .and hs.wellSized (ht.complementWithin n)) ?_ ?_
  · change max s.size t.size = max s.size (t.complementWithin n).size
    rw [hn, size_complementWithin_of_le htn, Nat.max_eq_right hsn]
  · rw [members_diff, members_inter, members_complementWithin_of_le ht htn,
      ← Finset.inter_sdiff_assoc, Finset.inter_eq_left.2 hrange]

theorem symmDiff_eq_diff (hs : s.WellSized) (ht : t.WellSized) :
    s.symmDiff t = (s.union t).diff (s.inter t) := by
  have hunion : (s.union t).WellSized := wellSized_combine .or hs ht
  have hinter : (s.inter t).WellSized := wellSized_combine .and hs ht
  refine ext_members (wellSized_combine .xor hs ht) (wellSized_combine .diff hunion hinter) ?_ ?_
  · change max s.size t.size = max (max s.size t.size) (max s.size t.size)
    rw [Nat.max_self]
  · rw [members_symmDiff, members_diff, members_union, members_inter]
    exact symmDiff_eq_sup_sdiff_inf s.members t.members

/-! ### All laws -/

/-- **The laws of complements, for all sizes.** Two canonical bitmaps obey them exactly,
blocks and size, if each is made to cover the larger of the two domains where it is
complemented: complementing twice changes nothing, the complement of an intersection is the
union of the complements and that of a union their intersection, a difference is the
intersection with a complement, and a symmetric difference is the union without the
intersection. Of a bitmap that has ones in the padding, complementing twice leaves just
what is below the size, in the same blocks; and whatever the padding holds, no index is in
the bitmap and in its complement. -/
theorem laws_of_complement :
    (∀ s t : Bitmap, s.Canonical → t.Canonical →
        s.complement.complement = s ∧
          (s.inter t).complement =
            (s.growTo (max s.size t.size)).complement.union
              (t.growTo (max s.size t.size)).complement ∧
          (s.union t).complement =
            (s.growTo (max s.size t.size)).complement.inter
              (t.growTo (max s.size t.size)).complement ∧
          s.diff t = s.inter (t.growTo (max s.size t.size)).complement ∧
          s.symmDiff t = (s.union t).diff (s.inter t)) ∧
      ∀ s : Bitmap, s.WellSized →
        s.complement.complement.size = s.size ∧
          s.complement.complement.blocks.size = s.blocks.size ∧
          (∀ i, s.complement.complement.stored i = (s.stored i && decide (i < s.size))) ∧
          s.interCount s.complement = 0 := by
  constructor
  · intro s t hs ht
    exact ⟨hs.complement_complement, complement_inter hs.wellSized ht.wellSized rfl,
      complement_union hs.wellSized ht.wellSized rfl, hs.diff_eq_inter ht.wellSized rfl,
      symmDiff_eq_diff hs.wellSized ht.wellSized⟩
  · intro s h
    refine ⟨rfl, ?_, stored_complement_complement h, interCount_complement h⟩
    rw [h.complement.complement, h]
    rfl

/-- Index 1029 is in one operand and past the end of the other. So the complement of the
intersection has it, and the union of the complements as they are has not. An operator that
makes ones of zeros leaves some in the padding, and complementing twice takes them away. -/
theorem laws_of_complement_ragged :
    ∃ s t u : Bitmap, s = ones 3 ∧ t = (ones 1030).erase 1 ∧
      u = combine ⟨fun v w => ~~~(v ||| w), .readAsZero⟩ s t ∧
      s.Canonical ∧ t.Canonical ∧ (s.inter t).complement.contains 1029 = true ∧
      (s.complement.union t.complement).contains 1029 = false ∧
      (s.inter t).complement = (s.growTo 1030).complement.union (t.growTo 1030).complement ∧
      t.diff s = t.inter (s.growTo 1030).complement ∧
      Built (fun _ => True) u ∧ u.WellSized ∧ u.stored 1030 = true ∧
      u.complement.complement.stored 1030 = false ∧ u.interCount u.complement = 0 := by
  obtain ⟨s, hs⟩ : ∃ s : Bitmap, s = ones 3 := ⟨_, rfl⟩
  obtain ⟨t, ht⟩ : ∃ t : Bitmap, t = (ones 1030).erase 1 := ⟨_, rfl⟩
  obtain ⟨u, hu⟩ : ∃ u : Bitmap,
      u = combine ⟨fun v w => ~~~(v ||| w), .readAsZero⟩ s t := ⟨_, rfl⟩
  have hsc : s.Canonical := hs ▸ (wellSized_zeros 3).canonical_fill
  have htc : t.Canonical := ht ▸ (wellSized_zeros 1030).canonical_fill.erase 1
  have hsize : max s.size t.size = 1030 := by
    rw [hs, ht]
    rfl
  have hbuilt : Built (fun _ => True) u := by
    have htb : Built (fun _ => True) t := ht ▸ .edit (e := .unset 1) (.ones 1030) rfl
    exact hu ▸ .combine (hs ▸ .ones 3) htb trivial
  obtain ⟨hlaws, hpadding⟩ := laws_of_complement
  obtain ⟨-, hinter, -⟩ := hlaws s t hsc htc
  obtain ⟨-, -, -, hdiff, -⟩ := hlaws t s htc hsc
  obtain ⟨-, -, hforgets, hnothing⟩ := hpadding u hbuilt.wellSized
  rw [hsize] at hinter
  rw [Nat.max_comm, hsize] at hdiff
  refine ⟨s, t, u, hs, ht, hu, hsc, htc, ?_, ?_, hinter, hdiff, hbuilt, hbuilt.wellSized, ?_, ?_,
    hnothing⟩
  · rw [hs, ht]
    decide +kernel
  · rw [hs, ht]
    decide +kernel
  · rw [hu, hs, ht]
    decide +kernel
  · have hend : u.size = 1030 := by
      rw [hu]
      exact hsize
    rw [hforgets, hend, decide_eq_false (Nat.lt_irrefl 1030), Bool.and_false]

end FacetIndex.Bitmap
