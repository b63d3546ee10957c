import FacetIndex.Proofs.Bitmap.Members

/-!
# Intersections, unions and symmetric differences as an algebra

Bitmaps of any sizes are combined, and the equations that finite sets obey are asked of what
comes out: that the operands may be swapped, that brackets may be moved, that one operation
distributes over another. They hold as equations between bitmaps, with the same blocks and
the same size on both sides, and they ask for nothing: ones in the padding take part like
all others, and not even the number of blocks has to be the one that fits the size.

There are two things to look at. One is the members, and there each law is that of finite
sets. The other is the shape of a bitmap, which is how many blocks it has and how many
indexes it covers (`FacetIndex.Bitmap.shape`). No operator has a say in that: a combination
has the join of the two shapes (`FacetIndex.Bitmap.shape_combine`). Every law has to hold of
joins as well, and this is where the order, the brackets and the repetitions are seen to be
of no account.

| law | members | shapes |
|---|---|---|
| `FacetIndex.Bitmap.inter_comm` and its companions | `∩`, `∪`, `∆` commute | joins commute |
| `FacetIndex.Bitmap.inter_assoc` and its companions | they associate | joins associate |
| `FacetIndex.Bitmap.inter_union_distrib` and its companions | they distribute | a join over joins |
| `FacetIndex.Bitmap.inter_self`, `FacetIndex.Bitmap.union_self` | idempotent | idempotent |
| `FacetIndex.Bitmap.diff_diff` | subtracting twice | joins associate |
-/

namespace FacetIndex.Bitmap

open scoped symmDiff

variable (s t u : Bitmap)

/-! ### Shapes -/

/-- How many blocks there are, and how many indexes they cover. -/
def shape : Nat × Nat := (s.blocks.size, s.size)

/-- **A combination has the join of the two shapes**, whatever the operator. -/
theorem shape_combine (op : WordOp) : (combine op s t).shape = s.shape ⊔ t.shape :=
  Prod.ext (size_blocks_combine op s t) (size_combine op s t)

theorem shape_inter : (s.inter t).shape = s.shape ⊔ t.shape := shape_combine s t .and

theorem shape_union : (s.union t).shape = s.shape ⊔ t.shape := shape_combine s t .or

theorem shape_symmDiff : (s.symmDiff t).shape = s.shape ⊔ t.shape := shape_combine s t .xor

theorem shape_diff : (s.diff t).shape = s.shape ⊔ t.shape := shape_combine s t .diff

variable {s t} in
/-- **The shape and the members determine a bitmap.** -/
theorem ext_shape (hshape : s.shape = t.shape) (hmembers : s.members = t.members) : s = t := by
  obtain ⟨hblocks, hsize⟩ := Prod.mk.inj hshape
  refine ext_blocks hblocks hsize fun i => ?_
  rw [Bool.eq_iff_iff, ← mem_members, ← mem_members, hmembers]

/-! ### Swapping the operands -/

theorem inter_comm : s.inter t = t.inter s := by
  refine ext_shape ?_ ?_
  · rw [shape_inter, shape_inter, sup_comm]
  · rw [members_inter, members_inter, Finset.inter_comm]

theorem union_comm : s.union t = t.union s := by
  refine ext_shape ?_ ?_
  · rw [shape_union, shape_union, sup_comm]
  · rw [members_union, members_union, Finset.union_comm]

theorem symmDiff_comm : s.symmDiff t = t.symmDiff s := by
  refine ext_shape ?_ ?_
  · rw [shape_symmDiff, shape_symmDiff, sup_comm]
  · rw [members_symmDiff, members_symmDiff]
    ac_rfl

/-! ### Moving the brackets -/

theorem inter_assoc : (s.inter t).inter u = s.inter (t.inter u) := by
  refine ext_shape ?_ ?_
  · simp only [shape_inter, sup_assoc]
  · simp only [members_inter, Finset.inter_assoc]

theorem union_assoc : (s.union t).union u = s.union (t.union u) := by
  refine ext_shape ?_ ?_
  · simp only [shape_union, sup_assoc]
  · simp only [members_union, Finset.union_assoc]

theorem symmDiff_assoc : (s.symmDiff t).symmDiff u = s.symmDiff (t.symmDiff u) := by
  refine ext_shape ?_ ?_
  · simp only [shape_symmDiff, sup_assoc]
  · simp only [members_symmDiff]
    ac_rfl

/-! ### Distributing one operation over another -/

theorem inter_union_distrib : s.inter (t.union u) = (s.inter t).union (s.inter u) := by
  refine ext_shape ?_ ?_
  · simp only [shape_inter, shape_union]
    exact sup_sup_distrib_left ..
  · simp only [members_inter, members_union]
    exact Finset.inter_union_distrib_left ..

theorem union_inter_distrib : s.union (t.inter u) = (s.union t).inter (s.union u) := by
  refine ext_shape ?_ ?_
  · simp only [shape_inter, shape_union]
    exact sup_sup_distrib_left ..
  · simp only [members_inter, members_union]
    exact Finset.union_inter_distrib_left ..

theorem inter_symmDiff_distrib :
    s.inter (t.symmDiff u) = (s.inter t).symmDiff (s.inter u) := by
  refine ext_shape ?_ ?_
  · simp only [shape_inter, shape_symmDiff]
    exact sup_sup_distrib_left ..
  · simp only [members_inter, members_symmDiff]
    exact inf_symmDiff_distrib_left ..

/-! ### Repetitions -/

theorem inter_self : s.inter s = s := by
  refine ext_shape ?_ ?_
  · rw [shape_inter, sup_idem]
  · rw [members_inter, Finset.inter_self]

theorem union_self : s.union s = s := by
  refine ext_shape ?_ ?_
  · rw [shape_union, sup_idem]
  · rw [members_union, Finset.union_self]

/-- Subtracting one after the other is subtracting both at once. -/
theorem diff_diff : (s.diff t).diff u = s.diff (t.union u) := by
  refine ext_shape ?_ ?_
  · simp only [shape_diff, shape_union, sup_assoc]
  · simp only [members_diff, members_union]
    exact sdiff_sdiff_left

/-! ### All laws -/

/-- **Intersection, union and symmetric difference are a distributive algebra**, for bitmaps
of any sizes and whatever their padding holds, and every law is an equation of blocks and
sizes. Each of the three operations is commutative and associative; intersection distributes
over union and over symmetric difference, and union over intersection; a bitmap intersected
or united with itself is what it was; and two differences are one. -/
theorem laws_of_algebra :
    (s.inter t = t.inter s ∧ s.union t = t.union s ∧ s.symmDiff t = t.symmDiff s) ∧
      ((s.inter t).inter u = s.inter (t.inter u) ∧ (s.union t).union u = s.union (t.union u) ∧
        (s.symmDiff t).symmDiff u = s.symmDiff (t.symmDiff u)) ∧
      s.inter (t.union u) = (s.inter t).union (s.inter u) ∧
      s.union (t.inter u) = (s.union t).inter (s.union u) ∧
      s.inter (t.symmDiff u) = (s.inter t).symmDiff (s.inter u) ∧
      s.inter s = s ∧ s.union s = s ∧ (s.diff t).diff u = s.diff (t.union u) :=
  ⟨⟨inter_comm s t, union_comm s t, symmDiff_comm s t⟩,
    ⟨inter_assoc s t u, union_assoc s t u, symmDiff_assoc s t u⟩, inter_union_distrib s t u,
    union_inter_distrib s t u, inter_symmDiff_distrib s t u, inter_self s, union_self s,
    diff_diff s t u⟩

end FacetIndex.Bitmap
