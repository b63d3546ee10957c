import FacetIndex.Block.Bits
import FacetIndex.WordOp.Basic

/-!
# Word operators on blocks that may be missing

A short cut for a missing block never shows in the result: unless both blocks are
missing, the combination is that of the blocks with the zero block for a missing one
(`FacetIndex.WordOp.combineBlocks_getD`). The count that builds nothing agrees with
the combination, however it was come by (`FacetIndex.WordOp.countBlocks_eq`).
-/

namespace FacetIndex.WordOp

/-- Blocks are combined word by word. -/
theorem combine_eq_of_words {g : Word → Word → Word} {a b c : Block}
    (h : ∀ i (hi : i < 16), g a.words[i] b.words[i] = c.words[i]) : Block.combine g a b = c := by
  obtain ⟨w⟩ := c
  rw [Block.combine, Block.mk.injEq]
  apply Vector.ext
  intro i hi
  rw [Vector.getElem_zipWith, h i hi]

/-- An operator that makes zeros of a word and zero makes the zero block of a block
and the zero block. -/
theorem combine_empty_right {g : Word → Word → Word} (h : ∀ w, g w 0 = 0) (a : Block) :
    Block.combine g a .empty = .empty :=
  combine_eq_of_words fun i hi => by simp [Block.empty, h]

theorem combine_empty_left {g : Word → Word → Word} (h : ∀ w, g 0 w = 0) (b : Block) :
    Block.combine g .empty b = .empty :=
  combine_eq_of_words fun i hi => by simp [Block.empty, h]

theorem combine_empty_keep {g : Word → Word → Word} (h : ∀ w, g w 0 = w) (a : Block) :
    Block.combine g a .empty = a :=
  combine_eq_of_words fun i hi => by simp [Block.empty, h]

theorem combineLeft_getD (op : WordOp) (a : Block) :
    (op.combineLeft a).getD .empty = Block.combine op.combine a .empty := by
  unfold combineLeft
  split
  · rfl
  · next h _ => exact (combine_empty_right (fun w => (h w).1) a).symm
  · next h _ => exact (combine_empty_keep (fun w => (h w).1) a).symm

theorem combineRight_getD (op : WordOp) (b : Block) :
    (op.combineRight b).getD .empty = Block.combine op.combine .empty b := by
  unfold combineRight
  split
  · rfl
  · next h _ => exact (combine_empty_left (fun w => (h w).2) b).symm
  · next h _ => exact (combine_empty_left (fun w => (h w).2) b).symm

/-- A missing block is as good as the zero block, unless both are missing. -/
theorem combineBlocks_getD (op : WordOp) {a? b? : Option Block} (h : a?.isSome ∨ b?.isSome) :
    (op.combineBlocks a? b?).getD .empty =
      Block.combine op.combine (a?.getD .empty) (b?.getD .empty) := by
  match a?, b? with
  | some a, some b => rfl
  | some a, none => exact combineLeft_getD op a
  | none, some b => exact combineRight_getD op b
  | none, none => simp at h

theorem countAll_empty : Block.empty.countAll = 0 := by
  simp [Block.countAll_eq_length]

theorem countLeft_eq (op : WordOp) (a : Block) :
    op.countLeft a = (op.combineLeft a).elim 0 Block.countAll := by
  obtain ⟨g, missing⟩ := op
  cases missing with
  | readAsZero => exact Block.combineCount_eq ..
  | needBoth => rfl
  | keepLeft => rfl

theorem countRight_eq (op : WordOp) (b : Block) :
    op.countRight b = (op.combineRight b).elim 0 Block.countAll := by
  obtain ⟨g, missing⟩ := op
  cases missing with
  | readAsZero => exact Block.combineCount_eq ..
  | needBoth => rfl
  | keepLeft => rfl

/-- The count that builds nothing is the count of the combination. -/
theorem countBlocks_eq (op : WordOp) (a? b? : Option Block) :
    op.countBlocks a? b? = (op.combineBlocks a? b?).elim 0 Block.countAll := by
  match a?, b? with
  | some a, some b => exact Block.combineCount_eq ..
  | some a, none => exact countLeft_eq op a
  | none, some b => exact countRight_eq op b
  | none, none => rfl

end FacetIndex.WordOp
