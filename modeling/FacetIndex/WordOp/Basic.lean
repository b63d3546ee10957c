import FacetIndex.Block.Basic

/-!
# Word operators, and what they do where a block is missing

A binary operator is given on words (`FacetIndex.WordOp.combine`) and acts on
blocks word by word. Bitmaps of different lengths are combined block by block too,
and there one of the two blocks may be missing: past the end of its bitmap a
bitmap reads as zeros. `none` as a result says that the combined block is
certainly zero.

Most operators read a missing block as the zero block. Two of the four standard
ones need not look at the block that is there: an intersection is empty as soon
as one side is missing, and a difference is its left side. Such a short cut is
part of the operator (`FacetIndex.Missing`) and comes with the two equations that
make it agree with the zero block, so that no operator can answer differently for
a missing block and for a zero one.
-/

namespace FacetIndex

/-- How an operator `g` treats a missing block. -/
inductive Missing (g : Word → Word → Word) where
  /-- It is read as the zero block, unless both are missing. -/
  | readAsZero
  /-- Nothing is left unless both blocks are there. -/
  | needBoth (zero : ∀ w, g w 0 = 0 ∧ g 0 w = 0)
  /-- The left block is kept as it is where the right one is missing, and nothing
  is left where the left one is. -/
  | keepLeft (zero : ∀ w, g w 0 = w ∧ g 0 w = 0)

/-- A bitwise binary operator. -/
structure WordOp where
  /-- The operator on words. -/
  combine : Word → Word → Word
  /-- What it does with a missing block. -/
  missing : Missing combine := .readAsZero

namespace WordOp

/-- Ones that both operands have. -/
def and : WordOp where
  combine v w := v &&& w
  missing := .needBoth fun _ => ⟨UInt64.and_zero, UInt64.zero_and⟩

/-- Ones that either operand has. -/
def or : WordOp where
  combine v w := v ||| w

/-- Ones that exactly one of the operands has. -/
def xor : WordOp where
  combine v w := v ^^^ w

/-- Ones of the first operand that the second one lacks. -/
def diff : WordOp where
  combine v w := v &&& ~~~w
  missing := .keepLeft fun w => by simp

/-! ### One block is missing -/

/-- The combination of `a` with a missing right block. -/
def combineLeft (op : WordOp) (a : Block) : Option Block :=
  match op.missing with
  | .readAsZero => some (Block.combine op.combine a .empty)
  | .needBoth _ => none
  | .keepLeft _ => some a

/-- The combination of a missing left block with `b`. -/
def combineRight (op : WordOp) (b : Block) : Option Block :=
  match op.missing with
  | .readAsZero => some (Block.combine op.combine .empty b)
  | .needBoth _ => none
  | .keepLeft _ => none

/-- How many ones `FacetIndex.WordOp.combineLeft` has. -/
def countLeft (op : WordOp) (a : Block) : Nat :=
  match op.missing with
  | .readAsZero => Block.combineCount op.combine a .empty
  | .needBoth _ => 0
  | .keepLeft _ => a.countAll

/-- How many ones `FacetIndex.WordOp.combineRight` has. -/
def countRight (op : WordOp) (b : Block) : Nat :=
  match op.missing with
  | .readAsZero => Block.combineCount op.combine .empty b
  | .needBoth _ => 0
  | .keepLeft _ => 0

/-! ### Either block may be missing -/

/-- The combination of two blocks. Where both are missing, every operator has
nothing to show, even one that turns zeros into ones. -/
def combineBlocks (op : WordOp) : Option Block → Option Block → Option Block
  | some a, some b => some (Block.combine op.combine a b)
  | some a, none => op.combineLeft a
  | none, some b => op.combineRight b
  | none, none => none

/-- How many ones the combination has. The combined block is not built. -/
def countBlocks (op : WordOp) : Option Block → Option Block → Nat
  | some a, some b => Block.combineCount op.combine a b
  | some a, none => op.countLeft a
  | none, some b => op.countRight b
  | none, none => 0

end WordOp

end FacetIndex
