import FacetIndex.Block.Basic

/-!
# Cursors: reading blocks from the front

A cursor is a place in a run of blocks. `FacetIndex.WordCursor` reads the words of the
blocks in their order; `FacetIndex.IndexCursor` reads the indexes of the ones, in
ascending order. Reading gives the next element and the cursor after it, so a cursor
that was kept can be read again from where it stood, and a cursor that has come to its
end stays there.

An index cursor reads one word at a time. It holds the word that it is reading, from
which the ones already read are taken out, and a word cursor that stands behind that
word. The next index is the first one of the word; when none is left, the words
without a one that follow are passed over.
-/

namespace FacetIndex

/-! ### Words -/

/-- A place in the words of a run of blocks. -/
structure WordCursor where
  /-- The blocks that are read. -/
  blocks : Array Block
  /-- How many words were read. -/
  position : Nat := 0
  deriving DecidableEq, Repr

namespace WordCursor

/-- The cursor before the first word. -/
def ofBlocks (blocks : Array Block) : WordCursor := { blocks }

/-- How many words are still to come. -/
def left (c : WordCursor) : Nat := 16 * c.blocks.size - c.position

/-- The next word, and the cursor after it. -/
def next (c : WordCursor) : Option Word × WordCursor :=
  match c.blocks[c.position / 16]? with
  | some b => (some b.words[c.position % 16], { c with position := c.position + 1 })
  | none => (none, c)

/-- Reading a word leaves one less to come. -/
theorem left_lt_of_next {c ahead : WordCursor} {w : Word} (h : c.next = (some w, ahead)) :
    ahead.left < c.left := by
  unfold next at h
  split at h
  · next hb =>
    obtain ⟨hlt, -⟩ := Array.getElem?_eq_some_iff.1 hb
    obtain ⟨-, rfl⟩ := Prod.mk.inj h
    simp only [left]
    omega
  · cases h

end WordCursor

/-! ### Indexes of ones -/

/-- A place among the indexes of the ones of a run of blocks. -/
structure IndexCursor where
  /-- The place behind the word that is being read. -/
  ahead : WordCursor
  /-- The word that is being read, without the ones already read. -/
  current : Word := 0
  deriving DecidableEq, Repr

namespace IndexCursor

/-- The cursor before the first one. -/
def ofBlocks (blocks : Array Block) : IndexCursor := { ahead := .ofBlocks blocks }

/-- The next index, and the cursor after it. -/
def next (c : IndexCursor) : Option Nat × IndexCursor :=
  if c.current = 0 then
    match _h : c.ahead.next with
    | (some w, ahead) => next ⟨ahead, w⟩
    | (none, ahead) => (none, ⟨ahead, 0⟩)
  else
    let place := c.current.firstBit
    (some (64 * (c.ahead.position - 1) + place), ⟨c.ahead, c.current.without place⟩)
termination_by c.ahead.left
decreasing_by exact WordCursor.left_lt_of_next _h

end IndexCursor

/-! ### Reading on -/

/-- Reads up to `n` elements with `next` and puts them behind those in `read`. -/
def readUpTo {σ α : Type} (next : σ → Option α × σ) : Nat → σ → Array α → Array α × σ
  | 0, s, read => (read, s)
  | n + 1, s, read =>
    match next s with
    | (none, s) => (read, s)
    | (some a, s) => readUpTo next n s (read.push a)

namespace WordCursor

/-- The next `n` words, or all there are, and the cursor after them. -/
def take (c : WordCursor) (n : Nat) : Array Word × WordCursor := readUpTo next n c #[]

/-- All words still to come, and the cursor after them. -/
def drain (c : WordCursor) : Array Word × WordCursor := c.take c.left

end WordCursor

namespace IndexCursor

/-- The next `n` indexes, or all there are, and the cursor after them. -/
def take (c : IndexCursor) (n : Nat) : Array Nat × IndexCursor := readUpTo next n c #[]

/-- All indexes still to come, and the cursor after them. There are at most
sixty-four to a word, that being read among them, and one more reading finds the end. -/
def drain (c : IndexCursor) : Array Nat × IndexCursor := c.take (64 * (c.ahead.left + 1) + 1)

end IndexCursor

/-- The places of the ones of a block, in ascending order. -/
def Block.toList (b : Block) : List Nat := (IndexCursor.ofBlocks #[b]).drain.1.toList

end FacetIndex
