import FacetIndex.Error
import FacetIndex.Word.Basic

/-!
# Blocks: sixteen words, 1024 bits

The bit of a block at place `i` is the bit at place `i % 64` of its word `i / 64`,
so that the places of a block are read word after word, each from its most
significant end.

Each operation comes in two forms. The total form (`FacetIndex.Block.insert`,
`FacetIndex.Block.complement`, …) is for a place, or a length, that is known to be
in range. The checked form (`FacetIndex.Block.set?`, `FacetIndex.Block.complement?`,
…) refuses a place from 1024 on and a length above 1024.

An operation that acts on the first `n` bits only is said by one block,
`FacetIndex.Block.below n`, which holds exactly the places below `n`.
-/

namespace FacetIndex

/-- A run of 1024 bits in sixteen words. -/
structure Block where
  /-- The words, in the order of their bits. -/
  words : Vector Word 16
  deriving DecidableEq, Repr

namespace Block

/-- The block without a one. -/
def empty : Block := ⟨Vector.replicate 16 0⟩

/-- The block of ones. -/
def full : Block := ⟨Vector.replicate 16 Word.ones⟩

instance : Inhabited Block := ⟨empty⟩

/-! ### One bit -/

/-- The bit at place `i`; there is no one past the last place. -/
def contains (b : Block) (i : Nat) : Bool := b.words[i / 64]?.any (·.bit (i % 64))

/-- The block with word `j` replaced by its image. -/
def mapWord (b : Block) (j : Nat) (f : Word → Word) : Block :=
  if h : j < 16 then ⟨b.words.set j (f b.words[j])⟩ else b

/-- The block with a one at place `i`. -/
def insert (b : Block) (i : Nat) : Block := b.mapWord (i / 64) (· ||| Word.mask (i % 64))

/-- The block with a zero at place `i`. -/
def erase (b : Block) (i : Nat) : Block := b.mapWord (i / 64) (·.without (i % 64))

/-- Writes the bit `one` at place `i` and tells whether the other one was there. -/
def put (b : Block) (i : Nat) (one : Bool) : Bool × Block :=
  (b.contains i != one, if one then b.insert i else b.erase i)

/-- Refuses a place past the end of a block. -/
def checkPlace (i : Nat) : Except Error Unit :=
  if i < 1024 then .ok () else .error (.indexOutOfRange i 1024)

/-- The bit at place `i`, if there is such a place. -/
def get? (b : Block) (i : Nat) : Except Error Bool := do
  checkPlace i
  return b.contains i

/-- The block with a one at place `i`, if there is such a place. -/
def set? (b : Block) (i : Nat) : Except Error Block := do
  checkPlace i
  return b.insert i

/-- The block with a zero at place `i`, if there is such a place. -/
def unset? (b : Block) (i : Nat) : Except Error Block := do
  checkPlace i
  return b.erase i

/-- The block with ones at the listed places. The first place out of range is
refused. -/
def ofList? (places : List Nat) : Except Error Block := places.foldlM set? empty

/-! ### Two blocks -/

/-- The words of two blocks joined one by one. -/
def combine (g : Word → Word → Word) (a b : Block) : Block := ⟨Vector.zipWith g a.words b.words⟩

/-- How many ones the joined words have. The joined block is not built. -/
def combineCount (g : Word → Word → Word) (a b : Block) : Nat :=
  total (List.zipWith (fun v w => (g v w).count) a.words.toList b.words.toList)

/-! ### The first bits of a block -/

/-- The block that holds exactly the places below `n`. -/
def below (n : Nat) : Block := ⟨Vector.ofFn fun j => Word.leading (min (n - 64 * j.val) 64)⟩

/-- The complement of the first `n` bits, with zeros after them. -/
def complement (b : Block) (n : Nat) : Block := combine (fun w m => ~~~w &&& m) b (below n)

/-- How many of the first `n` bits are ones. -/
def count (b : Block) (n : Nat) : Nat := combineCount (· &&& ·) b (below n)

/-- The complement of the whole block. -/
def complementAll (b : Block) : Block := ⟨b.words.map (~~~·)⟩

/-- How many bits are ones. -/
def countAll (b : Block) : Nat := total (b.words.toList.map Word.count)

/-- There is no one in the block. -/
def isEmpty (b : Block) : Bool := b.words.all (· == 0)

/-- Refuses a length greater than that of a block. -/
def checkLength (n : Nat) : Except Error Unit :=
  if n ≤ 1024 then .ok () else .error (.indexOutOfRange n 1024)

/-- The complement of the first `n` bits, if there are as many. -/
def complement? (b : Block) (n : Nat) : Except Error Block := do
  checkLength n
  return b.complement n

/-- How many of the first `n` bits are ones, if there are as many. -/
def count? (b : Block) (n : Nat) : Except Error Nat := do
  checkLength n
  return b.count n

/-- The block after its first `n` bits were made ones and the others zeros. -/
def fill? (_b : Block) (n : Nat) : Except Error Block := do
  checkLength n
  return below n

/-- The block after all its bits were made zeros. The length is only checked. -/
def clear? (_b : Block) (n : Nat) : Except Error Block := do
  checkLength n
  return empty

end Block

end FacetIndex
