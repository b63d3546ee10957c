/-!
# Words: sixty-four bits, the first one most significant

Bitmaps are packed into `FacetIndex.Word`s. The bits of a word are numbered from
its most significant end, so that the numeric order of two words is the
lexicographic order of their bits, and listing the bits in order is a search for
the highest one. The numbering is fixed here once, by `FacetIndex.Word.mask`, and
everything above goes through it:

* `FacetIndex.Word.bit w i` – the bit at place `i`;
* `FacetIndex.Word.leading n` – the word whose first `n` bits are ones;
* `FacetIndex.Word.count w` – how many bits are ones;
* `FacetIndex.Word.firstBit w` – the least place that holds a one.
-/

namespace FacetIndex

/-- A machine word of sixty-four bits. -/
abbrev Word := UInt64

/-- The sum of counts, one for each word or one for each block. -/
def total (counts : List Nat) : Nat := counts.foldr (· + ·) 0

@[simp] theorem total_nil : total [] = 0 := rfl

@[simp] theorem total_cons (n : Nat) (ns : List Nat) : total (n :: ns) = n + total ns := rfl

theorem total_append (ms ns : List Nat) : total (ms ++ ns) = total ms + total ns := by
  induction ms with
  | nil => simp
  | cons m ms ih => rw [List.cons_append, total_cons, total_cons, ih, Nat.add_assoc]

namespace Word

/-- The word whose bits are all ones. -/
def ones : Word := 0xffffffffffffffff

/-- The word that holds a single one, at place `i` counted from the most
significant end; places run from `0` to `63`. -/
def mask (i : Nat) : Word := 1 <<< (63 - UInt64.ofNat i)

/-- The bit at place `i`. -/
def bit (w : Word) (i : Nat) : Bool := w &&& mask i != 0

/-- The word whose first `n` bits are ones and whose other bits are zeros, for
`n ≤ 64`. A shift by the whole width is a shift by nothing, so `0` stands apart. -/
def leading (n : Nat) : Word := if n = 0 then 0 else ones <<< (64 - UInt64.ofNat n)

/-- How many of the first `n` bits are ones. -/
def countBelow (w : Word) : Nat → Nat
  | 0 => 0
  | n + 1 => countBelow w n + (bit w n).toNat

/-- How many bits are ones. -/
def count (w : Word) : Nat := countBelow w 64

/-- The least place that holds a one, in a word that is not zero: the distance of
the highest one from the most significant end. -/
def firstBit (w : Word) : Nat := 63 - w.log2.toNat

/-- The word without the bit at place `i`. -/
def without (w : Word) (i : Nat) : Word := w &&& ~~~(mask i)

end Word

end FacetIndex
