import FacetIndex.Word.Bits

/-!
# Runs of words

The words of a block, and those of several blocks one after the other, are one run of
bits: the bit of index `i` is the bit at place `i % 64` of word `i / 64`
(`FacetIndex.Word.runBit`). Counting the ones of the words one by one counts the
indexes of the ones of the run (`FacetIndex.Word.total_count_eq_length`).

Word and place are the `FacetIndex.Word.Address` of the bit. Every index has one, and every
address is that of one index (`FacetIndex.Word.Address.index_ofIndex`,
`FacetIndex.Word.Address.ofIndex_index`).
-/

namespace FacetIndex.Word

/-! ### Addresses -/

/-- Where a bit is in a run of words. -/
structure Address where
  /-- The number of the word. -/
  word : Nat
  /-- The place in the word, counted from the most significant end. -/
  place : Fin 64
  deriving DecidableEq, Repr

namespace Address

/-- Where the bit of index `i` is. -/
def ofIndex (i : Nat) : Address := ⟨i / 64, ⟨i % 64, Nat.mod_lt i (by decide)⟩⟩

/-- The index of the bit at an address. -/
def index (a : Address) : Nat := 64 * a.word + a.place

@[simp] theorem index_ofIndex (i : Nat) : (ofIndex i).index = i := Nat.div_add_mod i 64

@[simp] theorem ofIndex_index (a : Address) : ofIndex a.index = a := by
  obtain ⟨word, place, hplace⟩ := a
  have hword : (64 * word + place) / 64 = word := by omega
  have hrest : (64 * word + place) % 64 = place := by omega
  simp only [ofIndex, index, hword, hrest]

end Address

/-! ### Bits -/

/-- The bit of index `i` in a run of words; there is no one past its end. -/
def runBit (ws : List Word) (i : Nat) : Bool := ws[i / 64]?.any (·.bit (i % 64))

theorem runBit_cons_of_lt (w : Word) (ws : List Word) {i : Nat} (h : i < 64) :
    runBit (w :: ws) i = bit w i := by
  simp [runBit, Nat.div_eq_of_lt h, Nat.mod_eq_of_lt h]

theorem runBit_cons_add (w : Word) (ws : List Word) (i : Nat) :
    runBit (w :: ws) (64 + i) = runBit ws i := by
  have hd : (64 + i) / 64 = i / 64 + 1 := by omega
  simp [runBit, hd]

theorem runBit_append (vs ws : List Word) (i : Nat) :
    runBit (vs ++ ws) i =
      if i < 64 * vs.length then runBit vs i else runBit ws (i - 64 * vs.length) := by
  unfold runBit
  split
  · rw [List.getElem?_append_left (by omega)]
  · have hd : (i - 64 * vs.length) / 64 = i / 64 - vs.length := by omega
    have hm : (i - 64 * vs.length) % 64 = i % 64 := by omega
    rw [List.getElem?_append_right (by omega), hd, hm]

/-- The indexes of the ones of a run of words, in ascending order. -/
def runIndexes (ws : List Word) : List Nat := (List.range (64 * ws.length)).filter (runBit ws)

/-- The indexes in the first word come first, the others after them. -/
theorem runIndexes_cons (w : Word) (ws : List Word) :
    runIndexes (w :: ws) = (List.range 64).filter (bit w) ++ (runIndexes ws).map (64 + ·) := by
  have hlen : 64 * (w :: ws).length = 64 + 64 * ws.length := by
    rw [List.length_cons]
    omega
  have hfirst : (List.range 64).filter (runBit (w :: ws)) = (List.range 64).filter (bit w) :=
    List.filter_congr fun i hi => runBit_cons_of_lt w ws (List.mem_range.mp hi)
  have hrest : runBit (w :: ws) ∘ (64 + ·) = runBit ws := funext (runBit_cons_add w ws)
  rw [runIndexes, hlen, List.range_add, List.filter_append, List.filter_map, hfirst, hrest,
    runIndexes]

/-- The words of a run have as many ones together as there are indexes of ones. -/
theorem total_count_eq_length (ws : List Word) :
    total (ws.map count) = (runIndexes ws).length := by
  induction ws with
  | nil => rfl
  | cons w ws ih =>
    rw [List.map_cons, total_cons, ih, runIndexes_cons, List.length_append, List.length_map,
      count_eq_length]

end FacetIndex.Word
