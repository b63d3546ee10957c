import FacetIndex.Word.Basic

/-!
# The bits of a word

A word operation acts on all places at once. The statements here say what it does at
one place: `FacetIndex.Word.bit_and` and its companions for the operators,
`FacetIndex.Word.bit_leading` for the words that mark off the first bits, and
`FacetIndex.Word.firstBit_spec` for the search for the first one. Since the places
determine the word (`FacetIndex.Word.ext_bit`), nothing else need be known of it.

An operator on words that acts place by place through an operator on bits is
`FacetIndex.Word.Pointwise`; the four standard ones are.
-/

namespace FacetIndex.Word

/-! ### One place -/

theorem toBitVec_mask {i : Nat} (h : i < 64) : (mask i).toBitVec = BitVec.twoPow 64 (63 - i) := by
  have hi : (63 - UInt64.ofNat i).toNat = 63 - i := by
    have h63 : (63 : UInt64).toNat = 63 := rfl
    rw [UInt64.toNat_sub, UInt64.toNat_ofNat', h63]
    omega
  apply BitVec.eq_of_toNat_eq
  rw [UInt64.toNat_toBitVec, mask, UInt64.toNat_shiftLeft, hi, BitVec.toNat_twoPow,
    Nat.mod_eq_of_lt (by omega : 63 - i < 64)]
  simp [Nat.shiftLeft_eq]

/-- The numbering of places is that of a bit vector read from its most
significant end. -/
theorem bit_eq_getMsbD (w : Word) {i : Nat} (h : i < 64) : bit w i = w.toBitVec.getMsbD i := by
  have hl : w.toBitVec.getMsbD i = w.toBitVec.getLsbD (63 - i) := by
    simp [BitVec.getMsbD, h]
  have hz : (w &&& mask i = 0) ↔ w.toBitVec &&& BitVec.twoPow 64 (63 - i) = 0#64 := by
    rw [← UInt64.toBitVec_inj, UInt64.toBitVec_and, toBitVec_mask h]
    rfl
  have hp : BitVec.twoPow 64 (63 - i) ≠ 0#64 := fun he => by
    have := congrArg (BitVec.getLsbD · (63 - i)) he
    simp [BitVec.getLsbD_twoPow] at this
    omega
  rw [hl, Bool.eq_iff_iff]
  simp only [bit, bne_iff_ne, ne_eq, hz, BitVec.and_twoPow]
  cases w.toBitVec.getLsbD (63 - i) <;> simp [hp]

/-- The places determine the word. -/
theorem ext_bit {v w : Word} (h : ∀ i, i < 64 → bit v i = bit w i) : v = w := by
  rw [← UInt64.toBitVec_inj]
  apply BitVec.eq_of_getMsbD_eq
  intro i hi
  rw [← bit_eq_getMsbD v hi, ← bit_eq_getMsbD w hi, h i hi]

theorem bit_and (v w : Word) {i : Nat} (h : i < 64) : bit (v &&& w) i = (bit v i && bit w i) := by
  simp [bit_eq_getMsbD _ h, BitVec.getMsbD_and]

theorem bit_or (v w : Word) {i : Nat} (h : i < 64) : bit (v ||| w) i = (bit v i || bit w i) := by
  simp [bit_eq_getMsbD _ h, BitVec.getMsbD_or]

theorem bit_xor (v w : Word) {i : Nat} (h : i < 64) : bit (v ^^^ w) i = (bit v i ^^ bit w i) := by
  simp [bit_eq_getMsbD _ h, BitVec.getMsbD_xor]

theorem bit_not (w : Word) {i : Nat} (h : i < 64) : bit (~~~w) i = !bit w i := by
  simp [bit_eq_getMsbD _ h, BitVec.getMsbD_not, h]

@[simp] theorem bit_zero (i : Nat) : bit 0 i = false := by
  simp [bit]

theorem bit_mask {i j : Nat} (hj : j < 64) (hi : i < 64) : bit (mask j) i = decide (i = j) := by
  rw [bit_eq_getMsbD _ hi, toBitVec_mask hj, Bool.eq_iff_iff]
  simp only [BitVec.getMsbD, hi, decide_true, Bool.true_and, BitVec.getLsbD_twoPow,
    Bool.and_eq_true, decide_eq_true_eq]
  omega

theorem bit_without (w : Word) {i j : Nat} (hj : j < 64) (hi : i < 64) :
    bit (without w j) i = (bit w i && i != j) := by
  rw [without, bit_and _ _ hi, bit_not _ hi, bit_mask hj hi]
  rfl

/-! ### Operators that act place by place -/

/-- The operator `g` on words acts at every place as `f` does on bits. -/
def Pointwise (g : Word → Word → Word) (f : Bool → Bool → Bool) : Prop :=
  ∀ v w i, i < 64 → bit (g v w) i = f (bit v i) (bit w i)

theorem pointwise_and : Pointwise (· &&& ·) (· && ·) := fun v w _ h => bit_and v w h

theorem pointwise_or : Pointwise (· ||| ·) (· || ·) := fun v w _ h => bit_or v w h

theorem pointwise_xor : Pointwise (· ^^^ ·) (· ^^ ·) := fun v w _ h => bit_xor v w h

theorem pointwise_diff : Pointwise (fun v w => v &&& ~~~w) (fun a b => a && !b) :=
  fun v w i h => by simp [bit_and v _ h, bit_not w h]

/-! ### The first bits -/

theorem bit_ones {i : Nat} (h : i < 64) : bit ones i = true := by
  have : ones = ~~~(0 : Word) := rfl
  rw [this, bit_not _ h, bit_zero]
  rfl

theorem bit_leading {n i : Nat} (hn : n ≤ 64) (h : i < 64) :
    bit (leading n) i = decide (i < n) := by
  unfold leading
  split
  · next hz => simp [hz]
  · next hz =>
    have h64 : (64 : UInt64).toNat = 64 := rfl
    have hs : (64 - UInt64.ofNat n).toNat = 64 - n := by
      rw [UInt64.toNat_sub, UInt64.toNat_ofNat', h64]
      omega
    have hshift : ((64 - UInt64.ofNat n).toBitVec % 64).toNat = 64 - n := by
      have hm : ((64 : BitVec 64)).toNat = 64 := rfl
      rw [BitVec.toNat_umod, UInt64.toNat_toBitVec, hs, hm]
      omega
    rw [bit_eq_getMsbD _ h, UInt64.toBitVec_shiftLeft, BitVec.shiftLeft_eq', hshift,
      BitVec.getMsbD_shiftLeft]
    by_cases hi : i < n
    · have hp : i + (64 - n) < 64 := by omega
      rw [← bit_eq_getMsbD _ hp, bit_ones hp]
      simp [hi]
    · rw [BitVec.getMsbD_of_ge _ _ (by omega)]
      simp [hi]

/-! ### Counting -/

/-- The count of the first `n` bits is the number of places that hold a one. -/
theorem countBelow_eq_length (w : Word) (n : Nat) :
    countBelow w n = ((List.range n).filter (bit w)).length := by
  induction n with
  | zero => rfl
  | succ n ih =>
    rw [countBelow, ih, List.range_succ, List.filter_append, List.length_append]
    cases h : bit w n <;> simp [h]

theorem count_eq_length (w : Word) : count w = ((List.range 64).filter (bit w)).length :=
  countBelow_eq_length w 64

/-! ### The first one -/

theorem toNat_log2 (w : Word) : w.log2.toNat = w.toNat.log2 := rfl

theorem bit_eq_testBit (w : Word) {i : Nat} (h : i < 64) : bit w i = w.toNat.testBit (63 - i) := by
  rw [bit_eq_getMsbD w h]
  simp [BitVec.getMsbD, h, ← BitVec.testBit_toNat]

/-- The first one of a word is a one, and there is none before it. -/
theorem firstBit_spec {w : Word} (h : w ≠ 0) :
    firstBit w < 64 ∧ bit w (firstBit w) = true ∧ ∀ i, i < firstBit w → bit w i = false := by
  have hz : w.toNat ≠ 0 := fun hz => h (UInt64.toNat_inj.mp hz)
  have hlog : w.toNat.log2 < 64 := (Nat.log2_lt hz).2 w.toNat_lt
  have hlt : firstBit w < 64 := by unfold firstBit; omega
  have hplace : 63 - firstBit w = w.toNat.log2 := by rw [firstBit, toNat_log2]; omega
  refine ⟨hlt, ?_, fun i hi => ?_⟩
  · rw [bit_eq_testBit w hlt, hplace]
    exact Nat.testBit_log2 hz
  · rw [bit_eq_testBit w (by omega)]
    refine Nat.testBit_lt_two_pow (Nat.lt_of_lt_of_le Nat.lt_log2_self ?_)
    exact Nat.pow_le_pow_right (by decide) (by omega)

end FacetIndex.Word
