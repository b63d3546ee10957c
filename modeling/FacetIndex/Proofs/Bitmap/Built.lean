import FacetIndex.Proofs.Bitmap.Canonical

/-!
# Bitmaps that operations build

Whatever bitmap a user can come by was built from a few first ones by changes in place
(`FacetIndex.Bitmap.Edit`), complements and combinations; a copy is the same bitmap.
`FacetIndex.Bitmap.Built` is the closure under these operations, with a say in which
operators may be used.

How much can be told of a built bitmap depends on the operators.

| operators | what every built bitmap is | theorem |
|---|---|---|
| any at all | well sized | `FacetIndex.Bitmap.Built.wellSized` |
| those that keep zeros (`FacetIndex.Word.KeepsZeros`) | canonical | `FacetIndex.Bitmap.Built.canonical` |

Operators that do not keep zeros may leave ones in the padding, and these stay there until
all bits are written at once: filling, clearing and complementing each end with nothing in
the padding, whatever was there.
-/

namespace FacetIndex

namespace Bitmap

variable {s s' : Bitmap}

/-! ### Changes in place -/

/-- Something that is done to a bitmap in place. -/
inductive Edit where
  /-- Makes it cover as many indexes, if it covers fewer. -/
  | growTo (size : Nat)
  /-- Puts a one at an index. -/
  | set (i : Nat)
  /-- Puts a zero at an index. -/
  | unset (i : Nat)
  /-- Puts ones at all indexes that it covers. -/
  | fill
  /-- Puts zeros everywhere. -/
  | clear
  deriving DecidableEq, Repr

/-- The bitmap after a change in place, which may be refused for want of room. -/
def edit? (s : Bitmap) : Edit → Except Error Bitmap
  | .growTo n => .ok (s.growTo n)
  | .set i => Prod.snd <$> s.set? i
  | .unset i => Prod.snd <$> s.unset? i
  | .fill => .ok s.fill
  | .clear => .ok s.clear

/-- The bitmap after several changes in place. -/
def editAll? (s : Bitmap) (edits : List Edit) : Except Error Bitmap := edits.foldlM edit? s

theorem edit?_set (s : Bitmap) (i : Nat) :
    s.edit? (.set i) = if i < maxIndex then .ok (s.insert i) else .error (.noRoom i) := by
  rw [edit?, set?_eq]
  split <;> rfl

theorem edit?_unset (s : Bitmap) (i : Nat) :
    s.edit? (.unset i) = if i < maxIndex then .ok (s.erase i) else .error (.noRoom i) := by
  rw [edit?, unset?_eq]
  split <;> rfl

/-- **What a change in place can do**, if it is granted. -/
theorem edit?_cases {e : Edit} (h : s.edit? e = .ok s') :
    (∃ n, s' = s.growTo n) ∨ (∃ i, s' = s.insert i) ∨ (∃ i, s' = s.erase i) ∨
      s' = s.fill ∨ s' = s.clear := by
  cases e with
  | growTo n => exact Or.inl ⟨n, (Except.ok.inj h).symm⟩
  | set i =>
    rw [edit?_set] at h
    split at h
    · exact Or.inr (Or.inl ⟨i, (Except.ok.inj h).symm⟩)
    · cases h
  | unset i =>
    rw [edit?_unset] at h
    split at h
    · exact Or.inr (Or.inr (Or.inl ⟨i, (Except.ok.inj h).symm⟩))
    · cases h
  | fill => exact Or.inr (Or.inr (Or.inr (Or.inl (Except.ok.inj h).symm)))
  | clear => exact Or.inr (Or.inr (Or.inr (Or.inr (Except.ok.inj h).symm)))

/-- A property that every change keeps is kept by any number of them. -/
theorem editAll?_induction {P : Bitmap → Prop}
    (hstep : ∀ s e s', P s → s.edit? e = .ok s' → P s') (edits : List Edit) (hs : P s)
    (h : s.editAll? edits = .ok s') : P s' := by
  induction edits generalizing s with
  | nil =>
    obtain rfl := Except.ok.inj h
    exact hs
  | cons e edits ih =>
    rw [editAll?, List.foldlM_cons] at h
    rcases he : s.edit? e with cause | s₁
    · rw [he] at h
      cases h
    · rw [he] at h
      exact ih (hstep s e s₁ hs he) h

/-- Collecting indexes is putting ones one after the other. -/
theorem ofList?_eq_editAll? (indexes : List Nat) :
    ofList? indexes = empty.editAll? (indexes.map .set) := by
  rw [editAll?, List.foldlM_map]
  rfl

theorem WellSized.edit? {e : Edit} (h : s.WellSized) (he : s.edit? e = .ok s') :
    s'.WellSized := by
  rcases edit?_cases he with ⟨n, rfl⟩ | ⟨i, rfl⟩ | ⟨i, rfl⟩ | rfl | rfl
  · exact h.growTo n
  · exact h.insert i
  · exact h.erase i
  · exact h.fill
  · exact h.clear

theorem Canonical.edit? {e : Edit} (h : s.Canonical) (he : s.edit? e = .ok s') :
    s'.Canonical := by
  rcases edit?_cases he with ⟨n, rfl⟩ | ⟨i, rfl⟩ | ⟨i, rfl⟩ | rfl | rfl
  · exact h.growTo n
  · exact h.insert i
  · exact h.erase i
  · exact h.wellSized.canonical_fill
  · exact h.wellSized.canonical_clear

/-- **A change in place never makes a bitmap shorter.** -/
theorem size_le_of_edit? {e : Edit} (he : s.edit? e = .ok s') : s.size ≤ s'.size := by
  rcases edit?_cases he with ⟨n, rfl⟩ | ⟨i, rfl⟩ | ⟨i, rfl⟩ | rfl | rfl
  · exact size_growTo s n ▸ Nat.le_max_left ..
  · exact size_insert s i ▸ Nat.le_max_left ..
  · exact size_erase s i ▸ Nat.le_max_left ..
  · exact Nat.le_refl _
  · exact Nat.le_refl _

theorem size_le_of_editAll? {edits : List Edit} (h : s.editAll? edits = .ok s') :
    s.size ≤ s'.size :=
  editAll?_induction (P := fun t => s.size ≤ t.size)
    (fun _ _ _ hle he => Nat.le_trans hle (size_le_of_edit? he)) edits (Nat.le_refl _) h

/-! ### Built bitmaps -/

/-- **The bitmaps that can be built**, where combinations use the allowed operators
only. -/
inductive Built (Allowed : WordOp → Prop) : Bitmap → Prop
  /-- The bitmap that covers no index. -/
  | empty : Built Allowed empty
  /-- A bitmap of zeros. -/
  | zeros (n : Nat) : Built Allowed (zeros n)
  /-- A bitmap of ones. -/
  | ones (n : Nat) : Built Allowed (ones n)
  /-- Collected indexes. -/
  | ofList {indexes : List Nat} {s : Bitmap} (h : ofList? indexes = .ok s) : Built Allowed s
  /-- A change in place. -/
  | edit {s s' : Bitmap} {e : Edit} (hs : Built Allowed s) (he : s.edit? e = .ok s') :
      Built Allowed s'
  /-- A complement. -/
  | complement {s : Bitmap} (hs : Built Allowed s) : Built Allowed s.complement
  /-- A combination. -/
  | combine {s t : Bitmap} {op : WordOp} (hs : Built Allowed s) (ht : Built Allowed t)
      (hop : Allowed op) : Built Allowed (combine op s t)

variable {Allowed : WordOp → Prop}

/-- **A built bitmap has as many blocks as its size asks for**, whichever operators were
used. -/
theorem Built.wellSized (h : Built Allowed s) : s.WellSized := by
  induction h with
  | empty => exact wellSized_empty
  | zeros n => exact wellSized_zeros n
  | ones n => exact (wellSized_zeros n).fill
  | ofList h =>
    rw [ofList?_eq_editAll?] at h
    exact editAll?_induction (fun _ _ _ hs he => hs.edit? he) _ wellSized_empty h
  | edit _ he ih => exact ih.edit? he
  | complement _ ih => exact ih.complement
  | combine _ _ _ ihs iht => exact wellSized_combine _ ihs iht

/-- **Nothing is stored in the padding of a built bitmap** if all operators that were used
keep zeros. -/
theorem Built.canonical (hAllowed : ∀ op, Allowed op → Word.KeepsZeros op.combine)
    (h : Built Allowed s) : s.Canonical := by
  induction h with
  | empty => exact canonical_zeros 0
  | zeros n => exact canonical_zeros n
  | ones n => exact (wellSized_zeros n).canonical_fill
  | ofList h =>
    rw [ofList?_eq_editAll?] at h
    exact editAll?_induction (fun _ _ _ hs he => hs.edit? he) _ (canonical_zeros 0) h
  | edit _ he ih => exact ih.edit? he
  | complement _ ih => exact ih.wellSized.canonical_complement
  | combine _ _ hop ihs iht => exact ihs.combine (hAllowed _ hop) iht

/-- **What every built bitmap is.** Whichever operators were used, it has as many blocks
as its size asks for, the last one perhaps in part, and changes in place never make it
shorter. If all of them keep zeros, nothing is stored at or past its size; an operator
that acts place by place does, provided that it makes a zero of two zeros, and so do the
four standard ones. Whatever is stored in the padding of a bitmap with the right number of
blocks, nothing is after it was filled, cleared or complemented. -/
theorem invariants_of_built :
    (∀ Allowed s, Built Allowed s → s.blocks.size = (s.size + 1023) / 1024) ∧
      (∀ (s : Bitmap) edits s', s.editAll? edits = .ok s' → s.size ≤ s'.size) ∧
      (∀ Allowed s, (∀ op, Allowed op → Word.KeepsZeros op.combine) → Built Allowed s →
        ∀ i, s.size ≤ i → s.stored i = false) ∧
      (∀ (op : WordOp) f, Word.Pointwise op.combine f → f false false = false →
        Word.KeepsZeros op.combine) ∧
      (∀ op ∈ [WordOp.and, WordOp.or, WordOp.xor, WordOp.diff], Word.KeepsZeros op.combine) ∧
      ∀ s : Bitmap, s.blocks.size = (s.size + 1023) / 1024 →
        ∀ t ∈ [s.fill, s.clear, s.complement], t.size = s.size ∧
          t.blocks.size = s.blocks.size ∧ ∀ i, t.size ≤ i → t.stored i = false := by
  refine ⟨?_, ?_, ?_, ?_, ?_, ?_⟩
  · intro Allowed s h
    rw [← blocksFor_eq]
    exact h.wellSized
  · intro s edits s' h
    exact size_le_of_editAll? h
  · intro Allowed s hAllowed h
    exact (h.canonical hAllowed).padding
  · intro op f hf hzero
    exact hf.keepsZeros hzero
  · simp only [List.forall_mem_cons, List.not_mem_nil, false_implies, implies_true, and_true]
    exact ⟨WordOp.keepsZeros_and, WordOp.keepsZeros_or, WordOp.keepsZeros_xor,
      WordOp.keepsZeros_diff⟩
  · intro s hs t ht
    have h : s.WellSized := hs.trans (blocksFor_eq s.size).symm
    simp only [List.mem_cons, List.not_mem_nil, or_false] at ht
    rcases ht with rfl | rfl | rfl
    · exact ⟨rfl, Array.size_mapIdx, h.canonical_fill.padding⟩
    · exact ⟨rfl, Array.size_map, h.canonical_clear.padding⟩
    · exact ⟨rfl, Array.size_mapIdx, h.canonical_complement.padding⟩

/-- Two zeros make a one here, so that ones stand in the padding until the bitmap is
complemented; an operator that keeps zeros leaves none; and a bitmap that was cleared after
it grew stays as long as it was. -/
theorem invariants_of_built_nor :
    ∃ s t u : Bitmap,
      s = combine ⟨fun v w => ~~~(v ||| w), .readAsZero⟩ (zeros 1) (zeros 1030) ∧
      t = combine .xor (ones 3) (zeros 1030) ∧
      (zeros 3).editAll? [.set 1030, .clear] = .ok u ∧
      Built (fun _ => True) s ∧ s.stored 1030 = true ∧
      s.blocks.size = (1030 + 1023) / 1024 ∧ s.complement.stored 1030 = false ∧
      Built (fun op => Word.KeepsZeros op.combine) t ∧ t.stored 2 = true ∧
      t.stored 1030 = false ∧ (zeros 3).size ≤ u.size := by
  obtain ⟨hblocks, hedits, hpadding, -, -, hmasked⟩ := invariants_of_built
  have hs : Built (fun _ => True)
      (combine ⟨fun v w => ~~~(v ||| w), .readAsZero⟩ (zeros 1) (zeros 1030)) :=
    .combine (.zeros 1) (.zeros 1030) trivial
  have ht : Built (fun op => Word.KeepsZeros op.combine) (combine .xor (ones 3) (zeros 1030)) :=
    .combine (.ones 3) (.zeros 1030) WordOp.keepsZeros_xor
  exact ⟨_, _, _, rfl, rfl, rfl, hs, by decide +kernel, hblocks _ _ hs,
    (hmasked _ (hblocks _ _ hs) _ (by simp)).2.2 1030 (Nat.le_refl _), ht, by decide +kernel,
    hpadding _ _ (fun _ h => h) ht 1030 (Nat.le_refl _), hedits _ [.set 1030, .clear] _ rfl⟩

end Bitmap

end FacetIndex
