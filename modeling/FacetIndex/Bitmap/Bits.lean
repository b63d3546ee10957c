import FacetIndex.Bitmap.Algebra
import FacetIndex.Cursor.Reading
import FacetIndex.WordOp.Blocks

/-!
# The bits of a bitmap

What each operation on bitmaps does to the stored bit of an index
(`FacetIndex.Bitmap.stored`) and to the size. Two bitmaps with the right number of
blocks are equal if they agree in both (`FacetIndex.Bitmap.ext_stored`). From the
stored bits below the size comes what can be seen of a bitmap
(`FacetIndex.Bitmap.contains`), and from all of them the list
(`FacetIndex.Bitmap.toList_eq`).

Only `FacetIndex.Bitmap.WellSized` is asked for; ones in the padding are allowed
throughout.
-/

namespace FacetIndex.Bitmap

theorem contains_eq (s : Bitmap) (i : Nat) :
    s.contains i = (decide (i < s.size) && s.stored i) := rfl

theorem stored_eq_of_lt (s : Bitmap) {i : Nat} (h : i / 1024 < s.blocks.size) :
    s.stored i = (s.blocks[i / 1024]).contains (i % 1024) := by
  simp [stored, Array.getElem?_eq_getElem h]

theorem stored_of_le (s : Bitmap) {i : Nat} (h : s.blocks.size ≤ i / 1024) :
    s.stored i = false := by
  rw [stored, Array.getElem?_eq_none h]
  rfl

/-- Place `i` of block `k` stores the bit of index `1024 * k + i`. -/
theorem stored_of_block (s : Bitmap) {k i : Nat} (hk : k < s.blocks.size) (hi : i < 1024) :
    s.stored (1024 * k + i) = (s.blocks[k]).contains i := by
  have hblock : (1024 * k + i) / 1024 = k := by omega
  have hplace : (1024 * k + i) % 1024 = i := by omega
  rw [stored_eq_of_lt s (by omega)]
  simp only [hblock, hplace]

/-- The numbers of blocks, the sizes and the stored bits determine a bitmap, be the number
of blocks the right one or not. -/
theorem ext_blocks {s t : Bitmap} (hblocks : s.blocks.size = t.blocks.size)
    (hsize : s.size = t.size) (h : ∀ i, s.stored i = t.stored i) : s = t := by
  obtain ⟨u, n⟩ := s
  obtain ⟨v, m⟩ := t
  simp only at hsize hblocks
  subst hsize
  congr 1
  apply Array.ext hblocks
  intro k hk hk'
  apply Block.ext_contains
  intro i hi
  have hbit := h (1024 * k + i)
  rwa [stored_of_block _ hk hi, stored_of_block _ hk' hi] at hbit

/-- The sizes and the stored bits determine a bitmap with the right number of
blocks. -/
theorem ext_stored {s t : Bitmap} (hs : s.WellSized) (ht : t.WellSized) (hsize : s.size = t.size)
    (h : ∀ i, s.stored i = t.stored i) : s = t :=
  ext_blocks (by rw [hs, ht, hsize]) hsize h

/-! ### Growing -/

theorem wellSized_empty : empty.WellSized := rfl

theorem wellSized_zeros (n : Nat) : (zeros n).WellSized := Array.size_replicate

@[simp] theorem stored_zeros (n i : Nat) : (zeros n).stored i = false := by
  unfold stored zeros
  by_cases h : i / 1024 < blocksFor n <;> simp [h]

@[simp] theorem size_growTo (s : Bitmap) (n : Nat) : (s.growTo n).size = max s.size n := by
  unfold growTo
  split
  · omega
  · simp only
    omega

@[simp] theorem stored_growTo (s : Bitmap) (n i : Nat) : (s.growTo n).stored i = s.stored i := by
  unfold growTo
  split
  · rfl
  · simp only [stored, Array.getElem?_append]
    split
    · rfl
    · next h =>
      rw [Array.getElem?_eq_none (Nat.le_of_not_lt h), Array.getElem?_replicate]
      split <;> simp

theorem WellSized.growTo {s : Bitmap} (h : s.WellSized) (n : Nat) : (s.growTo n).WellSized := by
  unfold Bitmap.growTo
  split
  · exact h
  · next hn =>
    have := blocksFor_mono (Nat.le_of_lt (Nat.lt_of_not_le hn))
    simp only [WellSized, Array.size_append, Array.size_replicate] at h ⊢
    omega

/-! ### Writing -/

theorem stored_mapBlock (s : Bitmap) (i j : Nat) (f : Block → Block) :
    (s.mapBlock i f).stored j =
      if i / 1024 = j / 1024 then s.blocks[j / 1024]?.any (fun b => (f b).contains (j % 1024))
      else s.stored j := by
  simp only [stored, mapBlock, Array.getElem?_modify]
  split
  · rw [Option.any_map]
  · rfl

theorem WellSized.mapBlock {s : Bitmap} (h : s.WellSized) (i : Nat) (f : Block → Block) :
    (s.mapBlock i f).WellSized := by
  simp only [WellSized, Bitmap.mapBlock, Array.size_modify]
  exact h

/-- It matters only what is done to the block of the index. -/
theorem mapBlock_congr {s : Bitmap} {i : Nat} {b : Block} (hb : s.blocks[i / 1024]? = some b)
    {f g : Block → Block} (h : f b = g b) : s.mapBlock i f = s.mapBlock i g := by
  refine congrArg (fun blocks => (⟨blocks, s.size⟩ : Bitmap)) (Array.ext_getElem? fun k => ?_)
  rw [Array.getElem?_modify, Array.getElem?_modify]
  split
  · next hk => rw [← hk, hb, Option.map_some, Option.map_some, h]
  · rfl

/-- After growing to cover `i` there is a block for it. -/
theorem WellSized.div_lt {s : Bitmap} (h : s.WellSized) {i : Nat} (hi : i < s.size) :
    i / 1024 < s.blocks.size := by
  rw [h, div_lt_blocksFor_iff]
  omega

theorem size_insert (s : Bitmap) (i : Nat) : (s.insert i).size = max s.size (i + 1) :=
  size_growTo s (i + 1)

theorem size_erase (s : Bitmap) (i : Nat) : (s.erase i).size = max s.size (i + 1) :=
  size_growTo s (i + 1)

theorem WellSized.insert {s : Bitmap} (h : s.WellSized) (i : Nat) : (s.insert i).WellSized :=
  (h.growTo (i + 1)).mapBlock i _

theorem WellSized.erase {s : Bitmap} (h : s.WellSized) (i : Nat) : (s.erase i).WellSized :=
  (h.growTo (i + 1)).mapBlock i _

/-- **Writing the bit `v` at one place of one block** of a bitmap that was made to cover its
index writes it at this index and nowhere else. -/
theorem stored_mapBlock_of_place {s : Bitmap} (h : s.WellSized) {f : Block → Block} {i : Nat}
    {v : Bool} (hf : ∀ b k, (f b).contains k = if k = i % 1024 then v else b.contains k) (j : Nat) :
    ((s.growTo (i + 1)).mapBlock i f).stored j = if j = i then v else s.stored j := by
  rw [stored_mapBlock]
  split
  · next hij =>
    have hplace : j % 1024 = i % 1024 ↔ j = i := ⟨Nat.ext_div_mod hij.symm, congrArg (· % 1024)⟩
    have hlt : j / 1024 < (s.growTo (i + 1)).blocks.size :=
      hij ▸ (h.growTo (i + 1)).div_lt (by rw [size_growTo]; omega)
    rw [← stored_growTo s (i + 1) j, stored_eq_of_lt _ hlt, Array.getElem?_eq_getElem hlt,
      Option.any_some, hf]
    simp only [hplace]
  · next hij => rw [stored_growTo, if_neg fun he => hij (by rw [he])]

theorem stored_insert {s : Bitmap} (h : s.WellSized) (i j : Nat) :
    (s.insert i).stored j = (s.stored j || j == i) := by
  have hput : (s.insert i).stored j = if j = i then true else s.stored j :=
    stored_mapBlock_of_place h (fun b => b.contains_put (Nat.mod_lt i (by decide)) true) j
  rw [hput]
  by_cases hj : j = i <;> simp [hj]

theorem stored_erase {s : Bitmap} (h : s.WellSized) (i j : Nat) :
    (s.erase i).stored j = (s.stored j && j != i) := by
  have hput : (s.erase i).stored j = if j = i then false else s.stored j :=
    stored_mapBlock_of_place h (fun b => b.contains_put (Nat.mod_lt i (by decide)) false) j
  rw [hput]
  by_cases hj : j = i <;> simp [hj]

/-- Only the index that no bitmap can grow to cover is refused. -/
theorem set?_eq (s : Bitmap) (i : Nat) :
    s.set? i = if i < maxIndex then .ok (!s.stored i, s.insert i) else .error (.noRoom i) := by
  unfold set? checkRoom
  split <;> rfl

theorem unset?_eq (s : Bitmap) (i : Nat) :
    s.unset? i = if i < maxIndex then .ok (s.stored i, s.erase i) else .error (.noRoom i) := by
  unfold unset? checkRoom
  split <;> rfl

/-! ### All bits at once -/

theorem WellSized.fill {s : Bitmap} (h : s.WellSized) : s.fill.WellSized := by
  simp only [WellSized, Bitmap.fill, Array.size_mapIdx]
  exact h

theorem WellSized.clear {s : Bitmap} (h : s.WellSized) : s.clear.WellSized := by
  simp only [WellSized, Bitmap.clear, Array.size_map]
  exact h

theorem WellSized.complement {s : Bitmap} (h : s.WellSized) : s.complement.WellSized := by
  simp only [WellSized, Bitmap.complement, Array.size_mapIdx]
  exact h

theorem stored_fill {s : Bitmap} (h : s.WellSized) (i : Nat) :
    s.fill.stored i = decide (i < s.size) := by
  rw [stored, Bitmap.fill, Array.getElem?_mapIdx]
  by_cases hi : i / 1024 < s.blocks.size
  · rw [Array.getElem?_eq_getElem hi, Option.map_some, Option.any_some,
      Block.contains_below (activeLength_le ..), decide_eq_decide]
    exact mod_lt_activeLength_iff s.size i
  · have : ¬ i < s.size := fun hlt => hi (h.div_lt hlt)
    rw [Array.getElem?_eq_none (Nat.le_of_not_lt hi)]
    simp [this]

@[simp] theorem stored_clear (s : Bitmap) (i : Nat) : s.clear.stored i = false := by
  rw [stored, clear, Array.getElem?_map, Option.any_map]
  cases s.blocks[i / 1024]? <;> simp

theorem stored_complement {s : Bitmap} (h : s.WellSized) (i : Nat) :
    s.complement.stored i = (decide (i < s.size) && !s.stored i) := by
  rw [stored, Bitmap.complement, Array.getElem?_mapIdx]
  by_cases hi : i / 1024 < s.blocks.size
  · rw [Array.getElem?_eq_getElem hi, Option.map_some, Option.any_some,
      Block.contains_complement _ (activeLength_le ..), stored_eq_of_lt s hi]
    simp only [mod_lt_activeLength_iff]
  · have : ¬ i < s.size := fun hlt => hi (h.div_lt hlt)
    rw [Array.getElem?_eq_none (Nat.le_of_not_lt hi)]
    simp [this]

/-! ### Combining -/

theorem size_combine (op : WordOp) (s t : Bitmap) : (combine op s t).size = max s.size t.size := rfl

theorem size_blocks_combine (op : WordOp) (s t : Bitmap) :
    (combine op s t).blocks.size = max s.blocks.size t.blocks.size :=
  Array.size_ofFn

theorem wellSized_combine (op : WordOp) {s t : Bitmap} (hs : s.WellSized) (ht : t.WellSized) :
    (combine op s t).WellSized := by
  rw [WellSized, size_blocks_combine, size_combine, blocksFor_max, hs, ht]

/-- Every block of a combination joins two blocks, the zero block for a missing
one. -/
theorem getElem_combine (op : WordOp) (s t : Bitmap) {k : Nat}
    (h : k < (combine op s t).blocks.size) :
    (combine op s t).blocks[k] =
      Block.combine op.combine (s.blocks[k]?.getD .empty) (t.blocks[k]?.getD .empty) := by
  simp only [combine, Array.size_ofFn] at h
  simp only [combine, Array.getElem_ofFn]
  refine WordOp.combineBlocks_getD op ?_
  rcases Nat.lt_or_ge k s.blocks.size with hs | hs
  · exact .inl (by rw [Array.getElem?_eq_getElem hs]; rfl)
  · exact .inr (by rw [Array.getElem?_eq_getElem (by omega)]; rfl)

theorem stored_eq_getD (s : Bitmap) (i : Nat) :
    s.stored i = (s.blocks[i / 1024]?.getD .empty).contains (i % 1024) := by
  unfold stored
  cases s.blocks[i / 1024]? <;> simp

/-- An operator that acts place by place acts index by index, as far as the blocks
go. -/
theorem stored_combine {op : WordOp} {f : Bool → Bool → Bool} (hf : Word.Pointwise op.combine f)
    (s t : Bitmap) {i : Nat} (h : i / 1024 < max s.blocks.size t.blocks.size) :
    (combine op s t).stored i = f (s.stored i) (t.stored i) := by
  have hlt : i / 1024 < (combine op s t).blocks.size := by simpa [combine] using h
  rw [stored_eq_of_lt _ hlt, getElem_combine,
    Block.contains_combine hf _ _ (Nat.mod_lt i (by decide)), ← stored_eq_getD, ← stored_eq_getD]

/-- The count that builds nothing is the number of ones stored in the
combination. -/
theorem combineCount_eq (op : WordOp) (s t : Bitmap) :
    combineCount op s t = total ((combine op s t).blocks.map Block.countAll).toList := by
  rw [combineCount, combine, Array.map_ofFn]
  congr 3
  funext k
  rw [Function.comp_apply, WordOp.countBlocks_eq]
  cases op.combineBlocks s.blocks[k.val]? t.blocks[k.val]? with
  | none => exact WordOp.countAll_empty.symm
  | some b => rfl

/-! ### Listing and counting -/

/-- The list is that of the indexes of the stored ones. -/
theorem toList_eq (s : Bitmap) :
    s.toList = (List.range (1024 * s.blocks.size)).filter s.stored :=
  IndexCursor.drain_ofBlocks s.blocks

theorem mem_toList_iff (s : Bitmap) (i : Nat) : i ∈ s.toList ↔ s.stored i = true := by
  rw [toList_eq, List.mem_filter, List.mem_range, and_iff_right_iff_imp]
  intro h
  rcases Nat.lt_or_ge (i / 1024) s.blocks.size with hlt | hge
  · omega
  · simp [stored_of_le s hge] at h

theorem activeLength_succ (size k : Nat) :
    activeLength size (k + 1) = activeLength (size - 1024) k := by
  simp only [activeLength]
  omega

/-- The indexes in the first block come first, the others after them. -/
theorem filter_blocks_cons (b : Block) (bs : List Block) (size : Nat) :
    (List.range size).filter (fun i => (b :: bs)[i / 1024]?.any (·.contains (i % 1024))) =
      (List.range (min size 1024)).filter b.contains ++
        ((List.range (size - 1024)).filter
          fun i => bs[i / 1024]?.any (·.contains (i % 1024))).map (1024 + ·) := by
  have hfirst : ∀ n, n ≤ 1024 → (List.range n).filter
      (fun i => (b :: bs)[i / 1024]?.any (·.contains (i % 1024))) =
      (List.range n).filter b.contains := by
    intro n hn
    refine List.filter_congr fun i hi => ?_
    have hi := List.mem_range.mp hi
    have hd : i / 1024 = 0 := by omega
    have hm : i % 1024 = i := by omega
    simp [hd, hm]
  rcases Nat.le_total size 1024 with hle | hge
  · rw [hfirst size hle, Nat.min_eq_left hle, Nat.sub_eq_zero_of_le hle]
    exact (List.append_nil _).symm
  · obtain ⟨n, rfl⟩ := Nat.exists_eq_add_of_le hge
    rw [List.range_add, List.filter_append, hfirst 1024 (Nat.le_refl _), Nat.min_eq_right hge,
      Nat.add_sub_cancel_left, List.filter_map]
    refine congrArg _ (congrArg _ (List.filter_congr fun i _ => ?_))
    have hd : (1024 + i) / 1024 = i / 1024 + 1 := by omega
    have hm : (1024 + i) % 1024 = i % 1024 := by omega
    simp only [Function.comp_apply, hd, hm, List.getElem?_cons_succ]

theorem total_mapIdx_count (bs : List Block) (size : Nat) :
    total (bs.mapIdx fun k b => b.count (activeLength size k)) =
      ((List.range size).filter fun i => bs[i / 1024]?.any (·.contains (i % 1024))).length := by
  induction bs generalizing size with
  | nil => exact (congrArg List.length (List.filter_eq_nil_iff.2 fun i _ => by simp)).symm
  | cons b bs ih =>
    have hactive : activeLength size 0 = min size 1024 := by simp [activeLength]
    rw [List.mapIdx_cons, total_cons, Block.count_eq_length _ (activeLength_le ..), hactive,
      filter_blocks_cons, List.length_append, List.length_map, ← ih]
    simp only [activeLength_succ]

/-- The count is the number of indexes below the size that have a one. -/
theorem count_eq_length (s : Bitmap) : s.count = ((List.range s.size).filter s.stored).length := by
  rw [count, Array.toList_mapIdx, total_mapIdx_count]
  simp only [Array.getElem?_toList]
  rfl

theorem count_le_size (s : Bitmap) : s.count ≤ s.size := by
  rw [count_eq_length]
  exact Nat.le_trans (List.length_filter_le ..) (Nat.le_of_eq List.length_range)

end FacetIndex.Bitmap
