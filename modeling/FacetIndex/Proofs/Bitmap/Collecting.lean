import FacetIndex.Proofs.Bitmap.Members

/-!
# Collecting indexes and listing them again

A bitmap is collected from a list of indexes by putting ones at them one after the other
(`FacetIndex.Bitmap.ofList?`). It grows as it has to on the way, so how it comes about
depends on the order of the list. What it ends up as does not: the members are those of
the list (`FacetIndex.Bitmap.members_insertAll`), and the size is the least number that is
above all of them (`FacetIndex.Bitmap.size_insertAll_le_iff`), and these determine it.

Listing is therefore a left inverse of collecting up to the order and the repetitions, which
are lost. The other way round only the size is lost: a bitmap may cover indexes past its
last one, and the bitmap that is collected from its list does not. Growing to the old size
brings them back (`FacetIndex.Bitmap.Canonical.growTo_insertAll_toList`).

A list is refused exactly if it has an index that no bitmap can grow to cover, whatever
comes before it (`FacetIndex.Bitmap.ofList?_eq`).
-/

namespace FacetIndex.Bitmap

variable {s : Bitmap} {indexes others : List Nat} {i n : Nat}

/-- The bitmap with ones put at indexes, one after the other. -/
def insertAll (s : Bitmap) (indexes : List Nat) : Bitmap := indexes.foldl insert s

theorem insertAll_cons (s : Bitmap) (i : Nat) (indexes : List Nat) :
    s.insertAll (i :: indexes) = (s.insert i).insertAll indexes :=
  rfl

/-! ### What is refused -/

/-- The first index out of reach stops the collecting, and nothing else does. -/
theorem foldlM_set? (s : Bitmap) (indexes : List Nat) :
    indexes.foldlM (fun s i => Prod.snd <$> s.set? i) s =
      match indexes.find? fun i => decide (maxIndex ≤ i) with
      | none => .ok (s.insertAll indexes)
      | some i => .error (.noRoom i) := by
  induction indexes generalizing s with
  | nil => rfl
  | cons i indexes ih =>
    rw [List.foldlM_cons, set?_eq, List.find?_cons]
    rcases Nat.lt_or_ge i maxIndex with hi | hi
    · rw [if_pos hi, decide_eq_false (Nat.not_le.2 hi)]
      exact ih (s.insert i)
    · rw [if_neg (Nat.not_lt.2 hi), decide_eq_true hi]
      rfl

theorem ofList?_eq (indexes : List Nat) :
    ofList? indexes =
      match indexes.find? fun i => decide (maxIndex ≤ i) with
      | none => .ok (empty.insertAll indexes)
      | some i => .error (.noRoom i) :=
  foldlM_set? empty indexes

theorem ofList?_of_lt (h : ∀ i ∈ indexes, i < maxIndex) :
    ofList? indexes = .ok (empty.insertAll indexes) := by
  have hnone : (indexes.find? fun i => decide (maxIndex ≤ i)) = none := by
    rw [List.find?_eq_none]
    intro i hi
    rw [decide_eq_true_eq, Nat.not_le]
    exact h i hi
  rw [ofList?_eq, hnone]

/-- Among indexes, only the greatest is out of reach, so it is the one that is blamed. -/
theorem ofList?_of_mem (h : ∀ i ∈ indexes, i ≤ maxIndex) (hmax : maxIndex ∈ indexes) :
    ofList? indexes = .error (.noRoom maxIndex) := by
  rw [ofList?_eq]
  rcases hfind : indexes.find? fun i => decide (maxIndex ≤ i) with _ | i
  · have hnot := List.find?_eq_none.1 hfind maxIndex hmax
    rw [decide_eq_true_eq] at hnot
    exact absurd (Nat.le_refl _) hnot
  · have hge := List.find?_some hfind
    rw [decide_eq_true_eq] at hge
    rw [Nat.le_antisymm (h i (List.mem_of_find?_eq_some hfind)) hge]

/-! ### What is collected -/

theorem canonical_empty : empty.Canonical := canonical_zeros 0

theorem Canonical.insertAll (h : s.Canonical) (indexes : List Nat) :
    (s.insertAll indexes).Canonical := by
  induction indexes generalizing s with
  | nil => exact h
  | cons i indexes ih => exact ih (h.insert i)

/-- **The indexes become members**, and those that were stay. -/
theorem members_insertAll (h : s.Canonical) (indexes : List Nat) :
    (s.insertAll indexes).members = s.members ∪ indexes.toFinset := by
  induction indexes generalizing s with
  | nil => exact (Finset.union_empty s.members).symm
  | cons i indexes ih =>
    rw [insertAll_cons, ih (h.insert i), members_insert h.wellSized, List.toFinset_cons,
      Finset.insert_union, Finset.union_insert]

/-- **The bitmap grows as far as the indexes go**, in whichever order they come. -/
theorem size_insertAll_le_iff :
    (s.insertAll indexes).size ≤ n ↔ s.size ≤ n ∧ ∀ i ∈ indexes, i < n := by
  induction indexes generalizing s with
  | nil => exact (and_iff_left (List.forall_mem_nil _)).symm
  | cons i indexes ih =>
    rw [insertAll_cons, ih, size_insert, Nat.max_le, Nat.succ_le_iff, List.forall_mem_cons,
      and_assoc]

/-- Collected from nothing, it ends right behind the greatest index. -/
theorem size_empty_insertAll (indexes : List Nat) :
    (empty.insertAll indexes).size = indexes.max?.elim 0 (· + 1) := by
  refine eq_of_forall_ge_iff fun n => ?_
  have hempty : empty.size ≤ n := Nat.zero_le n
  rw [size_insertAll_le_iff, and_iff_right hempty]
  rcases hmax : indexes.max? with _ | m
  · rw [List.max?_eq_none_iff.1 hmax]
    exact iff_of_true (List.forall_mem_nil _) (Nat.zero_le n)
  · obtain ⟨hmem, hle⟩ := List.max?_eq_some_iff.1 hmax
    exact ⟨fun h => h m hmem, fun h i hi => Nat.lt_of_le_of_lt (hle i hi) h⟩

theorem members_empty_insertAll (indexes : List Nat) :
    (empty.insertAll indexes).members = indexes.toFinset := by
  rw [members_insertAll canonical_empty, members_empty, Finset.empty_union]

/-- **Neither the order nor the repetitions of a list are left in what it is collected
into.** -/
theorem insertAll_congr (h : s.Canonical) (hmem : ∀ i, i ∈ indexes ↔ i ∈ others) :
    s.insertAll indexes = s.insertAll others := by
  refine ext_members (h.insertAll indexes).wellSized (h.insertAll others).wellSized ?_ ?_
  · refine eq_of_forall_ge_iff fun n => ?_
    rw [size_insertAll_le_iff, size_insertAll_le_iff]
    simp only [hmem]
  · rw [members_insertAll h, members_insertAll h, List.toFinset.ext_iff.2 hmem]

/-! ### Collecting what was listed -/

/-- The list of a bitmap has no index that is not below the size. -/
theorem Canonical.lt_of_mem_toList (h : s.Canonical) (hi : i ∈ s.toList) : i < s.size :=
  h.lt_size ((mem_toList_iff s i).1 hi)

theorem Canonical.size_insertAll_toList (h : s.Canonical) :
    (empty.insertAll s.toList).size ≤ s.size :=
  size_insertAll_le_iff.2 ⟨Nat.zero_le _, fun _ => h.lt_of_mem_toList⟩

/-- **Collected again and made to cover as much, a bitmap is what it was.** -/
theorem Canonical.growTo_insertAll_toList (h : s.Canonical) :
    (empty.insertAll s.toList).growTo s.size = s := by
  have hcollected : (empty.insertAll s.toList).Canonical := canonical_empty.insertAll s.toList
  refine ext_members (hcollected.growTo s.size).wellSized h.wellSized ?_ ?_
  · rw [size_growTo, Nat.max_eq_right h.size_insertAll_toList]
  · rw [members_growTo, members_empty_insertAll]
    rfl

/-- **Collecting and listing are inverse.** Indexes in any order, and with any repetitions,
are collected into a bitmap that lists them once each in ascending order, that ends right
behind the greatest of them, and that has as many blocks as this takes. Lists with the same
members are collected into the same bitmap, and a list with the one index that no bitmap can
grow to cover is refused. The other way round, a canonical bitmap of any size that there is
is listed and collected into one with the same indexes and no larger, which is the old one
again as soon as it covers as much. -/
theorem listing_of_ofList? :
    (∀ indexes : List Nat, (∀ i ∈ indexes, i < maxIndex) →
        ∃ s, ofList? indexes = .ok s ∧ s.toList = indexes.toFinset.sort ∧
          s.size = indexes.max?.elim 0 (· + 1) ∧ s.blocks.size = (s.size + 1023) / 1024) ∧
      (∀ indexes others : List Nat, (∀ i ∈ indexes, i ≤ maxIndex) →
        (∀ i, i ∈ indexes ↔ i ∈ others) → ofList? indexes = ofList? others) ∧
      (∀ indexes : List Nat, (∀ i ∈ indexes, i ≤ maxIndex) → maxIndex ∈ indexes →
        ofList? indexes = .error (.noRoom maxIndex)) ∧
      ∀ s : Bitmap, s.Canonical → s.size ≤ maxIndex →
        ∃ t, ofList? s.toList = .ok t ∧ (∀ i, t.contains i = s.contains i) ∧
          t.size ≤ s.size ∧ t.growTo s.size = s := by
  refine ⟨?_, ?_, fun indexes => ofList?_of_mem, ?_⟩
  · intro indexes hroom
    refine ⟨_, ofList?_of_lt hroom, ?_, size_empty_insertAll indexes, ?_⟩
    · rw [toList_eq_sort, members_empty_insertAll]
    · rw [← blocksFor_eq]
      exact (canonical_empty.insertAll indexes).wellSized
  · intro indexes others hroom hmem
    have hroom' : ∀ i ∈ others, i ≤ maxIndex := fun i hi => hroom i ((hmem i).2 hi)
    by_cases hmax : maxIndex ∈ indexes
    · rw [ofList?_of_mem hroom hmax, ofList?_of_mem hroom' ((hmem _).1 hmax)]
    · have hlt : ∀ i ∈ indexes, i < maxIndex := fun i hi =>
        Nat.lt_of_le_of_ne (hroom i hi) fun heq => hmax (heq ▸ hi)
      rw [ofList?_of_lt hlt, ofList?_of_lt fun i hi => hlt i ((hmem i).2 hi),
        insertAll_congr canonical_empty hmem]
  · intro s hs hsize
    have hroom : ∀ i ∈ s.toList, i < maxIndex := fun i hi =>
      Nat.lt_of_lt_of_le (hs.lt_of_mem_toList hi) hsize
    refine ⟨_, ofList?_of_lt hroom, fun i => ?_, hs.size_insertAll_toList,
      hs.growTo_insertAll_toList⟩
    rw [Bool.eq_iff_iff, (canonical_empty.insertAll _).contains_iff_mem, hs.contains_iff_mem,
      members_empty_insertAll]
    rfl

/-- Indexes of three blocks, out of order and one of them twice; the same with the index out
of reach; and a bitmap that covers more than its last one. -/
theorem listing_of_ofList?_unsorted :
    ∃ indexes : List Nat, indexes = [2500, 3, 1024, 3] ∧ (∀ i ∈ indexes, i < maxIndex) ∧
      (∃ s, ofList? indexes = .ok s ∧ s.toList = [3, 1024, 2500] ∧ s.size = 2501 ∧
        s.blocks.size = 3 ∧ ofList? [3, 1024, 2500] = .ok s) ∧
      (∀ i ∈ maxIndex :: indexes, i ≤ maxIndex) ∧
      ofList? (maxIndex :: indexes) = .error (.noRoom maxIndex) ∧
      ((zeros 4000).insert 1024).Canonical ∧ ((zeros 4000).insert 1024).size ≤ maxIndex ∧
      ∃ t, ofList? ((zeros 4000).insert 1024).toList = .ok t ∧ t.contains 1024 = true ∧
        t.size ≤ 4000 ∧ t.growTo 4000 = (zeros 4000).insert 1024 := by
  obtain ⟨hcollect, hcongr, hrefuse, hagain⟩ := listing_of_ofList?
  have hroom : ∀ i ∈ [2500, 3, 1024, 3], i < maxIndex := by decide
  have hroom' : ∀ i ∈ [maxIndex, 2500, 3, 1024, 3], i ≤ maxIndex := by decide
  have hs : ((zeros 4000).insert 1024).Canonical := (canonical_zeros 4000).insert 1024
  have hsize : ((zeros 4000).insert 1024).size ≤ maxIndex := by decide +kernel
  obtain ⟨s, hok, hlist, hend, hblocks⟩ := hcollect _ hroom
  obtain ⟨t, hcollected, hbits, hle, hgrown⟩ := hagain _ hs hsize
  have hend : s.size = 2501 := hend
  refine ⟨_, rfl, hroom, ⟨s, hok, ?_, hend, ?_, ?_⟩, hroom',
    hrefuse _ hroom' List.mem_cons_self, hs, hsize, t, hcollected, ?_, hle, hgrown⟩
  · have hset : [2500, 3, 1024, 3].toFinset = [3, 1024, 2500].toFinset := by decide
    rw [hlist, hset]
    exact (List.toFinset_sort _ (by decide)).2 (by decide)
  · rw [hblocks, hend]
  · rw [← hok]
    refine hcongr _ _ (by decide) fun i => ?_
    simp only [List.mem_cons, List.not_mem_nil, or_false]
    omega
  · rw [hbits]
    decide +kernel

end FacetIndex.Bitmap
