import FacetIndex.Request
import FacetIndex.Proofs.Bitmap.Counting
import FacetIndex.Proofs.Catalog.Clean
import FacetIndex.Proofs.Facet.Widening

/-!
# Complements over the indexes that were made

What lacks a property is asked for in four ways, and each is computed by a route of its
own:

| asked for | computed by |
|---|---|
| the complement of a facet that covers the domain | complementing its bits |
| the complement of a facet that ends before it | growing a copy, and complementing that |
| the complement of a set of indexes | growing a copy, if need be, and complementing that |
| how many indexes a facet or a set lacks | subtracting a count from a size |

All of them come to one thing, `FacetIndex.Bitmap.IsComplement`: over the domain, and
over what the set covers beyond it, exactly the ones and zeros are exchanged, so that the
counts of the two add up to the domain. Three facts make the routes meet. Growing shows
no one that was not there (`FacetIndex.Bitmap.Canonical.count_growTo`); the complement
masks what is past its size, wherever in a block this is
(`FacetIndex.Bitmap.WellSized.count_complement`); and no facet of a live catalog covers
more than the indexes that were made, so that its complement covers just these
(`FacetIndex.Facet.Clean.isComplement`).
-/

namespace FacetIndex

/-! ### Sets of indexes -/

namespace Bitmap

variable {s t : Bitmap} {n : Nat}

/-- **`t` is the complement of `s` over the first `n` indexes.** -/
structure IsComplement (t s : Bitmap) (n : Nat) : Prop where
  canonical : t.Canonical
  size : t.size = n
  contains : ∀ i, i < n → t.contains i = !s.contains i
  count : t.count = n - s.count
  /-- So that nothing is cut off by the subtraction. -/
  count_le : s.count ≤ n

namespace Canonical

variable (h : s.Canonical)

include h

theorem contains_complementWithin (n i : Nat) :
    (s.complementWithin n).contains i = (decide (i < max s.size n) && !s.contains i) := by
  rw [(h.complementWithin n).contains_eq, stored_complementWithin h.wellSized, h.contains_eq]

/-- **Complementing and subtracting agree**: the complement has as many ones as its size
leaves to it. -/
theorem count_complementWithin (n : Nat) :
    (s.complementWithin n).count = s.complementCountWithin n := by
  have hcount := (h.growTo n).wellSized.count_complement
  rw [h.count_growTo, size_growTo] at hcount
  rw [Bitmap.complementWithin, complementCountWithin]
  omega

/-- The complement covers what the bitmap covers and the domain as well. -/
theorem isComplement (n : Nat) : (s.complementWithin n).IsComplement s (max s.size n) where
  canonical := h.complementWithin n
  size := size_complementWithin s n
  contains i hi := by rw [h.contains_complementWithin, decide_eq_true hi, Bool.true_and]
  count := h.count_complementWithin n
  count_le := Nat.le_trans s.count_le_size (Nat.le_max_left ..)

end Canonical

end Bitmap

/-! ### Facets -/

namespace Facet

variable {f : Facet} {r : Registry}

/-- **The complement of a facet covers the indexes that were made, and no more**, whether
the facet ends before the last of them or not. -/
theorem Clean.isComplement (h : f.Clean r) :
    (f.complement (some r)).IsComplement f.bits r.capacity := by
  have hwithin := h.canonical.isComplement r.capacity
  rw [Nat.max_eq_right h.size_le] at hwithin
  rw [complement_eq]
  exact hwithin

/-- It has the indexes that read as zeros. -/
theorem Clean.contains_complement_iff (h : f.Clean r) (i : Nat) :
    (f.complement (some r)).contains i = true ↔
      i < r.capacity ∧ f.getIndex? (some r) i = .ok false := by
  have hcomplement := h.isComplement
  rcases Nat.lt_or_ge i r.capacity with hi | hi
  · rw [hcomplement.contains i hi, getIndex?_of_lt f hi, Bool.not_eq_true', Except.ok.injEq]
    exact (and_iff_right hi).symm
  -- Past the capacity the complement ends, and reading is refused.
  · have hpast : ¬ i < (f.complement (some r)).size := by
      rw [hcomplement.size]
      exact Nat.not_lt.2 hi
    rw [Bitmap.contains, decide_eq_false hpast, Bool.false_and]
    exact iff_of_false Bool.false_ne_true fun h => Nat.not_lt.2 hi h.1

/-- Counting what lacks the property builds nothing, and gives the same. -/
theorem Clean.complementCount_eq (h : f.Clean r) :
    f.complementCount (some r) = (f.complement (some r)).count := by
  rw [complement_eq, h.canonical.count_complementWithin]
  rfl

end Facet

/-! ### After every history -/

namespace Catalog

variable {c : Catalog} {r : Registry}

/-- **Complements after every history.** The complement of a facet is over the indexes
made so far, however far the facet reaches; it has just the indexes that are in range and
read as zeros, those that are free among them, and counting them without building it is
taking the facet's count from the capacity. The complement of a set of indexes, asked of a
facet, is over the same domain, or over what the set covers if this is more, and again it
is counted without being built. A facet that is asked to complement a copy of another one
gives the other's complement, bit by bit. No subtraction ever falls short. -/
theorem complements_of_run (config : Config) (history : List Change)
    (hc : ((create config).run history).2 = c) (hlive : c.owner = some r) {F : FacetId}
    {f : Facet} (hF : c.facetOf? F = some f) :
    ((f.complement c.owner).IsComplement f.bits r.capacity ∧
        (∀ i, (f.complement c.owner).contains i = true ↔
          i < r.capacity ∧ f.getIndex? c.owner i = .ok false) ∧
        f.complementCount c.owner = (f.complement c.owner).count) ∧
      (∀ s : Bitmap, s.Canonical → ∃ t, f.answer c.owner (.complementOf s) = .set t ∧
        t.IsComplement s (max s.size r.capacity) ∧
        f.answer c.owner (.complementCountOf s) = .number t.count) ∧
      ∀ G g, c.facetOf? G = some g →
        f.answer c.owner (.complementOf g.bits) = .set (g.complement c.owner) := by
  subst hc
  have h := (clean_of_run config history hlive).facets F f hF
  rw [hlive]
  refine ⟨⟨h.isComplement, h.contains_complement_iff, h.complementCount_eq⟩, ?_, ?_⟩
  · intro s hs
    refine ⟨_, rfl, hs.isComplement r.capacity, ?_⟩
    rw [hs.count_complementWithin]
    rfl
  · intro G g hG
    rw [Facet.answer, g.complement_eq]

/-- Of two facets over three indexes, one ends after the first and the other covers all;
index 1 is free. A set that covers more than was made is complemented as far as it
goes. -/
theorem complements_of_run_lagging :
    ∃ c r f g, ((create {}).run [.newAspect "Kind" "Kind", .upsert "a",
        .newFacet ⟨0⟩ "new" "New", .newFacet ⟨0⟩ "old" "Old", .setItem ⟨⟨0⟩, 0⟩ "a",
        .upsert "b", .upsert "c", .setItem ⟨⟨0⟩, 1⟩ "c", .remove "b"]).2 = c ∧
      c.owner = some r ∧ c.facetOf? ⟨⟨0⟩, 0⟩ = some f ∧ c.facetOf? ⟨⟨0⟩, 1⟩ = some g ∧
      f.bits.size = 1 ∧ g.bits.size = 3 ∧ r.capacity = 3 ∧
      (f.complement c.owner).IsComplement f.bits r.capacity ∧
      (f.complement c.owner).contains 1 = true ∧ (f.complement c.owner).count = 2 ∧
      f.answer c.owner (.complementOf g.bits) = .set (g.complement c.owner) ∧
      ((Bitmap.zeros 1030).insert 1029).Canonical ∧
      ∃ t, f.answer c.owner (.complementOf ((Bitmap.zeros 1030).insert 1029)) = .set t ∧
        t.IsComplement ((Bitmap.zeros 1030).insert 1029) (max 1030 r.capacity) ∧
        f.answer c.owner (.complementCountOf ((Bitmap.zeros 1030).insert 1029)) =
          .number t.count := by
  obtain ⟨c, hc⟩ : ∃ c, ((create {}).run [.newAspect "Kind" "Kind", .upsert "a",
      .newFacet ⟨0⟩ "new" "New", .newFacet ⟨0⟩ "old" "Old", .setItem ⟨⟨0⟩, 0⟩ "a",
      .upsert "b", .upsert "c", .setItem ⟨⟨0⟩, 1⟩ "c", .remove "b"]).2 = c := ⟨_, rfl⟩
  have hstate : c.owner.any (fun r => r.capacity = 3) = true := by
    rw [← hc]
    decide +kernel
  have hshort : (c.facetOf? ⟨⟨0⟩, 0⟩).any (fun f => f.bits = .ones 1) = true := by
    rw [← hc]
    decide +kernel
  have hlong : (c.facetOf? ⟨⟨0⟩, 1⟩).any (fun g => g.bits.size = 3) = true := by
    rw [← hc]
    decide +kernel
  obtain ⟨r, hr, hcapacity⟩ := (Option.any_eq_true _ _).1 hstate
  obtain ⟨f, hf, hbits⟩ := (Option.any_eq_true _ _).1 hshort
  obtain ⟨g, hg, hsize⟩ := (Option.any_eq_true _ _).1 hlong
  have hcapacity : r.capacity = 3 := of_decide_eq_true hcapacity
  have hbits : f.bits = .ones 1 := of_decide_eq_true hbits
  have hs : ((Bitmap.zeros 1030).insert 1029).Canonical :=
    (Bitmap.canonical_zeros 1030).insert 1029
  obtain ⟨⟨hcomplement, -, -⟩, hsets, hfacets⟩ := complements_of_run {} _ hc hr hf
  have hlacks : f.bits.contains 1 = false := by
    rw [hbits]
    decide +kernel
  have hcount : f.bits.count = 1 := by
    rw [hbits]
    decide +kernel
  refine ⟨c, r, f, g, hc, hr, hf, hg, congrArg Bitmap.size hbits, of_decide_eq_true hsize,
    hcapacity, hcomplement, ?_, ?_, hfacets _ g hg, hs, hsets _ hs⟩
  · rw [hcomplement.contains 1 (by omega), hlacks]
    rfl
  · rw [hcomplement.count, hcapacity, hcount]

end Catalog

end FacetIndex
