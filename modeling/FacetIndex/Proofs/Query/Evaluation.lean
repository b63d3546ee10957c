import FacetIndex.Proofs.Catalog.Clean
import FacetIndex.Proofs.Registry.Selection

/-!
# Boolean queries

Facets are made to be asked for in combination. A query (`FacetIndex.Query`) is built from
the facets of a catalog, from all items and from no item, by the operations on bitmaps.
It is read in two ways: `FacetIndex.Query.eval` computes with bitmaps, index by index;
`FacetIndex.Query.holds` is the propositional formula, asked of one item at a time through
`FacetIndex.Facet.getItem?`, with no index and no size in it.

The two agree on all live items, to any depth (`FacetIndex.Catalog.eval_of_run`). The
induction is on the query, and what it carries is `FacetIndex.Registry.Selects`: that no
intermediate bitmap is longer than the registry matters as much as what it says of the
items, since a complement is right only for a bitmap that it can widen to the whole domain.
-/

namespace FacetIndex

/-- How two questions are joined. -/
inductive Connective where
  /-- Both. -/
  | and
  /-- Either. -/
  | or
  /-- Exactly one. -/
  | xor
  /-- The first and not the second. -/
  | andNot
  deriving DecidableEq, Repr

namespace Connective

/-- The operation on bitmaps. -/
def join : Connective → Bitmap → Bitmap → Bitmap
  | .and => .inter
  | .or => .union
  | .xor => .symmDiff
  | .andNot => .diff

/-- The truth table. -/
def truth : Connective → Bool → Bool → Bool
  | .and, a, b => a && b
  | .or, a, b => a || b
  | .xor, a, b => a ^^ b
  | .andNot, a, b => a && !b

end Connective

/-- A Boolean question about items. -/
inductive Query where
  /-- Does the item have the property? -/
  | facet (F : FacetId)
  /-- True of every item. -/
  | all
  /-- True of no item. -/
  | empty
  /-- Two questions joined. -/
  | join (k : Connective) (p q : Query)
  /-- Is it not so? The facet is the one asked to take the complement. -/
  | complement (F : FacetId) (q : Query)
  deriving DecidableEq, Repr

namespace Query

/-- The facets that the query names. -/
def facets : Query → List FacetId
  | .facet F => [F]
  | .all | .empty => []
  | .join _ p q => p.facets ++ q.facets
  | .complement F q => F :: q.facets

/-- The bitmap of the query. `none` if the catalog is dropped or a facet is not there. -/
def eval (c : Catalog) : Query → Option Bitmap
  | .facet F => (c.facetOf? F).map Facet.bits
  | .all => c.owner.map Registry.liveSet
  | .empty => c.owner.map Registry.emptySet
  | .join k p q => return k.join (← p.eval c) (← q.eval c)
  | .complement F q => do
    let _ ← c.facetOf? F
    return (← q.eval c).complementWithin c.domain

/-- The query, read as a propositional formula, is true of the item. -/
def holds (c : Catalog) (item : String) : Query → Bool
  | .facet F => (c.facetOf? F).any fun f => f.getItem? c.owner item = .ok true
  | .all => true
  | .empty => false
  | .join k p q => k.truth (p.holds c item) (q.holds c item)
  | .complement _ q => !q.holds c item

end Query

/-- Joining bitmaps joins the properties. -/
theorem Registry.Selects.join {r : Registry} {s t : Bitmap} {p q : String → Bool}
    (k : Connective) (hs : r.Selects s p) (ht : r.Selects t q) :
    r.Selects (k.join s t) fun item => k.truth (p item) (q item) := by
  cases k with
  | and => exact hs.combine Word.pointwise_and rfl ht
  | or => exact hs.combine Word.pointwise_or rfl ht
  | xor => exact hs.combine Word.pointwise_xor rfl ht
  | andNot => exact hs.combine (f := fun a b => a && !b) Word.pointwise_diff rfl ht

namespace Catalog

variable {c : Catalog} {r : Registry}

/-! ### One node of a query -/

/-- What a facet stores is what it answers, item by item. -/
theorem Clean.selects_facet (h : c.Clean r) (hr : c.owner = some r) {F : FacetId} {f : Facet}
    (hF : c.facetOf? F = some f) :
    r.Selects f.bits fun item => (Query.facet F).holds c item := by
  have hselects := h.consistent.selects_bits (h.facets F f hF)
  rw [← hr] at hselects
  simp only [Query.holds, hF, Option.any_some]
  exact hselects

/-- **Every query over the facets of a clean catalog has a bitmap**, and the bitmap
selects the items that the formula is true of. -/
theorem Clean.selects_eval (h : c.Clean r) (hr : c.owner = some r) (q : Query)
    (hfacets : ∀ F ∈ q.facets, (c.facetOf? F).isSome) :
    ∃ s, q.eval c = some s ∧ r.Selects s fun item => q.holds c item := by
  induction q with
  | facet F =>
    obtain ⟨f, hF⟩ := Option.isSome_iff_exists.1 (hfacets F List.mem_cons_self)
    exact ⟨f.bits, by rw [Query.eval, hF, Option.map_some], h.selects_facet hr hF⟩
  | all => exact ⟨r.liveSet, by rw [Query.eval, hr, Option.map_some], r.selects_liveSet⟩
  | empty => exact ⟨r.emptySet, by rw [Query.eval, hr, Option.map_some], r.selects_emptySet⟩
  | join k p q ihp ihq =>
    obtain ⟨hp, hq⟩ := List.forall_mem_append.1 hfacets
    obtain ⟨s, hs, hsp⟩ := ihp hp
    obtain ⟨t, ht, htq⟩ := ihq hq
    refine ⟨k.join s t, ?_, hsp.join k htq⟩
    simp only [Query.eval, hs, ht]
    rfl
  | complement F q ih =>
    obtain ⟨hF, hq⟩ := List.forall_mem_cons.1 hfacets
    obtain ⟨f, hF⟩ := Option.isSome_iff_exists.1 hF
    obtain ⟨s, hs, hsq⟩ := ih hq
    -- The domain is the capacity, whichever facet is asked.
    have hdomain : c.domain = r.capacity := by rw [domain, hr]; rfl
    refine ⟨s.complementWithin r.capacity, ?_, hsq.complementWithin⟩
    simp only [Query.eval, hF, hs, hdomain]
    rfl

/-! ### Queries after a history -/

/-- **Evaluating a query is sound and complete.** After any history that leaves the
catalog there, a query over facets that are there has a bitmap. At the index of a live
item it says whether the formula is true of the item; it covers no index that was never
made; intersected with the live items it lists, in ascending order, the indexes of the
items that the formula is true of, and the count that builds nothing is the number of
these items. -/
theorem eval_of_run (config : Config) (history : List Change)
    (hrun : ((create config).run history).2 = c) (hlive : c.owner = some r) (q : Query)
    (hfacets : ∀ F ∈ q.facets, (c.facetOf? F).isSome) :
    ∃ s, q.eval c = some s ∧
      (∀ item i, r.indexOf item = .ok i → s.contains i = q.holds c item) ∧
      s.size ≤ r.capacity ∧
      (s.inter r.liveSet).toList.Pairwise (· < ·) ∧
      (∀ i, i ∈ (s.inter r.liveSet).toList ↔
        ∃ item, r.indexOf item = .ok i ∧ q.holds c item = true) ∧
      s.interCount r.liveSet =
        {item | r.contains item = true ∧ q.holds c item = true}.ncard := by
  subst hrun
  have hclean := clean_of_run config history hlive
  obtain ⟨s, hs, hselects⟩ := hclean.selects_eval hlive q hfacets
  refine ⟨s, hs, fun item i hi => hselects.contains_eq hclean.consistent hi, hselects.size_le,
    Bitmap.pairwise_lt_toList _, fun i => ?_, hselects.interCount_liveSet hclean.consistent⟩
  rw [hselects.mem_toList_inter_liveSet]
  refine exists_congr fun item => and_congr_left' ?_
  rw [Registry.indexOf_eq_ok_iff]
  exact (hclean.consistent.inverse item i).symm

/-- The complement of a complement that has a one at a free index, over facets that both
end before the capacity. -/
theorem eval_of_run_nested :
    ∃ c r s, ((create {}).run [.newAspect "Kind" "Kind", .newFacet ⟨0⟩ "new" "New",
        .newFacet ⟨0⟩ "old" "Old", .upsert "a", .setItem ⟨⟨0⟩, 0⟩ "a", .upsert "b",
        .upsert "c", .setItem ⟨⟨0⟩, 1⟩ "c", .upsert "d", .remove "b"]).2 = c ∧
      c.owner = some r ∧
      (Query.complement ⟨⟨0⟩, 0⟩ (.join .xor (.facet ⟨⟨0⟩, 0⟩)
        (.complement ⟨⟨0⟩, 1⟩ (.facet ⟨⟨0⟩, 1⟩)))).eval c = some s ∧
      s.contains 2 = true ∧ s.contains 3 = false ∧ s.size ≤ r.capacity := by
  have hstate : ((create {}).run [.newAspect "Kind" "Kind", .newFacet ⟨0⟩ "new" "New",
      .newFacet ⟨0⟩ "old" "Old", .upsert "a", .setItem ⟨⟨0⟩, 0⟩ "a", .upsert "b",
      .upsert "c", .setItem ⟨⟨0⟩, 1⟩ "c", .upsert "d", .remove "b"]).2.owner.any
        (fun r => r.indexOf "c" = .ok 2 ∧ r.indexOf "d" = .ok 3) = true := by
    decide +kernel
  obtain ⟨r, hr, hfacts⟩ := (Option.any_eq_true _ _).1 hstate
  obtain ⟨hc, hd⟩ := of_decide_eq_true hfacts
  obtain ⟨s, hs, hcontains, hsize, -⟩ := eval_of_run {} _ rfl hr
    (.complement ⟨⟨0⟩, 0⟩ (.join .xor (.facet ⟨⟨0⟩, 0⟩)
      (.complement ⟨⟨0⟩, 1⟩ (.facet ⟨⟨0⟩, 1⟩)))) (by decide +kernel)
  exact ⟨_, r, s, rfl, hr, hs, (hcontains "c" 2 hc).trans (by decide +kernel),
    (hcontains "d" 3 hd).trans (by decide +kernel), hsize⟩

end Catalog

end FacetIndex
