import FacetIndex.Request
import FacetIndex.Proofs.Catalog.Effect
import FacetIndex.Proofs.Facet.Widening

/-!
# Orphans: what is left of a catalog that was dropped

Aspects and facets outlive their catalog. Every request to one of them goes on being
answered, but without a registry there are only three ways to do it:

* what needs an item, be it to read, to write or to list, is refused, before the argument
  is looked at;
* what asks for the domain gets the empty one, so that a complement covers the bits at
  hand and no more;
* the rest is answered from the bits.

`FacetIndex.Facet.answerAlone` lists the answers that are left to a facet, and
`FacetIndex.Facet.answer_none` says that they are what is given.

No request can write then, so the facets stay as they were when the catalog was dropped
(`FacetIndex.Catalog.Frozen`). A facet may still be created; it covers nothing, and nothing
is ever put in.
-/

namespace FacetIndex

/-! ### Complements without a domain -/

namespace Bitmap

theorem complementWithin_zero (s : Bitmap) : s.complementWithin 0 = s.complement := by
  rw [complementWithin, growTo_of_le (Nat.zero_le _)]

theorem complementCountWithin_zero (s : Bitmap) :
    s.complementCountWithin 0 = s.complementCount := by
  rw [complementCountWithin, Nat.max_zero, complementCount]

end Bitmap

/-! ### A facet by itself -/

namespace Facet

/-- **The answers of a facet whose catalog is gone.** -/
def answerAlone (f : Facet) : FacetQuestion → Reply
  | .name => .text f.name
  | .displayName => .text f.displayName
  | .aspectName => .text f.aspect
  | .getIndex _ => .refused .catalogDropped
  | .getItem _ => .refused .catalogDropped
  | .items => .refused .catalogDropped
  | .count => .number f.bits.count
  | .indexes => .indexes f.bits.toList
  | .copy => .set f.bits
  | .complement => .set f.bits.complement
  | .complementCount => .number f.bits.complementCount
  | .combine combination set => combination.answer f.bits set
  | .complementOf set => .set set.complement
  | .complementCountOf set => .number set.complementCount

theorem answer_none (f : Facet) (question : FacetQuestion) :
    f.answer none question = f.answerAlone question := by
  cases question with
  | complement =>
    rw [answer, f.complement_eq none]
    exact congrArg Reply.set f.bits.complementWithin_zero
  | complementCount => exact congrArg Reply.number f.bits.complementCountWithin_zero
  | complementOf set => exact congrArg Reply.set set.complementWithin_zero
  | complementCountOf set => exact congrArg Reply.number set.complementCountWithin_zero
  | _ => rfl

end Facet

/-- The facet that a change is to write. -/
def Change.written? : Change → Option FacetId
  | .setIndex F _ => some F
  | .setItem F _ => some F
  | .unsetIndex F _ => some F
  | .unsetItem F _ => some F
  | _ => none

/-- The change that is requested, if it is one. -/
def Request.change? : Request → Option Change
  | .change requested => some requested
  | .ask _ => none

namespace Catalog

variable {c c' c'' : Catalog}

/-! ### Requests -/

/-- **Of all requests only the changes change the catalog.** -/
theorem serveAll_eq_run (c : Catalog) (requests : List Request) :
    (c.serveAll requests).2 = (c.run (requests.filterMap Request.change?)).2 := by
  induction requests generalizing c with
  | nil => rfl
  | cons request requests ih =>
    cases request with
    | change change => exact ih (c.apply change).2
    | ask question => exact ih c

/-- A change that is to write a facet is refused. -/
theorem apply_of_written? (hdropped : c.owner = none) {change : Change} {F : FacetId} {f : Facet}
    (hwritten : change.written? = some F) (hF : c.facetOf? F = some f) :
    c.apply change = (.refused .catalogDropped, c) := by
  have hrefused : ∀ write : Facet → Option Registry → Except Error Facet,
      write f none = .error .catalogDropped →
      c.applyWrite F write = (.refused .catalogDropped, c) := by
    intro write hwrite
    exact applyWrite_of_error hF (hdropped ▸ hwrite)
  cases change with
  | setIndex | setItem | unsetIndex | unsetItem =>
    obtain rfl := Option.some.inj hwritten
    exact hrefused _ rfl
  | _ => cases hwritten

/-! ### The facets are frozen -/

/-- **The catalog is gone and its facets are as they were**: `c` is the catalog as it was
dropped, and `c'` what it has become since. -/
structure Frozen (c c' : Catalog) : Prop where
  owner : c'.owner = none
  /-- The facets of the catalog are the same, bit by bit. -/
  kept : ∀ F f, c.facetOf? F = some f → c'.facetOf? F = some f
  /-- All other facets cover no index. -/
  added : ∀ F f, c.facetOf? F = none → c'.facetOf? F = some f → f.bits = .empty

/-- Dropping the catalog freezes its facets, and leaves them as they are if it was dropped
before. -/
theorem frozen_apply_drop (c : Catalog) : c.Frozen (c.apply .drop).2 := by
  have hadded : ∀ F f, c.facetOf? F = none → c.facetOf? F = some f → f.bits = .empty := by
    intro F f hnone hsome
    rw [hnone] at hsome
    cases hsome
  rcases hr : c.owner with _ | r
  · rw [apply_drop_of_dropped hr]
    exact ⟨hr, fun F f hF => hF, hadded⟩
  · rw [apply_drop hr]
    exact ⟨rfl, fun F f hF => hF, hadded⟩

/-- **No effect thaws them**: all that writes needs a registry. -/
theorem Frozen.of_effect (h : c.Frozen c') (heffect : Effect c' c'') : c.Frozen c'' := by
  have howner := owner_of_effect heffect h.owner
  cases heffect with
  | same => exact h
  | occupy hr | vacate hr | mark hr | unmark hr =>
    rw [h.owner] at hr
    cases hr
  | addAspect name displayName =>
    refine ⟨howner, fun F f hF => ?_, fun F f hnone hF => ?_⟩
    · rw [facetOf?_pushAspect]
      exact h.kept F f hF
    · rw [facetOf?_pushAspect] at hF
      exact h.added F f hnone hF
  | @addFacet id a ha name displayName hnew =>
    refine ⟨howner, fun F f hF => ?_, fun F f hnone hF => ?_⟩
    · -- the new facet has an identifier of its own
      have hkept := h.kept F f hF
      rw [facetOf?_addFacet ha, if_neg, hkept]
      rintro rfl
      rw [facetOf?_next ha] at hkept
      cases hkept
    · rw [facetOf?_addFacet ha, domain_of_dropped h.owner] at hF
      split at hF
      · obtain rfl := Option.some.inj hF
        rfl
      · exact h.added F f hnone hF
  | drop => exact ⟨howner, h.kept, h.added⟩

theorem Frozen.apply (h : c.Frozen c') (change : Change) : c.Frozen (c'.apply change).2 :=
  h.of_effect (effect_of_dropped h.owner change)

theorem Frozen.serveAll (h : c.Frozen c') (requests : List Request) :
    c.Frozen (c'.serveAll requests).2 := by
  rw [serveAll_eq_run]
  exact run_invariant (fun _ change h => h.apply change) _ h

/-- A facet can still be created, and covers nothing. -/
theorem Frozen.exists_applyNewFacet (h : c.Frozen c') {id : AspectId} {a : Aspect}
    (ha : c'.aspectOf? id = some a) {name : String} (hnew : a.find? name = none)
    (displayName : String) (outcome : Except (AlreadyExists FacetId) FacetId → Outcome)
    (houtcome : ∀ F, outcome (.ok F) = .facet F) :
    ∃ F c'', c'.applyNewFacet id name displayName outcome = (.facet F, c'') ∧
      c'.facetOf? F = none ∧ c''.facetOf? F = some ⟨name, displayName, a.name, .empty⟩ := by
  have hcreated := newFacet_of_new ha hnew displayName
  rw [domain_of_dropped h.owner] at hcreated
  refine ⟨⟨id, a.facets.size⟩, c'.putAspect id (a.addFacet name displayName 0), ?_,
    facetOf?_next ha, ?_⟩
  · rw [applyNewFacet_of_some hcreated, houtcome]
  · rw [facetOf?_addFacet ha, if_pos rfl]
    rfl

/-! ### What an orphan does -/

/-- **What becomes of a request when the facets are frozen.** -/
structure Orphaned (c c' : Catalog) : Prop extends Frozen c c' where
  /-- A facet, old or new, is asked. -/
  ask : ∀ F f question, c'.facetOf? F = some f →
    c'.serve (.ask (.ofFacet F question)) = (f.answerAlone question, c')
  /-- Two facets are combined. -/
  combine : ∀ F G f g combination, c'.facetOf? F = some f → c'.facetOf? G = some g →
    c'.serve (.ask (.combine combination F G)) = (combination.answer f.bits g.bits, c')
  /-- A facet is to be written. -/
  write : ∀ F f change, c'.facetOf? F = some f → change.written? = some F →
    c'.serve (.change change) = (.outcome (.refused .catalogDropped), c')
  /-- A facet is created. -/
  create : ∀ id a name displayName, c'.aspectOf? id = some a → a.find? name = none →
    ∃ F c'', c'.serve (.change (.newFacet id name displayName)) = (.outcome (.facet F), c'') ∧
      c'.facetOf? F = none ∧ c''.facetOf? F = some ⟨name, displayName, a.name, .empty⟩
  /-- A facet is created because there is none of the name. -/
  ensure : ∀ id a name, c'.aspectOf? id = some a → a.find? name = none →
    ∃ F c'', c'.serve (.change (.ensureFacet id name)) = (.outcome (.facet F), c'') ∧
      c'.facetOf? F = none ∧ c''.facetOf? F = some ⟨name, name, a.name, .empty⟩

theorem Frozen.orphaned (h : c.Frozen c') : c.Orphaned c' where
  toFrozen := h
  ask F f question hF := by
    rw [serve, answer, hF, Option.elim_some, h.owner, Facet.answer_none]
  combine F G f g combination hF hG := by
    rw [serve, answer, hF, hG]
    rfl
  write F f change hF hwritten := by
    rw [serve, apply_of_written? h.owner hwritten hF]
  create id a name displayName ha hnew := by
    obtain ⟨F, c'', hcreated, hF⟩ :=
      h.exists_applyNewFacet ha hnew displayName .ofNewFacet fun _ => rfl
    exact ⟨F, c'', by rw [serve, Catalog.apply, hcreated], hF⟩
  ensure id a name ha hnew := by
    obtain ⟨F, c'', hcreated, hF⟩ :=
      h.exists_applyNewFacet ha hnew name (.facet <| orExisting ·) fun _ => rfl
    exact ⟨F, c'', by rw [serve, Catalog.apply, hcreated], hF⟩

/-- **Orphans are frozen.** Drop a catalog, and go on with any requests. Whatever is
requested after that of a facet that was there at the drop is answered from the very bits
it had then; what needs an item is refused for every argument, and complements are taken
over the bits alone. A facet that is created afterwards covers no index, and this is so
for good. -/
theorem orphaned_of_drop (c : Catalog) (further : List Request) :
    c.Orphaned (c.serveAll (.change .drop :: further)).2 :=
  ((frozen_apply_drop c).serveAll further).orphaned

/-- After the drop, no index is in range and none is out of range; the facet still has the
item at index 0, and the one that is created then has nothing. -/
theorem orphaned_of_drop_held :
    ∃ c c' f g, c = ((create {}).run [.newAspect "Kind" "Kind", .upsert "a",
        .newFacet ⟨0⟩ "new" "New", .setItem ⟨⟨0⟩, 0⟩ "a"]).2 ∧
      c' = (c.serveAll [.change .drop, .change (.unsetIndex ⟨⟨0⟩, 0⟩ 0),
        .change (.ensureFacet ⟨0⟩ "old")]).2 ∧
      c.facetOf? ⟨⟨0⟩, 0⟩ = some f ∧ f.bits = .ones 1 ∧ c'.facetOf? ⟨⟨0⟩, 0⟩ = some f ∧
      c'.serve (.ask (.ofFacet ⟨⟨0⟩, 0⟩ .indexes)) = (.indexes [0], c') ∧
      c'.serve (.ask (.ofFacet ⟨⟨0⟩, 0⟩ (.getIndex 7))) = (.refused .catalogDropped, c') ∧
      c'.serve (.change (.unsetIndex ⟨⟨0⟩, 0⟩ 0)) = (.outcome (.refused .catalogDropped), c') ∧
      c.facetOf? ⟨⟨0⟩, 1⟩ = none ∧ c'.facetOf? ⟨⟨0⟩, 1⟩ = some g ∧ g.bits = .empty ∧
      c'.serve (.ask (.combine (.set .diff) ⟨⟨0⟩, 0⟩ ⟨⟨0⟩, 1⟩)) = (.set (.ones 1), c') := by
  obtain ⟨c, hc⟩ : ∃ c, ((create {}).run [.newAspect "Kind" "Kind", .upsert "a",
      .newFacet ⟨0⟩ "new" "New", .setItem ⟨⟨0⟩, 0⟩ "a"]).2 = c := ⟨_, rfl⟩
  have hheld : c.facetOf? ⟨⟨0⟩, 0⟩ = some ⟨"new", "New", "Kind", .ones 1⟩ := by
    rw [← hc]
    decide +kernel
  have hnone : c.facetOf? ⟨⟨0⟩, 1⟩ = none := by
    rw [← hc]
    decide +kernel
  have hadded : (c.serveAll [.change .drop, .change (.unsetIndex ⟨⟨0⟩, 0⟩ 0),
      .change (.ensureFacet ⟨0⟩ "old")]).2.facetOf? ⟨⟨0⟩, 1⟩ =
        some ⟨"old", "old", "Kind", .zeros 0⟩ := by
    rw [← hc]
    decide +kernel
  have h := orphaned_of_drop c [.change (.unsetIndex ⟨⟨0⟩, 0⟩ 0), .change (.ensureFacet ⟨0⟩ "old")]
  have hkept := h.kept _ _ hheld
  refine ⟨c, _, _, _, hc.symm, rfl, hheld, rfl, hkept, ?_, h.ask _ _ (.getIndex 7) hkept,
    h.write _ _ (.unsetIndex ⟨⟨0⟩, 0⟩ 0) hkept rfl, hnone, hadded, h.added _ _ hnone hadded, ?_⟩
  · have hlisted : Facet.answerAlone ⟨"new", "New", "Kind", .ones 1⟩ .indexes = .indexes [0] := by
      decide +kernel
    rw [h.ask _ _ .indexes hkept, hlisted]
  · have hdiff : (Combination.set .diff).answer (.ones 1) (.zeros 0) = .set (.ones 1) := by
      decide +kernel
    rw [h.combine _ _ _ _ (.set .diff) hkept hadded, hdiff]

end Catalog

end FacetIndex
