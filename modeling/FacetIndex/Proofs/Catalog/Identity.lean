import FacetIndex.Proofs.Catalog.Names

/-!
# Names and identity

A name, once something was created under it, stands for the same thing for good. What this
gives a user is said of the catalog after any history, with
`FacetIndex.Catalog.named` for what the history handed out by name:

| | aspects | facets of an aspect |
|---|---|---|
| all of it | `FacetIndex.Catalog.AspectsByName` | `FacetIndex.Catalog.FacetsByName` |
| the first request creates | `created` | `created` |
| later ones find it and do nothing | `taken` | `taken` |
| so does looking it up, now and later | `found`, `kept` | `found`, `kept` |
| what was never created is missing | `missing` | `missing`, `contains` |
| other names stand for other things | `injective` | `injective`, `separate` |
| all are listed by name | `listed` | `listed` |

Everything comes from two facts about the catalog (`FacetIndex.Catalog.WellNamed` and
`FacetIndex.Catalog.bears_run`): names tell things apart, and what bears a name is what was
handed out for it.
-/

namespace FacetIndex

/-! ### Requests -/

/-- The aspect that a change asks to be created. -/
def Change.newAspectLabel? : Change → Option Label
  | .newAspect name displayName => some ⟨name, displayName⟩
  | .ensureAspect name => some ⟨name, name⟩
  | _ => none

/-- The facet that a change asks to be created, and in which aspect. -/
def Change.newFacetLabel? : Change → Option (AspectId × Label)
  | .newFacet id name displayName => some (id, ⟨name, displayName⟩)
  | .ensureFacet id name => some (id, ⟨name, name⟩)
  | _ => none

/-- A request for one bit of a facet. -/
abbrev BitRequest := Facet → Option Registry → Except Error Bool

/-- The facet that a change writes, the request for the bit that it writes there, and what the
request is to be answered with. -/
def Change.readBack? : Change → Option (FacetId × BitRequest × Bool)
  | .setIndex F i => some (F, (·.getIndex? · i), true)
  | .setItem F item => some (F, (·.getItem? · item), true)
  | .unsetIndex F i => some (F, (·.getIndex? · i), false)
  | .unsetItem F item => some (F, (·.getItem? · item), false)
  | _ => none

namespace Catalog

variable {c : Catalog} {r : Registry} {named : List Named} {change : Change}

theorem apply_of_newAspectLabel? {label : Label} (h : change.newAspectLabel? = some label) :
    ∃ answer, (∀ id, answer (.ok id) = .aspect id) ∧
      c.apply change = c.applyNewAspect label.name label.displayName answer := by
  cases change with
  | newAspect name displayName =>
    obtain rfl := Option.some.inj h
    exact ⟨_, fun _ => rfl, rfl⟩
  | ensureAspect name =>
    obtain rfl := Option.some.inj h
    exact ⟨_, fun _ => rfl, rfl⟩
  | _ => cases h

theorem apply_of_newFacetLabel? {id : AspectId} {label : Label}
    (h : change.newFacetLabel? = some (id, label)) :
    ∃ answer, (∀ F, answer (.ok F) = .facet F) ∧
      c.apply change = c.applyNewFacet id label.name label.displayName answer := by
  cases change with
  | newFacet =>
    obtain ⟨rfl, rfl⟩ := Prod.mk.inj (Option.some.inj h)
    exact ⟨_, fun _ => rfl, rfl⟩
  | ensureFacet =>
    obtain ⟨rfl, rfl⟩ := Prod.mk.inj (Option.some.inj h)
    exact ⟨_, fun _ => rfl, rfl⟩
  | _ => cases h

/-! ### Aspects -/

/-- **The aspects of a live catalog go by their names**, `named` being what was handed out by
name so far. -/
structure AspectsByName (c : Catalog) (named : List Named) : Prop where
  /-- A name finds what it was handed out for, the first time and whenever after. -/
  found : ∀ name id, .aspect name id ∈ named ↔ c.aspect? name = .ok id
  missing : ∀ name,
    (∀ id, .aspect name id ∉ named) ↔ c.aspect? name = .error (.aspectNotFound name)
  injective : ∀ name other id, .aspect name id ∈ named → .aspect other id ∈ named → name = other
  /-- The first request for a name makes an aspect without facets under an identifier that
  stood for nothing. -/
  created : ∀ change label, change.newAspectLabel? = some label →
    (∀ id, .aspect label.name id ∉ named) →
    ∃ id c', c.apply change = (.aspect id, c') ∧ c.aspectOf? id = none ∧
      c'.aspectOf? id = some ⟨label.name, label.displayName, #[]⟩ ∧
      (∀ other, other ≠ id → c'.aspectOf? other = c.aspectOf? other) ∧ c'.owner = c.owner
  /-- Every later request for it hands out the same and changes nothing. -/
  taken : ∀ name id, .aspect name id ∈ named →
    (∀ displayName,
      c.apply (.newAspect name displayName) = (.aspectTaken ⟨name, id⟩, c)) ∧
    c.apply (.ensureAspect name) = (.aspect id, c)
  /-- Whatever happens next, the name finds the same, and that is called the same. -/
  kept : ∀ name id further, .aspect name id ∈ named →
    (c.run further).2.aspect? name = .ok id ∧
      (c.run further).2.aspectLabel? id = c.aspectLabel? id
  ascending : (c.sortedAspects.map (·.1.name)).Pairwise (· < ·)
  listed : ∀ name id,
    .aspect name id ∈ named ↔ ∃ a, (a, id) ∈ c.sortedAspects ∧ a.name = name
  /-- What is listed is the aspect itself. -/
  entries : ∀ a id, (a, id) ∈ c.sortedAspects ↔ c.aspectOf? id = some a

theorem mem_sortedAspects_iff {a : Aspect} {id : AspectId} :
    (a, id) ∈ c.sortedAspects ↔ c.aspectOf? id = some a := by
  rw [sortedAspects, List.mem_map]
  constructor
  · rintro ⟨⟨b, n⟩, hmem, heq⟩
    obtain ⟨rfl, rfl⟩ := Prod.mk.inj heq
    exact mem_sortedByName_iff.1 hmem
  · exact fun h => ⟨(a, id.number), mem_sortedByName_iff.2 h, rfl⟩

theorem WellNamed.aspect?_eq_ok_iff (h : c.WellNamed) {name : String} {id : AspectId} :
    c.aspect? name = .ok id ↔ c.Bears (.aspect name id) := by
  rw [← h.findAspect?_eq_some_iff, aspect?]
  rcases c.findAspect? name with _ | other
  · simp only [reduceCtorEq]
  · rw [Except.ok.injEq, Option.some.injEq]

theorem aspect?_eq_error_iff {name : String} :
    c.aspect? name = .error (.aspectNotFound name) ↔ ∀ id, ¬ c.Bears (.aspect name id) := by
  rw [← findAspect?_eq_none_iff, aspect?]
  rcases c.findAspect? name with _ | id
  · simp only
  · simp only [reduceCtorEq]

theorem WellNamed.aspectsByName (h : c.WellNamed) (hr : c.owner = some r)
    (hbears : ∀ n, n ∈ named ↔ c.Bears n) : c.AspectsByName named where
  found name id := (hbears _).trans h.aspect?_eq_ok_iff.symm
  missing name := by
    simp only [hbears]
    exact aspect?_eq_error_iff.symm
  injective name other id hname hother := by
    obtain ⟨a, ha, rfl⟩ := bears_aspect_iff_exists.1 ((hbears _).1 hname)
    obtain ⟨b, hb, rfl⟩ := bears_aspect_iff_exists.1 ((hbears _).1 hother)
    rw [Option.some.inj (ha.symm.trans hb)]
  created change label hchange hnew := by
    obtain ⟨answer, hanswer, happly⟩ := apply_of_newAspectLabel? hchange
    have hnone : c.findAspect? label.name = none :=
      findAspect?_eq_none_iff.2 fun id => (hbears _).not.1 (hnew id)
    rw [happly, applyNewAspect_eq hr, newAspect_of_new hnone, hanswer]
    refine ⟨_, _, rfl, c.aspectOf?_next, ?_, fun other hother => ?_, rfl⟩
    · rw [aspectOf?_pushAspect, if_pos rfl]
    · rw [aspectOf?_pushAspect, if_neg hother]
  taken name id hid := by
    have hsome := h.findAspect?_eq_some_iff.2 ((hbears _).1 hid)
    have happly : ∀ displayName answer, c.applyNewAspect name displayName answer =
        (answer (.error ⟨name, id⟩), c) := by
      intro displayName answer
      rw [applyNewAspect_eq hr, newAspect_of_taken hsome]
    exact ⟨fun displayName => happly displayName _, happly name _⟩
  kept name id further hid := by
    have hn := (hbears _).1 hid
    have hlater := (c.bears_run further _).2 (Or.inl hn)
    obtain ⟨displayName, hlabel⟩ := hn
    refine ⟨(h.run further).aspect?_eq_ok_iff.2 hlater, ?_⟩
    rw [aspectLabel?_run further hlabel, hlabel]
  ascending := by
    rw [sortedAspects, List.map_map]
    exact h.distinctNames_aspects.pairwise_sortedByName
  listed name id := by
    simp only [hbears, mem_sortedAspects_iff]
    exact bears_aspect_iff_exists
  entries a id := mem_sortedAspects_iff

/-! ### Facets -/

/-- What is known as the facet of a name: whatever was handed out for the name, and what the
name finds now. -/
def HandleOf (c : Catalog) (named : List Named) (id : AspectId) (name : String) (F : FacetId) :
    Prop :=
  .facet id name F ∈ named ∨ c.facet? id name = some (.ok F)

/-- The facet of an identifier is there and has the answer to a request. -/
def Answers (c : Catalog) (F : FacetId) (request : BitRequest) (answer : Bool) : Prop :=
  ∃ f, c.facetOf? F = some f ∧ request f c.owner = .ok answer

/-- **The facets of an aspect go by their names**, `named` being what was handed out by name
so far. The aspect may be an orphan. -/
structure FacetsByName (c : Catalog) (id : AspectId) (a : Aspect) (named : List Named) :
    Prop where
  /-- A name finds what it was handed out for, the first time and whenever after. -/
  found : ∀ name F, .facet id name F ∈ named ↔ c.facet? id name = some (.ok F)
  missing : ∀ name, (∀ F, .facet id name F ∉ named) ↔
    c.facet? id name = some (.error (.facetNotFound a.name name))
  contains : ∀ name, a.contains name = true ↔ ∃ F, .facet id name F ∈ named
  /-- No other name stands for the same facet, nor does this name in another aspect. -/
  injective : ∀ name other otherId F, .facet id name F ∈ named →
    .facet otherId other F ∈ named → otherId = id ∧ other = name
  /-- The first request for a name makes a facet without ones under an identifier that stood
  for nothing. -/
  created : ∀ change label, change.newFacetLabel? = some (id, label) →
    (∀ F, .facet id label.name F ∉ named) →
    ∃ F c', c.apply change = (.facet F, c') ∧ F.aspect = id ∧ c.facetOf? F = none ∧
      c'.facetOf? F = some ⟨label.name, label.displayName, a.name, .zeros c.domain⟩ ∧
      (∀ G, G ≠ F → c'.facetOf? G = c.facetOf? G) ∧ c'.owner = c.owner
  /-- Every later request for it hands out the same and changes nothing. -/
  taken : ∀ name F, .facet id name F ∈ named →
    (∀ displayName,
      c.apply (.newFacet id name displayName) = (.facetTaken ⟨name, F⟩, c)) ∧
    c.apply (.ensureFacet id name) = (.facet F, c)
  /-- Whatever happens next, the name finds the same, and that is called the same. -/
  kept : ∀ name F further, .facet id name F ∈ named →
    (c.run further).2.facet? id name = some (.ok F) ∧
      (c.run further).2.facetLabel? F = c.facetLabel? F
  listed : ∃ listing, c.sortedFacets id = some listing ∧
    (listing.map (·.1.name)).Pairwise (· < ·) ∧
    (∀ name F, .facet id name F ∈ named ↔ ∃ f, (f, F) ∈ listing ∧ f.name = name) ∧
    ∀ f F, (f, F) ∈ listing ↔ F.aspect = id ∧ c.facetOf? F = some f
  /-- What is written through one handle is read through every other. -/
  shared : ∀ change F request answer name G c', change.readBack? = some (F, request, answer) →
    .facet id name F ∈ named → c.apply change = (.written, c') →
    c'.HandleOf named id name G → c'.Answers G request answer
  /-- Writing a facet does nothing to any other. -/
  separate : ∀ change F request answer G, change.readBack? = some (F, request, answer) → G ≠ F →
    (c.apply change).2.facetOf? G = c.facetOf? G

section Facets

variable {id : AspectId} {a : Aspect} (ha : c.aspectOf? id = some a)

include ha

theorem facet?_of_some {name : String} {k : Nat} (hk : a.find? name = some k) :
    c.facet? id name = some (.ok ⟨id, k⟩) := by
  rw [facet?, ha, Option.map_some, Aspect.facet?, hk]
  rfl

theorem facet?_of_none {name : String} (hnone : a.find? name = none) :
    c.facet? id name = some (.error (.facetNotFound a.name name)) := by
  rw [facet?, ha, Option.map_some, Aspect.facet?, hnone]
  rfl

theorem facet?_eq_error_iff {name : String} :
    c.facet? id name = some (.error (.facetNotFound a.name name)) ↔
      ∀ F, ¬ c.Bears (.facet id name F) := by
  rw [← find?_eq_none_iff ha]
  rcases hname : a.find? name with _ | k
  · simp only [facet?_of_none ha hname]
  · simp only [facet?_of_some ha hname, Option.some.injEq, reduceCtorEq]

theorem contains_iff {name : String} :
    a.contains name = true ↔ ∃ F, c.Bears (.facet id name F) := by
  rw [Aspect.contains, Option.isSome_iff_ne_none, ne_eq, find?_eq_none_iff ha, not_forall_not]

theorem WellNamed.facet?_eq_ok_iff (h : c.WellNamed) {name : String} {F : FacetId} :
    c.facet? id name = some (.ok F) ↔ c.Bears (.facet id name F) := by
  constructor
  · intro hF
    rcases hname : a.find? name with _ | k
    · rw [facet?_of_none ha hname] at hF
      cases hF
    · rw [facet?_of_some ha hname] at hF
      obtain rfl : ⟨id, k⟩ = F := Except.ok.inj (Option.some.inj hF)
      exact bears_of_find? ha hname
  · intro hF
    obtain rfl := hF.1
    exact facet?_of_some ha ((h.find?_eq_some_iff ha).2 hF)

theorem sortedFacets_spec (h : c.WellNamed) :
    ∃ listing, c.sortedFacets id = some listing ∧ (listing.map (·.1.name)).Pairwise (· < ·) ∧
      ∀ f F, (f, F) ∈ listing ↔ F.aspect = id ∧ c.facetOf? F = some f := by
  refine ⟨_, by rw [sortedFacets, ha, Option.map_some], ?_, fun f F => ?_⟩
  · rw [List.map_map]
    exact (h.distinctNames_facets ha).pairwise_sortedByName
  · rw [List.mem_map]
    constructor
    · rintro ⟨⟨g, k⟩, hmem, heq⟩
      obtain ⟨rfl, rfl⟩ := Prod.mk.inj heq
      refine ⟨rfl, ?_⟩
      rw [facetOf?, ha, Option.bind_some]
      exact mem_sortedByName_iff.1 hmem
    · rintro ⟨rfl, hF⟩
      rw [facetOf?, ha, Option.bind_some] at hF
      exact ⟨(f, F.number), mem_sortedByName_iff.2 hF, rfl⟩

end Facets

/-! ### Writing and reading -/

section Write

variable {F G : FacetId} {write : Facet → Option Registry → Except Error Facet}
  {request : BitRequest} {answer : Bool}

/-- A request to write that was granted is read back, if what it makes of a facet has the
answer. -/
theorem answers_of_applyWrite {c' : Catalog}
    (hwritten : c.applyWrite F write = (.written, c'))
    (h : ∀ f f', c.facetOf? F = some f → write f c.owner = .ok f' →
      request f' c.owner = .ok answer) : c'.Answers F request answer := by
  obtain ⟨f, f', hF, hf', rfl⟩ := applyWrite_eq_written hwritten
  refine ⟨f', ?_, ?_⟩
  · rw [facetOf?_putFacet hF, if_pos rfl]
  · rw [owner_putFacet]
    exact h f f' hF hf'

/-- **What was written is read back.** -/
theorem answers_of_apply (hclean : ∀ r, c.owner = some r → c.Clean r)
    (hchange : change.readBack? = some (F, request, answer)) {c' : Catalog}
    (hwritten : c.apply change = (.written, c')) : c'.Answers F request answer := by
  have hsized : ∀ {r f}, c.owner = some r → c.facetOf? F = some f → f.bits.WellSized :=
    fun hr hF => ((hclean _ hr).facets _ _ hF).canonical.wellSized
  cases change with
  | setIndex =>
    obtain ⟨rfl, rfl, rfl⟩ := hchange
    refine answers_of_applyWrite hwritten fun f f' hF hf' => ?_
    obtain ⟨r, item, hr, hi, rfl⟩ := Facet.setIndex?_eq_ok hf'
    rw [hr, Facet.getIndex?_of_lt _ (Registry.lt_capacity hi),
      Facet.contains_mark (hsized hr hF)]
  | setItem =>
    obtain ⟨rfl, rfl, rfl⟩ := hchange
    refine answers_of_applyWrite hwritten fun f f' hF hf' => ?_
    obtain ⟨r, i, hr, hi, rfl⟩ := Facet.setItem?_eq_ok hf'
    rw [hr, Facet.getItem?_of_live _ hi, Facet.contains_mark (hsized hr hF)]
  | unsetIndex =>
    obtain ⟨rfl, rfl, rfl⟩ := hchange
    refine answers_of_applyWrite hwritten fun f f' hF hf' => ?_
    obtain ⟨r, hr, hi, rfl⟩ := Facet.unsetIndex?_eq_ok hf'
    rw [hr, Facet.getIndex?_of_lt _ hi, Facet.contains_unmark (hsized hr hF)]
  | unsetItem =>
    obtain ⟨rfl, rfl, rfl⟩ := hchange
    refine answers_of_applyWrite hwritten fun f f' hF hf' => ?_
    obtain ⟨r, i, hr, hi, rfl⟩ := Facet.unsetItem?_eq_ok hf'
    rw [hr, Facet.getItem?_of_live _ hi, Facet.contains_unmark (hsized hr hF)]
  | _ => cases hchange

theorem facetOf?_applyWrite_of_ne (c : Catalog) (hne : G ≠ F)
    (write : Facet → Option Registry → Except Error Facet) :
    (c.applyWrite F write).2.facetOf? G = c.facetOf? G := by
  rcases c.applyWrite_cases F write with hsame | ⟨f, f', hF, -, heq⟩
  · rw [hsame]
  · rw [heq, facetOf?_putFacet hF, if_neg hne]

/-- **What was not written stays.** -/
theorem facetOf?_apply_of_ne (c : Catalog)
    (hchange : change.readBack? = some (F, request, answer)) (hne : G ≠ F) :
    (c.apply change).2.facetOf? G = c.facetOf? G := by
  cases change with
  | setIndex | setItem | unsetIndex | unsetItem =>
    obtain ⟨rfl, -, -⟩ := hchange
    exact c.facetOf?_applyWrite_of_ne hne _
  | _ => cases hchange

end Write

/-- What a name finds bears it. -/
theorem WellNamed.bears_of_facet? (h : c.WellNamed) {id : AspectId} {name : String} {F : FacetId}
    (hF : c.facet? id name = some (.ok F)) : c.Bears (.facet id name F) := by
  obtain ⟨a, ha, -⟩ := Option.map_eq_some_iff.1 hF
  exact (h.facet?_eq_ok_iff ha).1 hF

/-- One name in one aspect has one bearer. -/
theorem WellNamed.eq_of_bears (h : c.WellNamed) {id : AspectId} {name : String} {F G : FacetId}
    (hF : c.Bears (.facet id name F)) (hG : c.Bears (.facet id name G)) : F = G := by
  obtain ⟨hFid, d, hd⟩ := hF
  obtain ⟨hGid, e, he⟩ := hG
  exact h.facets F G _ _ (hFid.trans hGid.symm) hd he rfl

/-- All handles of a name are one, before a change and after it. -/
theorem WellNamed.eq_of_handleOf (h : c.WellNamed) (hbears : ∀ n, n ∈ named ↔ c.Bears n)
    {id : AspectId} {name : String} {F G : FacetId} (hF : .facet id name F ∈ named)
    {outcome : Outcome} {c' : Catalog} (hchange : c.apply change = (outcome, c'))
    (hG : c'.HandleOf named id name G) : F = G := by
  have hnaming : Naming c change outcome c' := by
    have happly := c.naming_apply change
    rwa [hchange] at happly
  have hkept : ∀ {H}, .facet id name H ∈ named → c'.Bears (.facet id name H) := fun hH =>
    hnaming.bears_iff.2 (Or.inl ((hbears _).1 hH))
  have hnow := hnaming.wellNamed h
  rcases hG with hG | hG
  · exact hnow.eq_of_bears (hkept hF) (hkept hG)
  · exact hnow.eq_of_bears (hkept hF) (hnow.bears_of_facet? hG)

theorem WellNamed.facetsByName (h : c.WellNamed) (hbears : ∀ n, n ∈ named ↔ c.Bears n)
    (hclean : ∀ r, c.owner = some r → c.Clean r) {id : AspectId} {a : Aspect}
    (ha : c.aspectOf? id = some a) : c.FacetsByName id a named where
  found name F := (hbears _).trans (h.facet?_eq_ok_iff ha).symm
  missing name := by
    simp only [hbears]
    exact (facet?_eq_error_iff ha).symm
  contains name := by
    simp only [hbears]
    exact contains_iff ha
  injective name other otherId F hname hother := by
    obtain ⟨rfl, f, hf, rfl⟩ := bears_facet_iff_exists.1 ((hbears _).1 hname)
    obtain ⟨rfl, g, hg, rfl⟩ := bears_facet_iff_exists.1 ((hbears _).1 hother)
    exact ⟨rfl, by rw [Option.some.inj (hf.symm.trans hg)]⟩
  created change label hchange hnew := by
    obtain ⟨answer, hanswer, happly⟩ := apply_of_newFacetLabel? hchange
    have hnone : a.find? label.name = none :=
      (find?_eq_none_iff ha).2 fun F => (hbears _).not.1 (hnew F)
    rw [happly, applyNewFacet_of_some (newFacet_of_new ha hnone label.displayName), hanswer]
    refine ⟨_, _, rfl, rfl, facetOf?_next ha, ?_, fun G hG => ?_, rfl⟩
    · rw [facetOf?_addFacet ha, if_pos rfl]
    · rw [facetOf?_addFacet ha, if_neg hG]
  taken name F hF := by
    have hn := (hbears _).1 hF
    obtain rfl := hn.1
    have hsome := (h.find?_eq_some_iff ha).2 hn
    have happly : ∀ displayName answer, c.applyNewFacet F.aspect name displayName answer =
        (answer (.error ⟨name, F⟩), c) := fun displayName answer =>
      applyNewFacet_of_some (newFacet_of_taken ha hsome displayName) answer
    exact ⟨fun displayName => happly displayName _, happly name _⟩
  kept name F further hF := by
    have hn := (hbears _).1 hF
    have hlater := (c.bears_run further _).2 (Or.inl hn)
    obtain ⟨a', ha', -⟩ := Option.map_eq_some_iff.1
      (aspectLabel?_run further (by rw [Catalog.aspectLabel?, ha, Option.map_some]))
    obtain ⟨-, displayName, hlabel⟩ := hn
    refine ⟨((h.run further).facet?_eq_ok_iff ha').2 hlater, ?_⟩
    rw [facetLabel?_run further hlabel, hlabel]
  listed := by
    obtain ⟨listing, hlisting, hascending, hentries⟩ := sortedFacets_spec ha h
    refine ⟨listing, hlisting, hascending, fun name F => ?_, hentries⟩
    simp only [hbears, hentries, bears_facet_iff_exists, and_assoc, exists_and_left]
  shared change F request answer name G c' hchange hF hwritten hG := by
    obtain rfl := h.eq_of_handleOf hbears hF hwritten hG
    exact answers_of_apply hclean hchange hwritten
  separate change F request answer G hchange hne := c.facetOf?_apply_of_ne hchange hne

/-! ### After every history -/

/-- **Names and identity after every history.** As long as the catalog is there its aspects go by
their names, and the facets of an aspect do so even when it is gone: the first request for
a name creates, every later one finds what was created and changes nothing, and what was
never created is missing; no two names stand for one thing; all are listed in the order of
their names; and what is written through one handle of a facet is read through every other. -/
theorem names_of_run (config : Config) (history : List Change) {c : Catalog}
    (hc : ((create config).run history).2 = c) :
    (∀ r, c.owner = some r → c.AspectsByName ((create config).named history)) ∧
      ∀ id a, c.aspectOf? id = some a → c.FacetsByName id a ((create config).named history) := by
  obtain rfl := hc
  have h := (wellNamed_create config).run history
  have hbears : ∀ n, n ∈ (create config).named history ↔
      ((create config).run history).2.Bears n := by
    intro n
    rw [bears_run, or_iff_right (not_bears_create config n)]
  exact ⟨fun r hr => h.aspectsByName hr hbears,
    fun id a ha => h.facetsByName hbears (fun r hr => clean_of_run config history hr) ha⟩

/-- Two aspects have a facet of one name each, and all of these were asked for more than once.
A bit that is written to one of the facets is read there. -/
theorem names_of_run_twice :
    ∃ c history r a c', ((create {}).run history).2 = c ∧
      history = [.newAspect "Kind" "Kinds", .ensureAspect "Kind", .newAspect "Kind" "Other",
        .ensureAspect "Area", .newFacet ⟨0⟩ "new" "New", .ensureFacet ⟨1⟩ "new",
        .newFacet ⟨0⟩ "new" "Newer", .upsert "a"] ∧
      c.owner = some r ∧ c.aspectOf? ⟨0⟩ = some a ∧
      (create {}).named history = [.aspect "Kind" ⟨0⟩, .aspect "Kind" ⟨0⟩, .aspect "Kind" ⟨0⟩,
        .aspect "Area" ⟨1⟩, .facet ⟨0⟩ "new" ⟨⟨0⟩, 0⟩, .facet ⟨1⟩ "new" ⟨⟨1⟩, 0⟩,
        .facet ⟨0⟩ "new" ⟨⟨0⟩, 0⟩] ∧
      c.aspect? "Kind" = .ok ⟨0⟩ ∧ c.aspect? "Size" = .error (.aspectNotFound "Size") ∧
      c.apply (.newAspect "Kind" "Other") = (.aspectTaken ⟨"Kind", ⟨0⟩⟩, c) ∧
      c.facet? ⟨0⟩ "new" = some (.ok ⟨⟨0⟩, 0⟩) ∧
      c.apply (.newFacet ⟨0⟩ "new" "Newer") = (.facetTaken ⟨"new", ⟨⟨0⟩, 0⟩⟩, c) ∧
      c.apply (.setItem ⟨⟨0⟩, 0⟩ "a") = (.written, c') ∧
      c'.Answers ⟨⟨0⟩, 0⟩ (·.getItem? · "a") true ∧
      c'.facetOf? ⟨⟨1⟩, 0⟩ = c.facetOf? ⟨⟨1⟩, 0⟩ := by
  obtain ⟨history, hhistory⟩ : ∃ history, history = [Change.newAspect "Kind" "Kinds",
      .ensureAspect "Kind", .newAspect "Kind" "Other", .ensureAspect "Area",
      .newFacet ⟨0⟩ "new" "New", .ensureFacet ⟨1⟩ "new", .newFacet ⟨0⟩ "new" "Newer",
      .upsert "a"] := ⟨_, rfl⟩
  have hlive : ((create {}).run history).2.owner.isSome := by rw [hhistory]; decide +kernel
  have haspect : (((create {}).run history).2.aspectOf? ⟨0⟩).isSome := by
    rw [hhistory]
    decide +kernel
  obtain ⟨r, hr⟩ := Option.isSome_iff_exists.1 hlive
  obtain ⟨a, ha⟩ := Option.isSome_iff_exists.1 haspect
  have hwritten : (((create {}).run history).2.apply (.setItem ⟨⟨0⟩, 0⟩ "a")).1 = .written := by
    rw [hhistory]
    decide +kernel
  have hnamed : (create {}).named history = [.aspect "Kind" ⟨0⟩, .aspect "Kind" ⟨0⟩,
      .aspect "Kind" ⟨0⟩, .aspect "Area" ⟨1⟩, .facet ⟨0⟩ "new" ⟨⟨0⟩, 0⟩,
      .facet ⟨1⟩ "new" ⟨⟨1⟩, 0⟩, .facet ⟨0⟩ "new" ⟨⟨0⟩, 0⟩] := by
    rw [hhistory]
    decide +kernel
  obtain ⟨haspects, hfacets⟩ := names_of_run {} history rfl
  rw [hnamed] at haspects hfacets
  have hkinds := haspects r hr
  have hnew := hfacets ⟨0⟩ a ha
  refine ⟨_, history, r, a, (((create {}).run history).2.apply (.setItem ⟨⟨0⟩, 0⟩ "a")).2, rfl,
    hhistory, hr, ha, hnamed, (hkinds.found _ _).1 (by decide), (hkinds.missing _).1 ?_,
    (hkinds.taken _ _ (by decide)).1 _, (hnew.found _ _).1 (by decide),
    (hnew.taken _ _ (by decide)).1 _, Prod.ext hwritten rfl, ?_, ?_⟩
  · intro id
    simp
  · exact hnew.shared _ _ _ _ "new" _ _ rfl (by decide) (Prod.ext hwritten rfl) (.inl (by decide))
  · exact hnew.separate (.setItem ⟨⟨0⟩, 0⟩ "a") _ _ _ _ rfl (by decide)

end Catalog

end FacetIndex
