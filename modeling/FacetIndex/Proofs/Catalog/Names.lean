import FacetIndex.Proofs.Catalog.Clean
import FacetIndex.Proofs.Catalog.Directory

/-!
# What a history calls things

Aspects and facets are asked for under a name and handed out as identifiers. A history leaves
a list of such pairs behind (`FacetIndex.Catalog.named`), and the catalog at its end bears
the same names: an identifier has the name in the catalog exactly if the history handed it
out for the name (`FacetIndex.Catalog.bears_run`).

This is a run of one step, and what a step can do to the names is said once, in
`FacetIndex.Catalog.Naming`: it names nothing, finds a name that was there, or puts a new
name under an identifier that stood for nothing. From these four cases follow that no label
ever changes (`FacetIndex.Catalog.aspectLabel?_run`, `FacetIndex.Catalog.facetLabel?_run`)
and that names tell things apart (`FacetIndex.Catalog.WellNamed`), which is what makes
finding by name the inverse of bearing a name.
-/

namespace FacetIndex

/-! ### Labels -/

/-- What an aspect or a facet is called. -/
structure Label where
  /-- The name, by which it is found. -/
  name : String
  /-- The name to be shown. -/
  displayName : String
  deriving DecidableEq, Repr

/-- What the aspect is called. -/
def Aspect.label (a : Aspect) : Label := ⟨a.name, a.displayName⟩

/-- What the facet is called. -/
def Facet.label (f : Facet) : Label := ⟨f.name, f.displayName⟩

section Labels

variable {ι : Type} [DecidableEq ι] {labels labels' : ι → Option Label} {i : ι} {label : Label}

/-- One label more, under an identifier that had none. -/
structure GrowsBy (labels labels' : ι → Option Label) (i : ι) (label : Label) : Prop where
  fresh : labels i = none
  labels : ∀ j, labels' j = if j = i then some label else labels j

/-- No two identifiers that are `related` have the same name. -/
def ToldApart (related : ι → ι → Prop) (labels : ι → Option Label) : Prop :=
  ∀ i j l m, related i j → labels i = some l → labels j = some m → l.name = m.name → i = j

namespace GrowsBy

variable (h : GrowsBy labels labels' i label)

include h

theorem kept {j : ι} {l : Label} (hj : labels j = some l) : labels' j = some l := by
  rw [h.labels, if_neg, hj]
  rintro rfl
  rw [h.fresh] at hj
  cases hj

/-- What has a name had it before or is the new one. -/
theorem exists_label_iff {j : ι} {name : String} :
    (∃ displayName, labels' j = some ⟨name, displayName⟩) ↔
      (∃ displayName, labels j = some ⟨name, displayName⟩) ∨ i = j ∧ label.name = name := by
  rcases eq_or_ne j i with rfl | hne
  · simp only [h.labels, h.fresh, if_true, true_and, reduceCtorEq, exists_false, false_or]
    constructor
    · rintro ⟨displayName, heq⟩
      rw [Option.some.inj heq]
    · rintro rfl
      exact ⟨label.displayName, rfl⟩
  · simp only [h.labels, if_neg hne, Ne.symm hne, false_and, or_false]

/-- A new name tells its bearer from all that were there. -/
theorem toldApart {related : ι → ι → Prop} (hsymm : ∀ {i j}, related i j → related j i)
    (hnew : ∀ j displayName, related j i → labels j ≠ some ⟨label.name, displayName⟩)
    (hold : ToldApart related labels) : ToldApart related labels' := by
  have hother : ∀ {j l}, related j i → labels j = some l → label.name ≠ l.name := by
    rintro j l hrelated hj hname
    refine hnew j l.displayName hrelated ?_
    rw [hname, hj]
  intro j k l m hrelated hj hk hname
  rw [h.labels] at hj hk
  -- each of the two is the new one or was there before
  split at hj <;> split at hk
  · next hji hki => rw [hji, hki]
  · next hji _ =>
    obtain rfl : label = l := Option.some.inj hj
    exact absurd hname (hother (hsymm (hji ▸ hrelated)) hk)
  · next _ hki =>
    obtain rfl : label = m := Option.some.inj hk
    exact absurd hname.symm (hother (hki ▸ hrelated) hj)
  · exact hold j k l m hrelated hj hk hname

end GrowsBy

end Labels

/-! ### Requests and what they name -/

/-- An identifier, with the name that it was handed out for. -/
inductive Named where
  /-- An aspect of the catalog. -/
  | aspect (name : String) (id : AspectId)
  /-- A facet, for the name in its aspect. -/
  | facet (aspect : AspectId) (name : String) (id : FacetId)
  deriving DecidableEq, Repr

/-- The aspect that an outcome hands out, new or found. -/
def Outcome.aspect? : Outcome → Option AspectId
  | .aspect id => some id
  | .aspectTaken refusal => some refusal.existing
  | _ => none

/-- What a request to create something was answered with. -/
def Change.named? : Change → Outcome → Option Named
  | .newAspect name _, outcome => outcome.aspect?.map (.aspect name)
  | .ensureAspect name, outcome => outcome.aspect?.map (.aspect name)
  | .newFacet id name _, outcome => outcome.facet?.map (.facet id name)
  | .ensureFacet id name, outcome => outcome.facet?.map (.facet id name)
  | _, _ => none

namespace Catalog

/-- What the aspect of an identifier is called. -/
def aspectLabel? (c : Catalog) (id : AspectId) : Option Label := (c.aspectOf? id).map Aspect.label

/-- What the facet of an identifier is called. -/
def facetLabel? (c : Catalog) (F : FacetId) : Option Label := (c.facetOf? F).map Facet.label

/-- What the identifier stands for has the name. -/
def Bears (c : Catalog) : Named → Prop
  | .aspect name id => ∃ displayName, c.aspectLabel? id = some ⟨name, displayName⟩
  | .facet id name F => F.aspect = id ∧ ∃ displayName, c.facetLabel? F = some ⟨name, displayName⟩

/-- What a history was asked for by name, with the identifiers that it handed out, in the
order of the changes. -/
def named (c : Catalog) (history : List Change) : List Named :=
  (List.zipWith Change.named? history (c.run history).1).filterMap id

/-- Aspects have different names, and so have the facets of one aspect. -/
structure WellNamed (c : Catalog) : Prop where
  aspects : ToldApart (fun _ _ => True) c.aspectLabel?
  facets : ToldApart (fun F G => F.aspect = G.aspect) c.facetLabel?

/-- **What a change does to the names**, given its outcome. -/
inductive Naming (c : Catalog) (change : Change) : Outcome → Catalog → Prop
  /-- Names nothing. -/
  | silent {outcome : Outcome} {c' : Catalog} (haspects : c'.aspectLabel? = c.aspectLabel?)
      (hfacets : c'.facetLabel? = c.facetLabel?) (hnamed : change.named? outcome = none) :
      Naming c change outcome c'
  /-- Finds what bears the name, and does nothing to it. -/
  | found {outcome : Outcome} {n : Named} (hn : c.Bears n)
      (hnamed : change.named? outcome = some n) : Naming c change outcome c
  /-- Names a new aspect. -/
  | aspect {outcome : Outcome} {c' : Catalog} {id : AspectId} {label : Label}
      (hnew : ∀ other, ¬ c.Bears (.aspect label.name other))
      (haspects : GrowsBy c.aspectLabel? c'.aspectLabel? id label)
      (hfacets : c'.facetLabel? = c.facetLabel?)
      (hnamed : change.named? outcome = some (.aspect label.name id)) :
      Naming c change outcome c'
  /-- Names a new facet. -/
  | facet {outcome : Outcome} {c' : Catalog} {F : FacetId} {label : Label}
      (hnew : ∀ G, ¬ c.Bears (.facet F.aspect label.name G))
      (haspects : c'.aspectLabel? = c.aspectLabel?)
      (hfacets : GrowsBy c.facetLabel? c'.facetLabel? F label)
      (hnamed : change.named? outcome = some (.facet F.aspect label.name F)) :
      Naming c change outcome c'

variable {c c' : Catalog} {change : Change} {outcome : Outcome}

namespace Naming

/-! ### What follows from a step -/

variable (h : Naming c change outcome c')

include h

theorem aspectLabel? {id : AspectId} {l : Label} (hid : c.aspectLabel? id = some l) :
    c'.aspectLabel? id = some l := by
  cases h with
  | silent haspects => rw [haspects, hid]
  | found => exact hid
  | aspect _ haspects => exact haspects.kept hid
  | facet _ haspects => rw [haspects, hid]

theorem facetLabel? {F : FacetId} {l : Label} (hF : c.facetLabel? F = some l) :
    c'.facetLabel? F = some l := by
  cases h with
  | silent _ hfacets => rw [hfacets, hF]
  | found => exact hF
  | aspect _ _ hfacets => rw [hfacets, hF]
  | facet _ _ hfacets => exact hfacets.kept hF

theorem wellNamed (hold : c.WellNamed) : c'.WellNamed := by
  cases h with
  | silent haspects hfacets => exact ⟨haspects ▸ hold.aspects, hfacets ▸ hold.facets⟩
  | found => exact hold
  | aspect hnew haspects hfacets =>
    exact ⟨haspects.toldApart (fun _ => trivial) (fun other d _ h => hnew other ⟨d, h⟩)
      hold.aspects, hfacets ▸ hold.facets⟩
  | facet hnew haspects hfacets =>
    exact ⟨haspects ▸ hold.aspects, hfacets.toldApart Eq.symm
      (fun G d haspect h => hnew G ⟨haspect, d, h⟩) hold.facets⟩

/-- **What bears a name bore it before or was named just now.** -/
theorem bears_iff {n : Named} :
    c'.Bears n ↔ c.Bears n ∨ change.named? outcome = some n := by
  cases h with
  | silent haspects hfacets hnamed =>
    have hsame : c'.Bears n ↔ c.Bears n := by
      cases n <;> simp only [Bears, haspects, hfacets]
    rw [hsame, hnamed]
    simp only [reduceCtorEq, or_false]
  | found hn hnamed =>
    refine (or_iff_left_of_imp fun heq => ?_).symm
    obtain rfl := Option.some.inj (hnamed.symm.trans heq)
    exact hn
  | aspect _ haspects hfacets hnamed =>
    rw [hnamed, Option.some.injEq]
    cases n with
    | aspect name id =>
      rw [Bears, haspects.exists_label_iff, Named.aspect.injEq, and_comm (b := _ = id)]
      rfl
    | facet => simp only [Bears, hfacets, reduceCtorEq, or_false]
  | facet _ haspects hfacets hnamed =>
    rw [hnamed, Option.some.injEq]
    cases n with
    | aspect => simp only [Bears, haspects, reduceCtorEq, or_false]
    | facet id name F =>
      rw [Bears, Bears, hfacets.exists_label_iff, Named.facet.injEq, and_or_left]
      refine or_congr_right ?_
      constructor
      · rintro ⟨rfl, rfl, rfl⟩
        exact ⟨rfl, rfl, rfl⟩
      · rintro ⟨rfl, rfl, rfl⟩
        exact ⟨rfl, rfl, rfl⟩

end Naming

/-! ### The labels of a changed catalog -/

theorem aspectLabel?_forget (c : Catalog) (i : Nat) :
    (c.forget i).aspectLabel? = c.aspectLabel? := by
  funext id
  rw [Catalog.aspectLabel?, aspectOf?, forget, Array.getElem?_map, Option.map_map]
  rfl

theorem facetLabel?_forget (c : Catalog) (i : Nat) : (c.forget i).facetLabel? = c.facetLabel? := by
  have hlabel : Facet.label ∘ (·.forget i) = Facet.label := by
    funext f
    simp only [Function.comp_apply, Facet.forget]
    split <;> rfl
  funext F
  rw [Catalog.facetLabel?, facetOf?_forget, Option.map_map, hlabel]
  rfl

theorem aspectLabel?_putAspect {id : AspectId} {a a' : Aspect} (ha : c.aspectOf? id = some a)
    (hlabel : a'.label = a.label) : (c.putAspect id a').aspectLabel? = c.aspectLabel? := by
  funext other
  rw [Catalog.aspectLabel?, aspectOf?_putAspect, Catalog.aspectLabel?]
  split
  · next heq => rw [heq, ha, Option.map_some, Option.map_some, Option.map_some, hlabel]
  · rfl

theorem aspectLabel?_putFacet (c : Catalog) (F : FacetId) (f : Facet) :
    (c.putFacet F f).aspectLabel? = c.aspectLabel? := by
  rw [putFacet]
  split
  · next a ha => exact aspectLabel?_putAspect ha rfl
  · rfl

theorem facetLabel?_putFacet {F : FacetId} {f f' : Facet} (hF : c.facetOf? F = some f)
    (hlabel : f'.label = f.label) : (c.putFacet F f').facetLabel? = c.facetLabel? := by
  funext G
  rw [Catalog.facetLabel?, facetOf?_putFacet hF, Catalog.facetLabel?]
  split
  · next heq => rw [heq, hF, Option.map_some, Option.map_some, hlabel]
  · rfl

theorem growsBy_pushAspect (c : Catalog) (name displayName : String) :
    GrowsBy c.aspectLabel?
      ({ c with aspects := c.aspects.push { name, displayName } } : Catalog).aspectLabel?
      ⟨c.aspects.size⟩ ⟨name, displayName⟩ where
  fresh := by rw [Catalog.aspectLabel?, aspectOf?_next, Option.map_none]
  labels id := by
    rw [Catalog.aspectLabel?, aspectOf?_pushAspect]
    split <;> rfl

theorem growsBy_addFacet {id : AspectId} {a : Aspect} (ha : c.aspectOf? id = some a)
    (name displayName : String) (capacity : Nat) :
    GrowsBy c.facetLabel? (c.putAspect id (a.addFacet name displayName capacity)).facetLabel?
      ⟨id, a.facets.size⟩ ⟨name, displayName⟩ where
  fresh := by rw [Catalog.facetLabel?, facetOf?_next ha, Option.map_none]
  labels F := by
    rw [Catalog.facetLabel?, facetOf?_addFacet ha]
    split <;> rfl

/-! ### Names and places -/

/-- There is a label with this name if there is something with this name. -/
theorem exists_label_iff {α : Type} {labelOf : α → Label} {nameOf : α → String}
    (h : ∀ a, (labelOf a).name = nameOf a) (a? : Option α) (name : String) :
    (∃ displayName, a?.map labelOf = some ⟨name, displayName⟩) ↔ a?.map nameOf = some name := by
  rcases a? with _ | a
  · simp only [Option.map_none, reduceCtorEq, exists_false]
  · rw [Option.map_some, Option.map_some, Option.some.injEq, ← h a]
    constructor
    · rintro ⟨displayName, heq⟩
      rw [Option.some.inj heq]
    · rintro rfl
      exact ⟨(labelOf a).displayName, rfl⟩

theorem bears_aspect_iff {name : String} {id : AspectId} :
    c.Bears (.aspect name id) ↔ c.aspects[id.number]?.map Aspect.name = some name :=
  exists_label_iff (fun _ => rfl) _ name

/-- What bears a name is an aspect with this name. -/
theorem bears_aspect_iff_exists {name : String} {id : AspectId} :
    c.Bears (.aspect name id) ↔ ∃ a, c.aspectOf? id = some a ∧ a.name = name :=
  bears_aspect_iff.trans Option.map_eq_some_iff

theorem bears_facet_iff {id : AspectId} {a : Aspect} (ha : c.aspectOf? id = some a)
    {name : String} {k : Nat} :
    c.Bears (.facet id name ⟨id, k⟩) ↔ a.facets[k]?.map Facet.name = some name := by
  have hfacet : c.facetOf? ⟨id, k⟩ = a.facets[k]? := by rw [facetOf?, ha, Option.bind_some]
  rw [Bears, Catalog.facetLabel?, hfacet, exists_label_iff (fun _ => rfl)]
  exact and_iff_right rfl

/-- What bears a name is a facet with this name, in the aspect. -/
theorem bears_facet_iff_exists {name : String} {id : AspectId} {F : FacetId} :
    c.Bears (.facet id name F) ↔
      F.aspect = id ∧ ∃ f, c.facetOf? F = some f ∧ f.name = name := by
  rw [Bears, Catalog.facetLabel?, exists_label_iff (fun _ => rfl), Option.map_eq_some_iff]
  rfl

/-- What an aspect is found under is its name. -/
theorem bears_of_findAspect? {name : String} {id : AspectId} (h : c.findAspect? name = some id) :
    c.Bears (.aspect name id) := by
  obtain ⟨n, hn, rfl⟩ := Option.map_eq_some_iff.1 h
  exact bears_aspect_iff.2 (name_of_findIdx? hn)

theorem findAspect?_eq_none_iff {name : String} :
    c.findAspect? name = none ↔ ∀ id, ¬ c.Bears (.aspect name id) := by
  rw [findAspect?, Option.map_eq_none_iff, findIdx?_eq_none_iff_names]
  exact ⟨fun h id hid => h id.number (bears_aspect_iff.1 hid),
    fun h n hn => h ⟨n⟩ (bears_aspect_iff.2 hn)⟩

section Facets

variable {id : AspectId} {a : Aspect} (ha : c.aspectOf? id = some a)

include ha

/-- What a facet is found under is its name. -/
theorem bears_of_find? {name : String} {k : Nat} (h : a.find? name = some k) :
    c.Bears (.facet id name ⟨id, k⟩) :=
  (bears_facet_iff ha).2 (name_of_findIdx? h)

theorem find?_eq_none_iff {name : String} :
    a.find? name = none ↔ ∀ F, ¬ c.Bears (.facet id name F) := by
  rw [Aspect.find?, findIdx?_eq_none_iff_names]
  constructor
  · rintro h F hF
    obtain rfl := hF.1
    exact h F.number ((bears_facet_iff ha).1 hF)
  · exact fun h k hk => h ⟨id, k⟩ ((bears_facet_iff ha).2 hk)

end Facets

namespace WellNamed

variable (h : c.WellNamed)

include h

theorem distinctNames_aspects : DistinctNames Aspect.name c.aspects := by
  intro j k name hj hk
  have hbears : c.Bears (.aspect name ⟨j⟩) ∧ c.Bears (.aspect name ⟨k⟩) :=
    ⟨bears_aspect_iff.2 hj, bears_aspect_iff.2 hk⟩
  obtain ⟨⟨d, hd⟩, ⟨e, he⟩⟩ := hbears
  exact congrArg AspectId.number (h.aspects _ _ _ _ trivial hd he rfl)

theorem distinctNames_facets {id : AspectId} {a : Aspect} (ha : c.aspectOf? id = some a) :
    DistinctNames Facet.name a.facets := by
  intro j k name hj hk
  obtain ⟨-, d, hd⟩ := (bears_facet_iff ha).2 hj
  obtain ⟨-, e, he⟩ := (bears_facet_iff ha).2 hk
  exact congrArg FacetId.number (h.facets ⟨id, j⟩ ⟨id, k⟩ _ _ rfl hd he rfl)

/-- **Finding an aspect is the inverse of naming it.** -/
theorem findAspect?_eq_some_iff {name : String} {id : AspectId} :
    c.findAspect? name = some id ↔ c.Bears (.aspect name id) := by
  rw [findAspect?, Option.map_eq_some_iff, bears_aspect_iff,
    ← h.distinctNames_aspects.findIdx?_eq_some_iff]
  constructor
  · rintro ⟨n, hn, rfl⟩
    exact hn
  · exact fun hn => ⟨id.number, hn, rfl⟩

/-- **Finding a facet is the inverse of naming it.** -/
theorem find?_eq_some_iff {id : AspectId} {a : Aspect} (ha : c.aspectOf? id = some a)
    {name : String} {k : Nat} : a.find? name = some k ↔ c.Bears (.facet id name ⟨id, k⟩) := by
  rw [bears_facet_iff ha]
  exact (h.distinctNames_facets ha).findIdx?_eq_some_iff

end WellNamed

/-! ### Every change -/

theorem naming_applyNewAspect {name displayName : String}
    {answer : Except (AlreadyExists AspectId) AspectId → Outcome}
    (hnamed : ∀ o, change.named? o = o.aspect?.map (.aspect name))
    (hanswer : ∀ created, (answer created).aspect? = some (orExisting created)) :
    Naming c change (c.applyNewAspect name displayName answer).1
      (c.applyNewAspect name displayName answer).2 := by
  have hgiven : ∀ created, change.named? (answer created) =
      some (.aspect name (orExisting created)) := by
    intro created
    rw [hnamed, hanswer, Option.map_some]
  rcases hr : c.owner with _ | r
  · rw [applyNewAspect_of_dropped hr]
    exact .silent rfl rfl (hnamed _)
  · rw [applyNewAspect_eq hr]
    rcases hname : c.findAspect? name with _ | id
    · rw [newAspect_of_new hname]
      exact .aspect (findAspect?_eq_none_iff.1 hname) (c.growsBy_pushAspect name displayName)
        (funext fun F => congrArg _ (c.facetOf?_pushAspect name displayName F)) (hgiven _)
    · rw [newAspect_of_taken hname]
      exact .found (bears_of_findAspect? hname) (hgiven _)

theorem naming_applyNewFacet {id : AspectId} {name displayName : String}
    {answer : Except (AlreadyExists FacetId) FacetId → Outcome}
    (hnamed : ∀ o, change.named? o = o.facet?.map (.facet id name))
    (hanswer : ∀ created, (answer created).facet? = some (orExisting created)) :
    Naming c change (c.applyNewFacet id name displayName answer).1
      (c.applyNewFacet id name displayName answer).2 := by
  have hgiven : ∀ created, change.named? (answer created) =
      some (.facet id name (orExisting created)) := by
    intro created
    rw [hnamed, hanswer, Option.map_some]
  rcases ha : c.aspectOf? id with _ | a
  · rw [applyNewFacet_of_unknown ha]
    exact .silent rfl rfl (hnamed _)
  · rcases hname : a.find? name with _ | k
    · rw [applyNewFacet_of_some (newFacet_of_new ha hname displayName)]
      exact .facet ((find?_eq_none_iff ha).1 hname) (aspectLabel?_putAspect ha rfl)
        (growsBy_addFacet ha name displayName c.domain) (hgiven _)
    · rw [applyNewFacet_of_some (newFacet_of_taken ha hname displayName)]
      exact .found (bears_of_find? ha hname) (hgiven _)

theorem naming_applyWrite (c : Catalog) (F : FacetId)
    {write : Facet → Option Registry → Except Error Facet}
    (hwrite : ∀ f owner f', write f owner = .ok f' → f'.label = f.label)
    (hnamed : ∀ o, change.named? o = none) :
    Naming c change (c.applyWrite F write).1 (c.applyWrite F write).2 := by
  rcases c.applyWrite_cases F write with hsame | ⟨f, f', hF, hf', heq⟩
  · rw [hsame]
    exact .silent rfl rfl (hnamed _)
  · rw [heq]
    exact .silent (c.aspectLabel?_putFacet F f') (facetLabel?_putFacet hF (hwrite f _ f' hf'))
      (hnamed _)

/-- **Every change names something in one of the four ways.** -/
theorem naming_apply (c : Catalog) (change : Change) :
    Naming c change (c.apply change).1 (c.apply change).2 := by
  cases change with
  | upsert item =>
    rcases hr : c.owner with _ | r
    · rw [apply_upsert_of_dropped hr]
      exact .silent rfl rfl rfl
    · rw [apply_upsert hr]
      exact .silent rfl rfl rfl
  | remove item =>
    rcases hr : c.owner with _ | r
    · rw [apply_remove_of_dropped hr]
      exact .silent rfl rfl rfl
    · rcases hi : r.indexes[item]? with _ | i
      · rw [apply_remove_of_absent hr hi]
        exact .silent rfl rfl rfl
      · rw [apply_remove_of_live hr hi]
        exact .silent (aspectLabel?_forget ..) (facetLabel?_forget ..) rfl
  | newAspect name displayName =>
    exact naming_applyNewAspect (fun _ => rfl) fun created => by cases created <;> rfl
  | ensureAspect name => exact naming_applyNewAspect (fun _ => rfl) fun _ => rfl
  | newFacet id name displayName =>
    exact naming_applyNewFacet (fun _ => rfl) fun created => by cases created <;> rfl
  | ensureFacet id name => exact naming_applyNewFacet (fun _ => rfl) fun _ => rfl
  | setIndex F i =>
    refine c.naming_applyWrite F (fun f owner f' h => ?_) fun _ => rfl
    obtain ⟨_, _, _, _, rfl⟩ := Facet.setIndex?_eq_ok h
    rfl
  | setItem F item =>
    refine c.naming_applyWrite F (fun f owner f' h => ?_) fun _ => rfl
    obtain ⟨_, _, _, _, rfl⟩ := Facet.setItem?_eq_ok h
    rfl
  | unsetIndex F i =>
    refine c.naming_applyWrite F (fun f owner f' h => ?_) fun _ => rfl
    obtain ⟨_, _, _, rfl⟩ := Facet.unsetIndex?_eq_ok h
    rfl
  | unsetItem F item =>
    refine c.naming_applyWrite F (fun f owner f' h => ?_) fun _ => rfl
    obtain ⟨_, _, _, _, rfl⟩ := Facet.unsetItem?_eq_ok h
    rfl
  | drop =>
    rcases hr : c.owner with _ | r
    · rw [apply_drop_of_dropped hr]
      exact .silent rfl rfl rfl
    · rw [apply_drop hr]
      exact .silent rfl rfl rfl

/-! ### Every history -/

theorem named_cons (c : Catalog) (change : Change) (history : List Change) :
    c.named (change :: history) =
      (change.named? (c.apply change).1).toList ++ (c.apply change).2.named history := by
  rw [named, run_cons, List.zipWith_cons_cons, List.filterMap_cons]
  rcases change.named? (c.apply change).1 with _ | n <;> rfl

/-- **What bears a name after a history** bore it before, or the history was asked for it. -/
theorem bears_run (c : Catalog) (history : List Change) (n : Named) :
    (c.run history).2.Bears n ↔ c.Bears n ∨ n ∈ c.named history := by
  induction history generalizing c with
  | nil => exact (or_iff_left List.not_mem_nil).symm
  | cons change history ih =>
    rw [run_cons, ih, (c.naming_apply change).bears_iff, named_cons, List.mem_append,
      Option.mem_toList, or_assoc]

theorem aspectLabel?_run (history : List Change) {id : AspectId} {l : Label}
    (h : c.aspectLabel? id = some l) : (c.run history).2.aspectLabel? id = some l :=
  run_invariant (P := fun c => c.aspectLabel? id = some l)
    (fun c change h => (c.naming_apply change).aspectLabel? h) history h

theorem facetLabel?_run (history : List Change) {F : FacetId} {l : Label}
    (h : c.facetLabel? F = some l) : (c.run history).2.facetLabel? F = some l :=
  run_invariant (P := fun c => c.facetLabel? F = some l)
    (fun c change h => (c.naming_apply change).facetLabel? h) history h

theorem WellNamed.run (h : c.WellNamed) (history : List Change) : (c.run history).2.WellNamed :=
  run_invariant (fun c change h => (c.naming_apply change).wellNamed h) history h

theorem not_bears_create (config : Config) (n : Named) : ¬ (create config).Bears n := by
  cases n with
  | aspect name id => exact fun ⟨_, h⟩ => nomatch h
  | facet id name F => exact fun ⟨_, _, h⟩ => nomatch h

theorem wellNamed_create (config : Config) : (create config).WellNamed where
  aspects _ _ _ _ _ h := nomatch h
  facets _ _ _ _ _ h := nomatch h

end Catalog

end FacetIndex
