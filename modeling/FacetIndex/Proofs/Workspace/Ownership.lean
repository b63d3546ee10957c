import FacetIndex.Proofs.Workspace.Reading
import Mathlib.Data.List.Nodup

/-!
# Who owns what in a workspace

Nothing in the memory of a workspace keeps one catalog from reaching the aspects and the
facets of another but the way in which references are handed out and stored.
`FacetIndex.Workspace.WellOwned` says what they look like in every state that a workspace
gets into: whatever a catalog refers to, directly or through its aspects, lies in the
memory, stores this catalog as its owner, and is called by one name.

The memory changes in six ways: a catalog is opened, its registry is replaced, a facet is
replaced, an index is taken from the facets of a catalog, an aspect is added, a facet is
added. For each it is said what becomes of references and contents, and then what the
catalogs are that are read out (`FacetIndex.Workspace.Becomes`): the one that was meant has
become what the same change makes of a catalog by itself, and every other one is as it was.

Both halves rest on the owners. A facet is written by reference; that it is not a facet of
another catalog as well is known because both would be its owner
(`FacetIndex.Workspace.Assigned.ne_of_ne`). That it is not the same facet under a second
name of its own catalog takes the third part of the invariant.
-/

namespace FacetIndex.Workspace

variable {w w' : Workspace} {id other : CatalogId} {c : Catalog}

/-! ### Names and owners -/

/-- The names that clients of the catalogs use: whatever is called lies in the memory, stores
the catalog whose clients call it as its owner, and has one name with them. -/
structure Assigned {ν ρ : Type} (ref? : CatalogId → ν → Option ρ) (Lies : ρ → Prop)
    (owner : ρ → CatalogId) : Prop where
  lies : ∀ {id name a}, ref? id name = some a → Lies a
  owner_eq : ∀ {id name a}, ref? id name = some a → owner a = id
  inj : ∀ {id name name' a}, ref? id name = some a → ref? id name' = some a → name = name'

namespace Assigned

variable {ν ρ : Type} {ref? ref?' : CatalogId → ν → Option ρ} {Lies Lies' : ρ → Prop}
  {owner owner' : ρ → CatalogId} {name name' : ν} {a b : ρ}

/-- There are no names yet. -/
theorem of_none (hnone : ∀ id name, ref? id name = none) : Assigned ref? Lies owner where
  lies ha := nomatch (hnone _ _).symm.trans ha
  owner_eq ha := nomatch (hnone _ _).symm.trans ha
  inj ha := nomatch (hnone _ _).symm.trans ha

/-- **Clients of different catalogs do not call the same thing.** -/
theorem ne_of_ne (h : Assigned ref? Lies owner) (ha : ref? id name = some a)
    (hb : ref? other name' = some b) (hne : other ≠ id) : b ≠ a := by
  rintro rfl
  exact hne ((h.owner_eq hb).symm.trans (h.owner_eq ha))

/-- Names that stay as they are, for things that keep their owners. -/
theorem of_same (h : Assigned ref? Lies owner) (href : ∀ id name, ref?' id name = ref? id name)
    (hlies : ∀ a, Lies a → Lies' a) (howner : ∀ a, Lies a → owner' a = owner a) :
    Assigned ref?' Lies' owner' where
  lies ha := hlies _ (h.lies (href _ _ ▸ ha))
  owner_eq ha := (howner _ (h.lies (href _ _ ▸ ha))).trans (h.owner_eq (href _ _ ▸ ha))
  inj ha hb := h.inj (href _ _ ▸ ha) (href _ _ ▸ hb)

/-- One more name, for something that was not there. -/
theorem of_new [DecidableEq ν] (h : Assigned ref? Lies owner) {id : CatalogId} {name : ν}
    (href : ∀ id' name', ref?' id' name' =
      if id' = id ∧ name' = name then some a else ref? id' name')
    (hnew : ¬Lies a)
    (hlies : ∀ b, Lies b → Lies' b) (hself : Lies' a) (howner : ∀ b, Lies b → owner' b = owner b)
    (hid : owner' a = id) : Assigned ref?' Lies' owner' := by
  have hcases {id' name' b} (hb : ref?' id' name' = some b) :
      (id' = id ∧ name' = name) ∧ b = a ∨ ref? id' name' = some b := by
    rw [href] at hb
    split at hb
    · next heq => exact Or.inl ⟨heq, (Option.some.inj hb).symm⟩
    · exact Or.inr hb
  constructor
  · intro id' name' b hb
    obtain ⟨-, rfl⟩ | hold := hcases hb
    · exact hself
    · exact hlies _ (h.lies hold)
  · intro id' name' b hb
    obtain ⟨⟨rfl, -⟩, rfl⟩ | hold := hcases hb
    · exact hid
    · exact (howner _ (h.lies hold)).trans (h.owner_eq hold)
  · intro id' name' name'' b hb hb'
    obtain ⟨⟨-, rfl⟩, rfl⟩ | hold := hcases hb <;> obtain ⟨⟨-, rfl⟩, heq⟩ | hold' := hcases hb'
    · rfl
    · exact absurd (h.lies hold') hnew
    · exact absurd (h.lies hold) (heq ▸ hnew)
    · exact h.inj hold hold'

end Assigned

/-- **Whatever a catalog refers to stores it as the owner**, and is called by one name
only. -/
structure WellOwned (w : Workspace) : Prop where
  /-- A catalog gives its aspects the right reference to itself. -/
  self_eq : ∀ {id : CatalogId}, id.number < w.catalogs.size → (w.catalogAt id).self = id
  aspects : Assigned w.aspectRef? (·.address < w.aspects.size) fun a => (w.aspectAt a).owner
  facets : Assigned w.facetRef? (·.address < w.facets.size) fun f => (w.facetAt f).owner

/-- There is nothing in the memory to begin with. -/
theorem WellOwned.empty : ({} : Workspace).WellOwned := by
  have hnone (id : CatalogId) (A : AspectId) : ({} : Workspace).aspectRef? id A = none :=
    aspectRef?_of_le (Nat.zero_le _) A
  exact ⟨fun hlt => absurd hlt (Nat.not_lt_zero _), .of_none hnone,
    .of_none fun id F => congrArg (Option.bind · _) (hnone id F.aspect)⟩

/-- The memory after a change to one catalog: this catalog is `c` now, and all others are as
they were. -/
structure Becomes (w : Workspace) (id : CatalogId) (c : Catalog) (w' : Workspace) : Prop where
  wellOwned : w'.WellOwned
  own : w'.catalogOf? id = some c
  others : ∀ other, other ≠ id → w'.catalogOf? other = w.catalogOf? other

namespace Becomes

theorem refl (h : w.WellOwned) (hc : w.catalogOf? id = some c) : w.Becomes id c w :=
  ⟨h, hc, fun _ _ => rfl⟩

theorem trans {d : Catalog} {w'' : Workspace} (h : w.Becomes id c w')
    (h' : w'.Becomes id d w'') : w.Becomes id d w'' :=
  ⟨h'.wellOwned, h'.own, fun other hne => (h'.others other hne).trans (h.others other hne)⟩

end Becomes

theorem number_ne (hne : other ≠ id) : id.number ≠ other.number :=
  fun he => hne (congrArg CatalogId.mk he.symm)

/-! ### Replacing a registry -/

section Registry

variable (w id) (registry : Option Registry)

theorem self_putRegistry (other : CatalogId) :
    ((w.putRegistry id registry).catalogAt other).self = (w.catalogAt other).self :=
  apply_getD_modify CatalogCell.self fun _ => rfl

theorem aspects_putRegistry (other : CatalogId) :
    ((w.putRegistry id registry).catalogAt other).aspects = (w.catalogAt other).aspects :=
  apply_getD_modify CatalogCell.aspects fun _ => rfl

theorem aspectRef?_putRegistry (other : CatalogId) (A : AspectId) :
    (w.putRegistry id registry).aspectRef? other A = w.aspectRef? other A :=
  congrArg (·[A.number]?) (w.aspects_putRegistry id registry other)

theorem facetRef?_putRegistry (other : CatalogId) (F : FacetId) :
    (w.putRegistry id registry).facetRef? other F = w.facetRef? other F :=
  congrArg (Option.bind · _) (w.aspectRef?_putRegistry id registry other F.aspect)

end Registry

theorem putRegistry_becomes (h : w.WellOwned) (hc : w.catalogOf? id = some c)
    (registry : Option Registry) :
    w.Becomes id { c with owner := registry } (w.putRegistry id registry) where
  wellOwned := by
    refine ⟨fun {other} hlt => ?_, ?_, ?_⟩
    · rw [putRegistry, Array.size_modify] at hlt
      rw [self_putRegistry, h.self_eq hlt]
    · exact h.aspects.of_same (w.aspectRef?_putRegistry id registry) (fun _ hlt => hlt)
        fun _ _ => rfl
    · exact h.facets.of_same (w.facetRef?_putRegistry id registry) (fun _ hlt => hlt)
        fun _ _ => rfl
  own := by
    obtain ⟨hlt, -, htitles, hfacets⟩ := catalogOf?_eq_some_iff.1 hc
    refine catalogOf?_eq_some_iff.2 ⟨?_, ?_, ?_, fun F => ?_⟩
    · rwa [putRegistry, Array.size_modify]
    · rw [registryOf, catalogAt, putRegistry, getD_modify_self hlt]
    · rw [aspects_putRegistry]
      exact htitles
    · rw [facetOf?, facetRef?_putRegistry]
      exact hfacets F
  others other hne := by
    refine catalogOf?_frame ?_ (fun _ _ _ => rfl) fun _ _ _ => rfl
    rw [putRegistry, Array.getElem?_modify, if_neg (number_ne hne)]

/-! ### Replacing a facet -/

/-- Where only facets are replaced, a catalog is what its facets say, and every other catalog
is as it was if its facets are. -/
theorem becomes_of_facets (hc : w.catalogOf? id = some c) {d : Catalog}
    (hwellOwned : w'.WellOwned) (hcatalogs : w'.catalogs = w.catalogs)
    (haspects : w'.aspects = w.aspects) (howner : d.owner = c.owner)
    (htitles : d.aspects.map Aspect.title = c.aspects.map Aspect.title)
    (hown : ∀ F, d.facetOf? F = (w.facetRef? id F).map w'.readFacet)
    (hothers : ∀ other, other ≠ id → ∀ G g, w.facetRef? other G = some g →
      w'.readFacet g = w.readFacet g) :
    w.Becomes id d w' := by
  obtain ⟨hlt, hregistry, hnames, -⟩ := catalogOf?_eq_some_iff.1 hc
  obtain ⟨catalogs, aspects, facets⟩ := w'
  obtain rfl : catalogs = w.catalogs := hcatalogs
  obtain rfl : aspects = w.aspects := haspects
  exact ⟨hwellOwned,
    catalogOf?_eq_some_iff.2 ⟨hlt, howner.trans hregistry, htitles.trans hnames, hown⟩,
    fun other hne => catalogOf?_frame rfl (fun _ _ _ => rfl) (hothers other hne)⟩

section Facet

variable {F : FacetId} {f : FacetRef}

theorem owner_putFacet (w : Workspace) (f : FacetRef) (facet : Facet) (g : FacetRef) :
    ((w.putFacet f facet).facetAt g).owner = (w.facetAt g).owner :=
  apply_getD_modify FacetCell.owner fun _ => rfl

theorem readFacet_putFacet (hlt : f.address < w.facets.size) (facet : Facet) (g : FacetRef) :
    (w.putFacet f facet).readFacet g = if g = f then facet else w.readFacet g := by
  split
  · next heq =>
    rw [heq, readFacet, facetAt, putFacet, getD_modify_self hlt]
  · next hne =>
    have haddress : f.address ≠ g.address := fun he => hne (congrArg FacetRef.mk he.symm)
    rw [readFacet, facetAt, putFacet, getD_modify_of_ne haddress]
    rfl

theorem WellOwned.putFacet (h : w.WellOwned) (f : FacetRef) (facet : Facet) :
    (w.putFacet f facet).WellOwned where
  self_eq := h.self_eq
  aspects := h.aspects
  facets := h.facets.of_same (fun _ _ => rfl)
    (fun g hlt => by rwa [Workspace.putFacet, Array.size_modify])
    fun g _ => w.owner_putFacet f facet g

/-- **A facet is written in one catalog only**, and under one name. -/
theorem putFacet_becomes (h : w.WellOwned) (hc : w.catalogOf? id = some c)
    (hf : w.facetRef? id F = some f) (facet : Facet) :
    w.Becomes id (c.putFacet F facet) (w.putFacet f facet) := by
  have hF : c.facetOf? F = some (w.readFacet f) := by
    rw [facetOf?_of_catalogOf? hc, facetOf?, hf, Option.map_some]
  refine becomes_of_facets hc (h.putFacet f facet) rfl rfl (c.owner_putFacet F facet)
    (c.titles_putFacet F facet) (fun G => ?_) fun other hne G g hg => ?_
  · rw [Catalog.facetOf?_putFacet hF, facetOf?_of_catalogOf? hc, facetOf?]
    rcases hG : w.facetRef? id G with _ | g
    · rw [if_neg fun heq => by rw [heq, hf] at hG; cases hG]
      rfl
    · rw [Option.map_some, Option.map_some, readFacet_putFacet (h.facets.lies hf)]
      rcases eq_or_ne G F with rfl | hne
      · rw [if_pos rfl, if_pos (Option.some.inj (hG.symm.trans hf))]
      · rw [if_neg hne, if_neg]
        rintro rfl
        exact hne (h.facets.inj hG hf)
  · rw [readFacet_putFacet (h.facets.lies hf), if_neg (h.facets.ne_of_ne hf hg hne)]

end Facet

/-! ### Taking an index from the facets of a catalog -/

section Forget

variable {i : Nat}

/-- A catalog refers to the facets that its clients have names for. -/
theorem mem_facetsOf {f : FacetRef} : f ∈ w.facetsOf id ↔ ∃ F, w.facetRef? id F = some f := by
  simp only [facetsOf, List.mem_flatMap, Array.mem_toList_iff, Array.mem_iff_getElem?]
  constructor
  · rintro ⟨a, ⟨k, ha⟩, n, hn⟩
    exact ⟨⟨⟨k⟩, n⟩, Option.bind_eq_some_iff.2 ⟨a, ha, hn⟩⟩
  · rintro ⟨F, hF⟩
    obtain ⟨a, ha, hn⟩ := Option.bind_eq_some_iff.1 hF
    exact ⟨a, ⟨_, ha⟩, _, hn⟩

/-- No facet is met twice on the way through a catalog. -/
theorem WellOwned.nodup_facetsOf (h : w.WellOwned) (id : CatalogId) : (w.facetsOf id).Nodup := by
  -- two places of the way are two names
  have hinj {k k' n n' : Nat} {a a' : AspectRef} {f : FacetRef}
      (ha : (w.catalogAt id).aspects[k]? = some a) (hf : (w.aspectAt a).facets[n]? = some f)
      (ha' : (w.catalogAt id).aspects[k']? = some a') (hf' : (w.aspectAt a').facets[n']? = some f) :
      (⟨⟨k⟩, n⟩ : FacetId) = ⟨⟨k'⟩, n'⟩ :=
    h.facets.inj (Option.bind_eq_some_iff.2 ⟨a, ha, hf⟩) (Option.bind_eq_some_iff.2 ⟨a', ha', hf'⟩)
  refine List.nodup_flatMap.2 ⟨fun a ha => ?_, ?_⟩
  · obtain ⟨k, hk⟩ := Array.mem_iff_getElem?.1 (Array.mem_toList_iff.1 ha)
    refine List.nodup_iff_getElem?_ne_getElem?.2 fun n n' hlt hn' heq => ?_
    rw [List.getElem?_eq_getElem hn'] at heq
    have hsame := hinj hk ((Array.getElem?_toList).symm.trans heq) hk
      ((Array.getElem?_toList).symm.trans (List.getElem?_eq_getElem hn'))
    exact Nat.ne_of_lt hlt (congrArg FacetId.number hsame)
  · refine List.pairwise_iff_getElem.2 fun k k' hk hk' hlt => List.disjoint_left.2 ?_
    intro f hf hf'
    obtain ⟨n, hn⟩ := Array.mem_iff_getElem?.1 (Array.mem_toList_iff.1 hf)
    obtain ⟨n', hn'⟩ := Array.mem_iff_getElem?.1 (Array.mem_toList_iff.1 hf')
    have hsame := hinj ((Array.getElem?_toList).symm.trans (List.getElem?_eq_getElem hk)) hn
      ((Array.getElem?_toList).symm.trans (List.getElem?_eq_getElem hk')) hn'
    exact Nat.ne_of_lt hlt (congrArg (fun F => F.aspect.number) hsame)

/-- Only facets are changed on the way. -/
theorem foldl_forgetAt (w : Workspace) (i : Nat) (fs : List FacetRef) :
    (fs.foldl (forgetAt i) w).catalogs = w.catalogs ∧
      (fs.foldl (forgetAt i) w).aspects = w.aspects := by
  induction fs generalizing w with
  | nil => exact ⟨rfl, rfl⟩
  | cons f fs ih => exact ih (forgetAt i w f)

theorem readFacet_foldl_forgetAt {fs : List FacetRef} (hnodup : fs.Nodup)
    (hlt : ∀ f ∈ fs, f.address < w.facets.size) (g : FacetRef) :
    (fs.foldl (forgetAt i) w).readFacet g =
      if g ∈ fs then (w.readFacet g).forget i else w.readFacet g := by
  induction fs generalizing w with
  | nil => rfl
  | cons f fs ih =>
    obtain ⟨hnot, hnodup⟩ := List.nodup_cons.1 hnodup
    obtain ⟨hf, hfs⟩ := List.forall_mem_cons.1 hlt
    have hsize (f' : FacetRef) (hf' : f' ∈ fs) : f'.address < (forgetAt i w f).facets.size := by
      rw [forgetAt, putFacet, Array.size_modify]
      exact hfs f' hf'
    rw [List.foldl_cons, ih hnodup hsize, forgetAt, readFacet_putFacet hf]
    rcases eq_or_ne g f with rfl | hne
    · rw [if_pos rfl, if_neg hnot, if_pos List.mem_cons_self]
    · simp only [hne, List.mem_cons, false_or, if_false]

/-- **An index is taken from the facets of one catalog only**, and from all of them. -/
theorem forget_becomes (h : w.WellOwned) (hc : w.catalogOf? id = some c) (i : Nat) :
    w.Becomes id (c.forget i) (w.forget id i) := by
  have hwellOwned : (w.forget id i).WellOwned :=
    List.foldlRecOn (w.facetsOf id) (forgetAt i) h fun _ h' f _ => h'.putFacet f _
  have hread (g : FacetRef) : (w.forget id i).readFacet g =
      if g ∈ w.facetsOf id then (w.readFacet g).forget i else w.readFacet g := by
    refine readFacet_foldl_forgetAt (h.nodup_facetsOf id) (fun f hf => ?_) g
    obtain ⟨F, hF⟩ := mem_facetsOf.1 hf
    exact h.facets.lies hF
  obtain ⟨hcatalogs, haspects⟩ := w.foldl_forgetAt i (w.facetsOf id)
  refine becomes_of_facets hc hwellOwned hcatalogs haspects rfl (c.titles_forget i) (fun F => ?_)
    fun other hne G g hg => ?_
  · rw [Catalog.facetOf?_forget, facetOf?_of_catalogOf? hc, facetOf?]
    rcases hF : w.facetRef? id F with _ | f
    · rfl
    · rw [Option.map_some, Option.map_some, Option.map_some, hread, if_pos (mem_facetsOf.2 ⟨F, hF⟩)]
  · rw [hread, if_neg]
    intro hmem
    obtain ⟨F, hF⟩ := mem_facetsOf.1 hmem
    exact h.facets.ne_of_ne hF hg hne rfl

end Forget

/-! ### Adding an aspect -/

section AddAspect

variable {cell : AspectCell}

theorem self_addAspect (w : Workspace) (id : CatalogId) (cell : AspectCell) (other : CatalogId) :
    ((w.addAspect id cell).catalogAt other).self = (w.catalogAt other).self :=
  apply_getD_modify CatalogCell.self fun _ => rfl

theorem registryOf_addAspect (w : Workspace) (id : CatalogId) (cell : AspectCell)
    (other : CatalogId) : (w.addAspect id cell).registryOf other = w.registryOf other :=
  apply_getD_modify CatalogCell.registry fun _ => rfl

theorem aspects_addAspect (hlt : id.number < w.catalogs.size) (cell : AspectCell) :
    ((w.addAspect id cell).catalogAt id).aspects =
      (w.catalogAt id).aspects.push ⟨w.aspects.size⟩ :=
  congrArg CatalogCell.aspects (getD_modify_self hlt _)

theorem aspectRef?_addAspect (hlt : id.number < w.catalogs.size) (cell : AspectCell)
    (other : CatalogId) (B : AspectId) :
    (w.addAspect id cell).aspectRef? other B =
      if other = id ∧ B = ⟨(w.catalogAt id).aspects.size⟩ then some ⟨w.aspects.size⟩
      else w.aspectRef? other B := by
  rcases eq_or_ne other id with rfl | hne
  · rw [aspectRef?, aspects_addAspect hlt, Array.getElem?_push]
    rcases eq_or_ne B ⟨(w.catalogAt other).aspects.size⟩ with rfl | hB
    · rw [if_pos rfl, if_pos ⟨rfl, rfl⟩]
    · rw [if_neg fun heq => hB (congrArg AspectId.mk heq), if_neg fun heq => hB heq.2, aspectRef?]
  · rw [if_neg fun heq => hne heq.1, aspectRef?, catalogAt, addAspect,
      getD_modify_of_ne (number_ne hne)]
    rfl

/-- The identifier of the next aspect stands for nothing yet. -/
theorem aspectRef?_next (w : Workspace) (id : CatalogId) :
    w.aspectRef? id ⟨(w.catalogAt id).aspects.size⟩ = none :=
  Array.getElem?_eq_none (Nat.le_refl _)

theorem aspectAt_addAspect {a : AspectRef} (hlt : a.address < w.aspects.size) (id : CatalogId)
    (cell : AspectCell) : (w.addAspect id cell).aspectAt a = w.aspectAt a :=
  getD_push_of_lt hlt cell

theorem aspectAt_addAspect_new (w : Workspace) (id : CatalogId) (cell : AspectCell) :
    (w.addAspect id cell).aspectAt ⟨w.aspects.size⟩ = cell :=
  getD_push_size cell

/-- A new aspect comes without facets. -/
theorem facetRef?_addAspect (h : w.WellOwned) (hlt : id.number < w.catalogs.size)
    (hempty : cell.facets = #[]) (other : CatalogId) (F : FacetId) :
    (w.addAspect id cell).facetRef? other F = w.facetRef? other F := by
  rw [facetRef?, aspectRef?_addAspect hlt, facetRef?]
  split
  · next heq =>
    rw [heq.1, heq.2, aspectRef?_next, Option.bind_some, aspectAt_addAspect_new, hempty]
    exact Array.getElem?_empty
  · rcases ha : w.aspectRef? other F.aspect with _ | a
    · rfl
    · rw [Option.bind_some, Option.bind_some, aspectAt_addAspect (h.aspects.lies ha)]

theorem WellOwned.addAspect (h : w.WellOwned) (hlt : id.number < w.catalogs.size)
    (hempty : cell.facets = #[]) (howner : cell.owner = id) : (w.addAspect id cell).WellOwned where
  self_eq {other} hother := by
    rw [Workspace.addAspect, Array.size_modify] at hother
    rw [self_addAspect, h.self_eq hother]
  aspects := by
    refine h.aspects.of_new (aspectRef?_addAspect hlt cell) (Nat.lt_irrefl _) (fun b hb => ?_) ?_
      (fun b hb => ?_) ?_
    · exact lt_size_push (Nat.le_of_lt hb) cell
    · exact lt_size_push (Nat.le_refl _) cell
    · rw [aspectAt_addAspect hb]
    · rw [aspectAt_addAspect_new, howner]
  facets := h.facets.of_same (facetRef?_addAspect h hlt hempty) (fun _ hf => hf) fun _ _ => rfl

/-- **An aspect is added to one catalog only.** -/
theorem addAspect_becomes (h : w.WellOwned) (hc : w.catalogOf? id = some c)
    (name displayName : String) :
    w.Becomes id { c with aspects := c.aspects.push { name, displayName } }
      (w.addAspect id { name, displayName, owner := (w.catalogAt id).self }) := by
  obtain ⟨hlt, howner, htitles, hfacets⟩ := catalogOf?_eq_some_iff.1 hc
  refine ⟨h.addAspect hlt rfl (h.self_eq hlt), catalogOf?_eq_some_iff.2 ⟨?_, ?_, ?_, fun F => ?_⟩,
    fun other hne => catalogOf?_frame ?_ (fun A a ha => ?_) fun _ _ _ => rfl⟩
  · rwa [addAspect, Array.size_modify]
  · rw [registryOf_addAspect, ← howner]
  · rw [aspects_addAspect hlt, Array.map_push, Array.map_push, htitles, titleAt,
      aspectAt_addAspect_new]
    refine congrArg (Array.push · _) (Array.map_congr_left fun a ha => ?_)
    obtain ⟨k, hk⟩ := Array.mem_iff_getElem?.1 ha
    have hA : w.aspectRef? id ⟨k⟩ = some a := hk
    rw [titleAt, titleAt, aspectAt_addAspect (h.aspects.lies hA)]
  · rw [Catalog.facetOf?_pushAspect, hfacets, facetOf?, facetOf?, facetRef?_addAspect h hlt rfl]
    rfl
  · rw [addAspect, Array.getElem?_modify, if_neg (number_ne hne)]
  · exact aspectAt_addAspect (h.aspects.lies ha) ..

end AddAspect

/-! ### Adding a facet -/

section AddFacet

variable {A : AspectId} {a : AspectRef}

theorem aspectAt_addFacet (hlt : a.address < w.aspects.size) (cell : FacetCell) :
    (w.addFacet a cell).aspectAt a =
      { w.aspectAt a with facets := (w.aspectAt a).facets.push ⟨w.facets.size⟩ } :=
  getD_modify_self hlt _

theorem aspectAt_addFacet_of_ne {b : AspectRef} (hne : b ≠ a) (cell : FacetCell) :
    (w.addFacet a cell).aspectAt b = w.aspectAt b :=
  getD_modify_of_ne (fun he => hne (congrArg AspectRef.mk he.symm)) _

theorem facetAt_addFacet {f : FacetRef} (hlt : f.address < w.facets.size) (a : AspectRef)
    (cell : FacetCell) : (w.addFacet a cell).facetAt f = w.facetAt f :=
  getD_push_of_lt hlt cell

theorem facetAt_addFacet_new (w : Workspace) (a : AspectRef) (cell : FacetCell) :
    (w.addFacet a cell).facetAt ⟨w.facets.size⟩ = cell :=
  getD_push_size cell

theorem titleAt_addFacet (w : Workspace) (a : AspectRef) (cell : FacetCell) (b : AspectRef) :
    (w.addFacet a cell).titleAt b = w.titleAt b :=
  apply_getD_modify (fun cell : AspectCell => (cell.name, cell.displayName)) fun _ => rfl

theorem owner_addFacet (w : Workspace) (a : AspectRef) (cell : FacetCell) (b : AspectRef) :
    ((w.addFacet a cell).aspectAt b).owner = (w.aspectAt b).owner :=
  apply_getD_modify AspectCell.owner fun _ => rfl

/-- **A facet is added to one aspect only.** -/
theorem facetRef?_addFacet (h : w.WellOwned) (ha : w.aspectRef? id A = some a) (cell : FacetCell)
    (other : CatalogId) (G : FacetId) :
    (w.addFacet a cell).facetRef? other G =
      if other = id ∧ G = ⟨A, (w.aspectAt a).facets.size⟩ then some ⟨w.facets.size⟩
      else w.facetRef? other G := by
  rw [facetRef?, facetRef?]
  change (w.aspectRef? other G.aspect).bind _ = _
  rcases hb : w.aspectRef? other G.aspect with _ | b
  · rw [if_neg]
    · rfl
    · rintro ⟨rfl, rfl⟩
      rw [ha] at hb
      cases hb
  · rw [Option.bind_some, Option.bind_some]
    rcases eq_or_ne b a with rfl | hne
    · -- the aspect is called by one name, and by clients of one catalog
      obtain rfl : other = id := (h.aspects.owner_eq hb).symm.trans (h.aspects.owner_eq ha)
      obtain rfl := h.aspects.inj hb ha
      rw [aspectAt_addFacet (h.aspects.lies ha), Array.getElem?_push]
      rcases eq_or_ne G.number (w.aspectAt b).facets.size with hG | hG
      · rw [if_pos hG, if_pos ⟨rfl, congrArg (FacetId.mk G.aspect) hG⟩]
      · rw [if_neg hG, if_neg fun heq => hG (congrArg FacetId.number heq.2)]
    · rw [aspectAt_addFacet_of_ne hne, if_neg]
      rintro ⟨rfl, rfl⟩
      exact hne (Option.some.inj (hb.symm.trans ha))

theorem WellOwned.addFacet (h : w.WellOwned) (ha : w.aspectRef? id A = some a) {cell : FacetCell}
    (howner : cell.owner = id) : (w.addFacet a cell).WellOwned where
  self_eq := h.self_eq
  aspects := h.aspects.of_same (fun _ _ => rfl)
    (fun b hb => by rwa [Workspace.addFacet, Array.size_modify])
    fun b _ => w.owner_addFacet a cell b
  facets := by
    refine h.facets.of_new (facetRef?_addFacet h ha cell) (Nat.lt_irrefl _) (fun f hf => ?_) ?_
      (fun f hf => ?_) ?_
    · exact lt_size_push (Nat.le_of_lt hf) cell
    · exact lt_size_push (Nat.le_refl _) cell
    · rw [facetAt_addFacet hf]
    · rw [facetAt_addFacet_new, howner]

theorem addFacet_becomes (h : w.WellOwned) (hc : w.catalogOf? id = some c)
    (ha : w.aspectRef? id A = some a) (name displayName : String) (capacity : Nat) :
    w.Becomes id (c.putAspect A ((w.readAspect a).addFacet name displayName capacity))
      (w.addFacet a
        ⟨⟨name, displayName, (w.aspectAt a).name, .zeros capacity⟩, (w.aspectAt a).owner⟩) := by
  have hA : c.aspectOf? A = some (w.readAspect a) := by
    rw [aspectOf?_of_catalogOf? hc, ha, Option.map_some]
  obtain ⟨hlt, howner, htitles, hfacets⟩ := catalogOf?_eq_some_iff.1 hc
  refine ⟨h.addFacet ha (h.aspects.owner_eq ha),
    catalogOf?_eq_some_iff.2 ⟨hlt, howner, ?_, fun G => ?_⟩,
    fun other hne => catalogOf?_frame rfl (fun B b hb => ?_) fun G g hg => ?_⟩
  · have htitle : ((w.readAspect a).addFacet name displayName capacity).title =
        (w.readAspect a).title := rfl
    rw [Catalog.titles_putAspect hA _ htitle, htitles]
    exact Array.map_congr_left fun b _ => (w.titleAt_addFacet a _ b).symm
  · rw [Catalog.facetOf?_addFacet hA, hfacets, facetOf?, facetOf?, facetRef?_addFacet h ha,
      show (w.readAspect a).facets.size = (w.aspectAt a).facets.size from Array.size_map]
    rcases eq_or_ne G ⟨A, (w.aspectAt a).facets.size⟩ with rfl | hG
    · rw [if_pos rfl, if_pos ⟨rfl, rfl⟩, Option.map_some, readFacet, facetAt_addFacet_new]
      rfl
    · rw [if_neg hG, if_neg fun heq => hG heq.2]
      rcases hg : w.facetRef? id G with _ | g
      · rfl
      · rw [Option.map_some, Option.map_some, readFacet, readFacet,
          facetAt_addFacet (h.facets.lies hg)]
  · exact aspectAt_addFacet_of_ne (h.aspects.ne_of_ne ha hb hne) _
  · rw [readFacet, facetAt_addFacet (h.facets.lies hg), readFacet]

end AddFacet

/-! ### Opening a catalog -/

section Open

variable (config : Config)

theorem catalogAt_openCatalog (hlt : id.number < w.catalogs.size) :
    (w.openCatalog config).2.catalogAt id = w.catalogAt id :=
  getD_push_of_lt hlt _

theorem catalogAt_openCatalog_new (w : Workspace) :
    (w.openCatalog config).2.catalogAt (w.openCatalog config).1 =
      { self := (w.openCatalog config).1 } :=
  getD_push_size _

theorem aspectRef?_openCatalog (w : Workspace) (id : CatalogId) (A : AspectId) :
    (w.openCatalog config).2.aspectRef? id A = w.aspectRef? id A :=
  congrArg (·[A.number]?) (apply_getD_push CatalogCell.aspects rfl)

theorem WellOwned.openCatalog (h : w.WellOwned) : (w.openCatalog config).2.WellOwned where
  self_eq {id} hid := by
    rcases Nat.lt_succ_iff_lt_or_eq.1 (Array.size_push .. ▸ hid) with hlt | heq
    · rw [catalogAt_openCatalog config hlt, h.self_eq hlt]
    · obtain rfl : id = (w.openCatalog config).1 := congrArg CatalogId.mk heq
      rw [catalogAt_openCatalog_new]
  aspects := h.aspects.of_same (w.aspectRef?_openCatalog config) (fun _ ha => ha) fun _ _ => rfl
  facets := h.facets.of_same
    (fun id F => congrArg (Option.bind · _) (w.aspectRef?_openCatalog config id F.aspect))
    (fun _ hf => hf) fun _ _ => rfl

/-- The identifier of the catalog to be opened next stands for nothing yet. -/
theorem catalogOf?_next (w : Workspace) : w.catalogOf? (w.openCatalog config).1 = none := by
  rw [catalogOf?, openCatalog, Array.getElem?_eq_none (Nat.le_refl _), Option.map_none]

theorem catalogOf?_opened (w : Workspace) :
    (w.openCatalog config).2.catalogOf? (w.openCatalog config).1 = some (.create config) := by
  rw [catalogOf?, openCatalog, Array.getElem?_push_size, Option.map_some, Array.map_empty]
  rfl

/-- Opening one more catalog leaves the others alone. -/
theorem catalogOf?_openCatalog (hc : w.catalogOf? id = some c) :
    (w.openCatalog config).2.catalogOf? id = some c := by
  rw [← hc]
  refine catalogOf?_frame ?_ (fun _ _ _ => rfl) fun _ _ _ => rfl
  rw [openCatalog, Array.getElem?_push, if_neg (Nat.ne_of_lt (lt_of_catalogOf? hc))]

end Open

end FacetIndex.Workspace
