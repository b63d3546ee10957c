import FacetIndex.Proofs.Catalog.Effect
import FacetIndex.Proofs.Workspace.Ownership

/-!
# Requests in a workspace

A request is carried out in the memory by following references: a facet looks for its items
in the catalog that it stores as its owner, an aspect asks its owner how many indexes a new
facet covers, and an item that is removed is taken from the facets that the catalog refers
to. By itself, a catalog that is read out of the memory does the same with its own registry
and its own facets.

The two agree where owners are as `FacetIndex.Workspace.WellOwned` has it
(`FacetIndex.Workspace.request_mirrors`): the reply is the same, the catalog becomes the
same, no other catalog changes, and the owners stay as they should be. It is proved for one
kind of request after the other; only here the owner that a facet or an aspect stores is
replaced by the catalog that the request was addressed to.
-/

namespace FacetIndex.Workspace

variable {w : Workspace} {id : CatalogId} {c : Catalog}

/-! ### Carrying out a change -/

/-- What was done in the memory is what the catalog does by itself: the reply is the same, and
the catalog becomes the same. -/
structure Mirrors {α : Type} (w : Workspace) (id : CatalogId) (done : α × Workspace)
    (alone : α × Catalog) : Prop where
  reply : done.1 = alone.1
  becomes : w.Becomes id alone.2 done.2

/-- So it is if something may be refused: both refuse it, for the same cause. -/
inductive MirrorsExcept {α : Type} (w : Workspace) (id : CatalogId) :
    Except Error (α × Workspace) → Except Error (α × Catalog) → Prop
  | refused (cause : Error) : MirrorsExcept w id (.error cause) (.error cause)
  | granted {done : α × Workspace} {alone : α × Catalog} (h : w.Mirrors id done alone) :
    MirrorsExcept w id (.ok done) (.ok alone)

section Change

variable (h : w.WellOwned) (hc : w.catalogOf? id = some c)
include h hc

theorem Mirrors.same {α : Type} (reply : α) : w.Mirrors id (reply, w) (reply, c) :=
  ⟨rfl, .refl h hc⟩

theorem MirrorsExcept.settle {α : Type} {done : Except Error (α × Workspace)}
    {alone : Except Error (α × Catalog)} (hsame : w.MirrorsExcept id done alone)
    (outcome : α → Outcome) :
    w.Mirrors id (settle w outcome done) (settle c outcome alone) := by
  cases hsame with
  | refused cause => exact Mirrors.same h hc _
  | granted hdone => exact ⟨congrArg outcome hdone.reply, hdone.becomes⟩

omit h in
/-- What asks for the items is refused by both once the catalog is dropped. -/
theorem MirrorsExcept.bind_registry {α : Type} {next : Registry → Except Error (α × Workspace)}
    {nextAlone : Registry → Except Error (α × Catalog)}
    (hsame : ∀ r, w.MirrorsExcept id (next r) (nextAlone r)) :
    w.MirrorsExcept id (requireOwner (w.registryOf id) >>= next) (c.registry >>= nextAlone) := by
  rw [Catalog.registry, owner_of_catalogOf? hc]
  rcases requireOwner (w.registryOf id) with cause | r
  · exact .refused cause
  · exact hsame r

theorem upsert_mirrors (item : String) : w.MirrorsExcept id (w.upsert id item) (c.upsert item) :=
  .bind_registry hc fun _ => .granted ⟨rfl, putRegistry_becomes h hc _⟩

theorem remove_mirrors (item : String) : w.MirrorsExcept id (w.remove id item) (c.remove item) := by
  refine .bind_registry hc fun r => ?_
  rcases r.remove? item with _ | ⟨i, r'⟩
  · exact .granted (.same h hc false)
  · have hput := putRegistry_becomes h hc (some r')
    exact .granted ⟨rfl, hput.trans (forget_becomes hput.wellOwned hput.own i)⟩

theorem drop_mirrors : w.MirrorsExcept id
    (do let _ ← requireOwner (w.registryOf id); return ((), w.putRegistry id none))
    (do let _ ← c.registry; return ((), c.drop)) :=
  .bind_registry hc fun _ => .granted ⟨rfl, putRegistry_becomes h hc none⟩

theorem newAspect_mirrors (name displayName : String) :
    w.Mirrors id (w.newAspect id name displayName) (c.newAspect name displayName) := by
  have hfind : c.findAspect? name =
      ((w.catalogAt id).aspects.findIdx? fun a => (w.aspectAt a).name == name).map (⟨·⟩) := by
    rw [Catalog.findAspect?, aspects_of_catalogOf? hc, Array.findIdx?_map]
    rfl
  simp only [newAspect]
  rcases hk : (w.catalogAt id).aspects.findIdx? fun a => (w.aspectAt a).name == name with _ | k
  · rw [hk] at hfind
    rw [Catalog.newAspect_of_new hfind]
    refine ⟨?_, addAspect_becomes h hc name displayName⟩
    rw [aspects_of_catalogOf? hc, Array.size_map]
  · rw [hk] at hfind
    rw [Catalog.newAspect_of_taken hfind]
    exact .same h hc _

theorem applyNewAspect_mirrors (name displayName : String)
    (outcome : Except (AlreadyExists AspectId) AspectId → Outcome) :
    w.Mirrors id (w.applyNewAspect id name displayName outcome)
      (c.applyNewAspect name displayName outcome) := by
  refine MirrorsExcept.settle h hc (.bind_registry hc fun _ => ?_) outcome
  exact .granted (newAspect_mirrors h hc name displayName)

theorem applyNewFacet_mirrors (A : AspectId) (name displayName : String)
    (outcome : Except (AlreadyExists FacetId) FacetId → Outcome) :
    w.Mirrors id (w.applyNewFacet id A name displayName outcome)
      (c.applyNewFacet A name displayName outcome) := by
  rcases ha : w.aspectRef? id A with _ | a
  · have hA : c.aspectOf? A = none := by rw [aspectOf?_of_catalogOf? hc, ha, Option.map_none]
    rw [applyNewFacet, ha, Catalog.applyNewFacet_of_unknown hA]
    exact .same h hc _
  · have hA : c.aspectOf? A = some (w.readAspect a) := by
      rw [aspectOf?_of_catalogOf? hc, ha, Option.map_some]
    have hfind : (w.readAspect a).find? name =
        (w.aspectAt a).facets.findIdx? fun f => (w.readFacet f).name == name :=
      Array.findIdx?_map
    simp only [applyNewFacet, ha, newFacet]
    rcases hk : (w.aspectAt a).facets.findIdx? fun f => (w.readFacet f).name == name with _ | k
    · rw [Catalog.applyNewFacet_of_some (Catalog.newFacet_of_new hA (hfind.trans hk) displayName)]
      -- the capacity is that of the owner which the aspect stores
      have hcapacity : domainOf (w.registryOf (w.aspectAt a).owner) = c.domain := by
        rw [h.aspects.owner_eq ha, Catalog.domain, owner_of_catalogOf? hc]
      have hsize : (w.readAspect a).facets.size = (w.aspectAt a).facets.size := Array.size_map
      rw [hcapacity, hsize]
      exact ⟨rfl, addFacet_becomes h hc ha name displayName c.domain⟩
    · rw [Catalog.applyNewFacet_of_some (Catalog.newFacet_of_taken hA (hfind.trans hk) displayName)]
      exact .same h hc _

theorem applyWrite_mirrors (F : FacetId)
    (change : Facet → Option Registry → Except Error Facet) :
    w.Mirrors id (w.applyWrite id F change) (c.applyWrite F change) := by
  rw [applyWrite, Catalog.applyWrite, Catalog.changeFacet, facetOf?_of_catalogOf? hc, facetOf?]
  rcases hf : w.facetRef? id F with _ | f
  · exact Mirrors.same h hc _
  · refine MirrorsExcept.settle h hc ?_ _
    rw [writeFacet, h.facets.owner_eq hf, owner_of_catalogOf? hc]
    change w.MirrorsExcept id
      (Except.map _ (change (w.readFacet f) (w.registryOf id) >>= _))
      (Except.map _ (change (w.readFacet f) (w.registryOf id) >>= _))
    rcases change (w.readFacet f) (w.registryOf id) with cause | facet
    · exact .refused cause
    · exact .granted ⟨rfl, putFacet_becomes h hc hf facet⟩

theorem apply_mirrors (change : Change) : w.Mirrors id (w.apply id change) (c.apply change) := by
  rw [apply, if_pos (lt_of_catalogOf? hc)]
  cases change with
  | upsert item => exact (upsert_mirrors h hc item).settle h hc _
  | remove item => exact (remove_mirrors h hc item).settle h hc _
  | newAspect | ensureAspect => exact applyNewAspect_mirrors h hc ..
  | newFacet A name displayName => exact applyNewFacet_mirrors h hc A name displayName _
  | ensureFacet A name => exact applyNewFacet_mirrors h hc A name name (.facet <| orExisting ·)
  | setIndex | setItem | unsetIndex | unsetItem => exact applyWrite_mirrors h hc ..
  | drop => exact (drop_mirrors h hc).settle h hc _

/-! ### Answering a question -/

theorem askFacet_eq {F : FacetId} {f : FacetRef} (hf : w.facetRef? id F = some f)
    (question : FacetQuestion) :
    w.askFacet f question = (w.readFacet f).answer c.owner question := by
  rw [askFacet, h.facets.owner_eq hf, owner_of_catalogOf? hc]
  rfl

/-- **A question is answered by the catalog that it is asked of.** -/
theorem answer_eq (question : Question) : w.answer id question = c.answer question := by
  cases question with
  | ofRegistry | aspect | aspects => simp only [answer, hc, Option.elim_some]
  | ofAspect A question =>
    rw [answer, Catalog.answer, aspectOf?_of_catalogOf? hc, Option.elim_map]
    rfl
  | ofFacet F question =>
    rw [answer, Catalog.answer, facetOf?_of_catalogOf? hc, facetOf?, Option.elim_map]
    rcases hf : w.facetRef? id F with _ | f
    · rfl
    · exact askFacet_eq h hc hf question
  | combine combination F G =>
    rw [answer, Catalog.answer, facetOf?_of_catalogOf? hc, facetOf?_of_catalogOf? hc]

/-- **A request is carried out and answered by the catalog that it is made to.** -/
theorem request_mirrors (requested : Request) :
    w.Mirrors id (w.request id requested) (c.serve requested) := by
  cases requested with
  | change change =>
    obtain ⟨hreply, hbecomes⟩ := apply_mirrors h hc change
    exact ⟨congrArg Reply.outcome hreply, hbecomes⟩
  | ask question =>
    rw [request, answer_eq h hc]
    exact .same h hc _

end Change

end FacetIndex.Workspace
