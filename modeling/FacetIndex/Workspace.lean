import FacetIndex.Change

/-!
# Workspaces: several catalogs in one memory

The catalogs of a workspace, their aspects and their facets lie side by side in one
memory, and whoever holds a reference can follow it. A catalog refers to its aspects,
and an aspect to its facets. The other way round, every aspect and every facet stores
the catalog that it was created in, as its owner, and this is all that ties it to a
catalog:

* a new facet takes its owner from the aspect, and covers the capacity of this owner;
* writing a facet asks the owner that the facet stores for its registry;
* dropping a catalog makes its registry go away, so that the owner stored in an aspect
  or a facet leads to nothing.

Removing an item goes the first way: the index is taken from every facet that the
catalog refers to through its aspects.

Clients call an aspect by its place in its catalog, and a facet by its place in its
aspect (`FacetIndex.AspectId`, `FacetIndex.FacetId`); the names are looked up first
(`FacetIndex.Workspace.aspectRef?`, `FacetIndex.Workspace.facetRef?`), and what is
requested is then done through the reference alone. A catalog goes on listing its
aspects after it was dropped, as its clients go on holding them.

What a catalog amounts to, with everything that it refers to, is read out of the memory
by `FacetIndex.Workspace.catalogOf?`. A request does to it what the same request does to a
catalog by itself (`FacetIndex.Workspace.request_mirrors`), so that what is known of
`FacetIndex.Catalog.serveAll` and `FacetIndex.Catalog.run` is known of it.
-/

namespace FacetIndex

/-- Tells a catalog from the others of its workspace: how many were opened before
it. -/
structure CatalogId where
  number : Nat
  deriving DecidableEq, Repr

/-- Where an aspect lies in the memory. -/
structure AspectRef where
  address : Nat
  deriving DecidableEq, Repr

/-- Where a facet lies in the memory. -/
structure FacetRef where
  address : Nat
  deriving DecidableEq, Repr

/-- An aspect in the memory. -/
structure AspectCell where
  /-- The name, by which the aspect is found in its catalog. -/
  name : String
  /-- The name to be shown. -/
  displayName : String
  /-- The catalog that the aspect was created in. -/
  owner : CatalogId
  /-- The facets, in the order of their creation. -/
  facets : Array FacetRef := #[]

/-- A facet in the memory. -/
structure FacetCell where
  /-- Its names and its bits. -/
  facet : Facet
  /-- The catalog that the facet was created in. -/
  owner : CatalogId

/-- A catalog in the memory. -/
structure CatalogCell where
  /-- The reference to itself, which it gives to its aspects. -/
  self : CatalogId
  /-- The items; none once the catalog is dropped. -/
  registry : Option Registry := some .empty
  /-- The aspects, in the order of their creation. -/
  aspects : Array AspectRef := #[]

instance : Inhabited AspectCell := ⟨{ name := "", displayName := "", owner := ⟨0⟩ }⟩

instance : Inhabited FacetCell := ⟨⟨⟨"", "", "", .empty⟩, ⟨0⟩⟩⟩

instance : Inhabited CatalogCell := ⟨⟨⟨0⟩, none, #[]⟩⟩

/-- The memory of several catalogs. -/
structure Workspace where
  /-- The catalogs, in the order of their opening. -/
  catalogs : Array CatalogCell := #[]
  /-- The aspects of all catalogs. -/
  aspects : Array AspectCell := #[]
  /-- The facets of all aspects. -/
  facets : Array FacetCell := #[]

namespace Workspace

instance : Inhabited Workspace := ⟨{}⟩

/-! ### Following references -/

/-- The catalog that is referred to. -/
def catalogAt (w : Workspace) (id : CatalogId) : CatalogCell := w.catalogs[id.number]?.getD default

/-- The aspect that is referred to. -/
def aspectAt (w : Workspace) (a : AspectRef) : AspectCell := w.aspects[a.address]?.getD default

/-- The facet that is referred to. -/
def facetAt (w : Workspace) (f : FacetRef) : FacetCell := w.facets[f.address]?.getD default

/-- The registry of an owner, if the catalog is still there. -/
def registryOf (w : Workspace) (owner : CatalogId) : Option Registry := (w.catalogAt owner).registry

/-- The names and the bits of a facet. -/
def readFacet (w : Workspace) (f : FacetRef) : Facet := (w.facetAt f).facet

/-- An aspect together with its facets. -/
def readAspect (w : Workspace) (a : AspectRef) : Aspect :=
  let cell := w.aspectAt a
  ⟨cell.name, cell.displayName, cell.facets.map w.readFacet⟩

/-- A catalog together with all that it refers to. -/
def catalogOf? (w : Workspace) (id : CatalogId) : Option Catalog :=
  w.catalogs[id.number]?.map fun cell => ⟨cell.registry, cell.aspects.map w.readAspect⟩

/-! ### Looking up names -/

/-- The aspect that a client of a catalog calls by this identifier. -/
def aspectRef? (w : Workspace) (id : CatalogId) (aspect : AspectId) : Option AspectRef :=
  (w.catalogAt id).aspects[aspect.number]?

/-- The facet that a client of a catalog calls by this identifier. -/
def facetRef? (w : Workspace) (id : CatalogId) (facet : FacetId) : Option FacetRef :=
  (w.aspectRef? id facet.aspect).bind fun a => (w.aspectAt a).facets[facet.number]?

/-! ### Catalogs -/

/-- Opens one more catalog. -/
def openCatalog (w : Workspace) (_config : Config := {}) : CatalogId × Workspace :=
  let self : CatalogId := ⟨w.catalogs.size⟩
  (self, { w with catalogs := w.catalogs.push { self } })

/-- The memory with the registry of a catalog replaced, or gone. -/
def putRegistry (w : Workspace) (id : CatalogId) (registry : Option Registry) : Workspace :=
  { w with catalogs := w.catalogs.modify id.number fun cell => { cell with registry } }

/-- The index of an item, which is made live if it is not. -/
def upsert (w : Workspace) (id : CatalogId) (item : String) : Except Error (Nat × Workspace) := do
  let (i, r) := (← requireOwner (w.registryOf id)).upsert item
  return (i, w.putRegistry id (some r))

/-- The memory with a facet replaced. Its owner stays. -/
def putFacet (w : Workspace) (f : FacetRef) (facet : Facet) : Workspace :=
  { w with facets := w.facets.modify f.address fun cell => { cell with facet } }

/-- Takes index `i` from a facet. -/
def forgetAt (i : Nat) (w : Workspace) (f : FacetRef) : Workspace :=
  w.putFacet f ((w.readFacet f).forget i)

/-- The facets that a catalog refers to, through its aspects. -/
def facetsOf (w : Workspace) (id : CatalogId) : List FacetRef :=
  (w.catalogAt id).aspects.toList.flatMap fun a => (w.aspectAt a).facets.toList

/-- Takes index `i` from one facet of a catalog after the other. -/
def forget (w : Workspace) (id : CatalogId) (i : Nat) : Workspace :=
  (w.facetsOf id).foldl (forgetAt i) w

/-- Removes an item from the registry of a catalog and from every facet of the catalog,
and tells whether it was live. -/
def remove (w : Workspace) (id : CatalogId) (item : String) : Except Error (Bool × Workspace) := do
  match (← requireOwner (w.registryOf id)).remove? item with
  | none => return (false, w)
  | some (i, r) => return (true, (w.putRegistry id (some r)).forget id i)

/-- The memory with one more aspect, which a catalog refers to. -/
def addAspect (w : Workspace) (id : CatalogId) (aspect : AspectCell) : Workspace :=
  { w with
    catalogs := w.catalogs.modify id.number fun cell =>
      { cell with aspects := cell.aspects.push ⟨w.aspects.size⟩ }
    aspects := w.aspects.push aspect }

/-- Creates an aspect that belongs to a catalog, unless the name is taken there. -/
def newAspect (w : Workspace) (id : CatalogId) (name displayName : String) :
    Except (AlreadyExists AspectId) AspectId × Workspace :=
  let cell := w.catalogAt id
  match cell.aspects.findIdx? fun a => (w.aspectAt a).name == name with
  | some k => (.error ⟨name, ⟨k⟩⟩, w)
  | none => (.ok ⟨cell.aspects.size⟩, w.addAspect id { name, displayName, owner := cell.self })

/-! ### Aspects and facets -/

/-- The memory with one more facet, which an aspect refers to. -/
def addFacet (w : Workspace) (a : AspectRef) (facet : FacetCell) : Workspace :=
  { w with
    aspects := w.aspects.modify a.address fun cell =>
      { cell with facets := cell.facets.push ⟨w.facets.size⟩ }
    facets := w.facets.push facet }

/-- Creates a facet in an aspect, unless the name is taken there. The facet belongs to
the owner of the aspect, and covers the indexes that this catalog made so far. -/
def newFacet (w : Workspace) (a : AspectRef) (name displayName : String) :
    Except (AlreadyExists Nat) Nat × Workspace :=
  let cell := w.aspectAt a
  match cell.facets.findIdx? fun f => (w.readFacet f).name == name with
  | some k => (.error ⟨name, k⟩, w)
  | none =>
    let bits := .zeros (domainOf (w.registryOf cell.owner))
    (.ok cell.facets.size, w.addFacet a ⟨⟨name, displayName, cell.name, bits⟩, cell.owner⟩)

/-- Replaces a facet by what `change` makes of it, given the registry of its owner. -/
def writeFacet (w : Workspace) (f : FacetRef)
    (change : Facet → Option Registry → Except Error Facet) : Except Error Workspace := do
  let cell := w.facetAt f
  return w.putFacet f (← change cell.facet (w.registryOf cell.owner))

/-! ### Changes -/

/-- Creates an aspect if the catalog is still there. -/
def applyNewAspect (w : Workspace) (id : CatalogId) (name displayName : String)
    (outcome : Except (AlreadyExists AspectId) AspectId → Outcome) : Outcome × Workspace :=
  settle w outcome do
    let _ ← requireOwner (w.registryOf id)
    return w.newAspect id name displayName

/-- Creates a facet in the aspect of this identifier, which may be an orphan. -/
def applyNewFacet (w : Workspace) (id : CatalogId) (aspect : AspectId) (name displayName : String)
    (outcome : Except (AlreadyExists FacetId) FacetId → Outcome) : Outcome × Workspace :=
  match w.aspectRef? id aspect with
  | some a =>
    let (created, w) := w.newFacet a name displayName
    (outcome (renameCreated (⟨aspect, ·⟩) created), w)
  | none => (.unknown, w)

/-- Writes the facet of this identifier. -/
def applyWrite (w : Workspace) (id : CatalogId) (facet : FacetId)
    (change : Facet → Option Registry → Except Error Facet) : Outcome × Workspace :=
  match w.facetRef? id facet with
  | some f => settle w (fun _ => .written) ((w.writeFacet f change).map ((), ·))
  | none => (.unknown, w)

/-- Makes a change happen to a catalog that was opened. -/
def perform (w : Workspace) (id : CatalogId) : Change → Outcome × Workspace
  | .upsert item => settle w .index (w.upsert id item)
  | .remove item => settle w .removed (w.remove id item)
  | .newAspect name displayName => w.applyNewAspect id name displayName .ofNewAspect
  | .ensureAspect name => w.applyNewAspect id name name (.aspect <| orExisting ·)
  | .newFacet aspect name displayName => w.applyNewFacet id aspect name displayName .ofNewFacet
  | .ensureFacet aspect name => w.applyNewFacet id aspect name name (.facet <| orExisting ·)
  | .setIndex facet i => w.applyWrite id facet (·.setIndex? · i)
  | .setItem facet item => w.applyWrite id facet (·.setItem? · item)
  | .unsetIndex facet i => w.applyWrite id facet (·.unsetIndex? · i)
  | .unsetItem facet item => w.applyWrite id facet (·.unsetItem? · item)
  | .drop => settle w (fun _ => .dropped) do
    let _ ← requireOwner (w.registryOf id)
    return ((), w.putRegistry id none)

/-- Makes a change happen, to a catalog, to one of its aspects or to one of its
facets. -/
def apply (w : Workspace) (id : CatalogId) (change : Change) : Outcome × Workspace :=
  if id.number < w.catalogs.size then w.perform id change else (.unknown, w)

end Workspace

end FacetIndex
