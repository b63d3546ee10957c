import FacetIndex.Catalog

/-!
# Changes: the histories of a catalog

Everything that can happen to a catalog is a `FacetIndex.Change`, and
`FacetIndex.Catalog.apply` makes it happen and gives the `FacetIndex.Outcome`. A
change that is refused leaves the catalog as it was. A history is a list of changes
(`FacetIndex.Catalog.run`); what holds in every state that a catalog can get into
is what holds after every history.

Requests that change nothing are not changes: they are functions of the catalog, of
its registry and of its facets.
-/

namespace FacetIndex

/-- Something that can happen to a catalog. -/
inductive Change where
  /-- Makes an item live. -/
  | upsert (item : String)
  /-- Removes an item. -/
  | remove (item : String)
  /-- Creates an aspect. -/
  | newAspect (name displayName : String)
  /-- Creates an aspect that is shown under its name, or finds it. -/
  | ensureAspect (name : String)
  /-- Creates a facet. -/
  | newFacet (aspect : AspectId) (name displayName : String)
  /-- Creates a facet that is shown under its name, or finds it. -/
  | ensureFacet (aspect : AspectId) (name : String)
  /-- Gives a property to the item at an index. -/
  | setIndex (facet : FacetId) (index : Nat)
  /-- Gives a property to an item. -/
  | setItem (facet : FacetId) (item : String)
  /-- Takes a property from an index. -/
  | unsetIndex (facet : FacetId) (index : Nat)
  /-- Takes a property from an item. -/
  | unsetItem (facet : FacetId) (item : String)
  /-- Drops the catalog. -/
  | drop
  deriving DecidableEq, Repr

/-- What came of a change. -/
inductive Outcome where
  /-- The item is live at this index. -/
  | index (i : Nat)
  /-- The item is not live any more; it may not have been before. -/
  | removed (wasLive : Bool)
  /-- The aspect is there. -/
  | aspect (id : AspectId)
  /-- The name of the aspect was taken. -/
  | aspectTaken (refusal : AlreadyExists AspectId)
  /-- The facet is there. -/
  | facet (id : FacetId)
  /-- The name of the facet was taken. -/
  | facetTaken (refusal : AlreadyExists FacetId)
  /-- The facet was written. -/
  | written
  /-- The catalog is dropped. -/
  | dropped
  /-- The change was refused. -/
  | refused (cause : Error)
  /-- The identifier stands for nothing in this catalog. -/
  | unknown
  deriving DecidableEq, Repr

namespace Outcome

/-- The outcome of creating an aspect. -/
def ofNewAspect : Except (AlreadyExists AspectId) AspectId → Outcome
  | .ok id => .aspect id
  | .error refusal => .aspectTaken refusal

/-- The outcome of creating a facet. -/
def ofNewFacet : Except (AlreadyExists FacetId) FacetId → Outcome
  | .ok id => .facet id
  | .error refusal => .facetTaken refusal

end Outcome

/-- Goes on with the state that was made, or with the one before the refusal. -/
def settle {σ α : Type} (before : σ) (outcome : α → Outcome) :
    Except Error (α × σ) → Outcome × σ
  | .ok (a, after) => (outcome a, after)
  | .error cause => (.refused cause, before)

namespace Catalog

/-- Creates an aspect if the catalog is still there. -/
def applyNewAspect (c : Catalog) (name displayName : String)
    (outcome : Except (AlreadyExists AspectId) AspectId → Outcome) : Outcome × Catalog :=
  settle c outcome do
    let _ ← c.registry
    return c.newAspect name displayName

/-- Creates a facet in an aspect, which may be an orphan. -/
def applyNewFacet (c : Catalog) (id : AspectId) (name displayName : String)
    (outcome : Except (AlreadyExists FacetId) FacetId → Outcome) : Outcome × Catalog :=
  match c.newFacet id name displayName with
  | some (created, c') => (outcome created, c')
  | none => (.unknown, c)

/-- Writes a facet. -/
def applyWrite (c : Catalog) (id : FacetId)
    (change : Facet → Option Registry → Except Error Facet) : Outcome × Catalog :=
  match c.changeFacet id change with
  | some written => settle c (fun _ => .written) (written.map ((), ·))
  | none => (.unknown, c)

/-- Makes a change happen. -/
def apply (c : Catalog) : Change → Outcome × Catalog
  | .upsert item => settle c .index (c.upsert item)
  | .remove item => settle c .removed (c.remove item)
  | .newAspect name displayName => c.applyNewAspect name displayName .ofNewAspect
  | .ensureAspect name => c.applyNewAspect name name (.aspect <| orExisting ·)
  | .newFacet id name displayName => c.applyNewFacet id name displayName .ofNewFacet
  | .ensureFacet id name => c.applyNewFacet id name name (.facet <| orExisting ·)
  | .setIndex id i => c.applyWrite id (·.setIndex? · i)
  | .setItem id item => c.applyWrite id (·.setItem? · item)
  | .unsetIndex id i => c.applyWrite id (·.unsetIndex? · i)
  | .unsetItem id item => c.applyWrite id (·.unsetItem? · item)
  | .drop => settle c (fun _ => .dropped) do
    let _ ← c.registry
    return ((), c.drop)

/-- Makes the changes of a history happen one after the other. -/
def run (c : Catalog) : List Change → List Outcome × Catalog
  | [] => ([], c)
  | change :: rest =>
    let (outcome, c) := c.apply change
    let (outcomes, c) := c.run rest
    (outcome :: outcomes, c)

end Catalog

end FacetIndex
