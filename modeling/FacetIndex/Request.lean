import FacetIndex.Workspace

/-!
# Requests: all that a client can say

A request to a catalog, to one of its aspects or to one of its facets is a change
(`FacetIndex.Change`) or a question, and what comes back is a `FacetIndex.Reply`.
`FacetIndex.Catalog.serve` gives the reply and the catalog that is there afterwards; a
question leaves it as it was.

A client of several catalogs makes a `FacetIndex.Call`: it opens one more catalog, makes a
request to one of them, or combines a facet of one with a facet of another
(`FacetIndex.Workspace.serve`). The identifiers in a request say which aspect or facet is
meant, and no more: a facet is then asked by reference, and looks for its items in the
catalog that it stores as its owner (`FacetIndex.Workspace.askFacet`).
-/

namespace FacetIndex

/-! ### Questions -/

/-- How two sets of indexes are joined. -/
inductive Join where
  /-- Indexes of both. -/
  | inter
  /-- Indexes of either. -/
  | union
  /-- Indexes of the first that the second lacks. -/
  | diff
  deriving DecidableEq, Repr

/-- What is asked of two sets of indexes. -/
inductive Combination where
  /-- The joined set. -/
  | set (join : Join)
  /-- How many indexes the joined set has. -/
  | count (join : Join)
  deriving DecidableEq, Repr

/-- What can be asked of the items of a catalog. -/
inductive RegistryQuestion where
  | capacity
  | count
  | items
  | contains (item : String)
  | indexOf (item : String)
  | itemAt (i : Nat)
  | emptySet
  | liveSet
  deriving DecidableEq, Repr

/-- What can be asked of an aspect. -/
inductive AspectQuestion where
  | name
  | displayName
  /-- The facet of this name. -/
  | facet (name : String)
  /-- Whether there is a facet of this name. -/
  | contains (name : String)
  /-- All facets, in the order of their names. -/
  | facets
  deriving DecidableEq, Repr

/-- What can be asked of a facet. -/
inductive FacetQuestion where
  | name
  | displayName
  | aspectName
  | getIndex (i : Nat)
  | getItem (item : String)
  | items
  | count
  | indexes
  /-- A copy of its bits. -/
  | copy
  | complement
  | complementCount
  /-- A combination with a set of indexes. -/
  | combine (combination : Combination) (set : Bitmap)
  /-- The complement of a set over the domain of the facet. -/
  | complementOf (set : Bitmap)
  | complementCountOf (set : Bitmap)
  deriving DecidableEq, Repr

/-- What can be asked of a catalog. -/
inductive Question where
  | ofRegistry (question : RegistryQuestion)
  /-- The aspect of this name. -/
  | aspect (name : String)
  /-- All aspects, in the order of their names. -/
  | aspects
  | ofAspect (aspect : AspectId) (question : AspectQuestion)
  | ofFacet (facet : FacetId) (question : FacetQuestion)
  /-- A combination of two facets. -/
  | combine (combination : Combination) (first second : FacetId)
  deriving DecidableEq, Repr

/-- What can be said to a catalog. -/
inductive Request where
  | change (change : Change)
  | ask (question : Question)
  deriving DecidableEq, Repr

/-- What comes back. -/
inductive Reply where
  /-- What came of a change. -/
  | outcome (outcome : Outcome)
  | number (n : Nat)
  | flag (answer : Bool)
  | text (s : String)
  | item (item : String)
  | items (items : List String)
  | indexes (indexes : List Nat)
  | set (set : Bitmap)
  | aspect (id : AspectId)
  | aspects (ids : List AspectId)
  | facet (id : FacetId)
  | facets (ids : List FacetId)
  | catalog (id : CatalogId)
  /-- The question was refused. -/
  | refused (cause : Error)
  /-- The identifier stands for nothing. -/
  | unknown
  deriving DecidableEq, Repr

/-- The reply to a question that may be refused. -/
def Reply.ofExcept {α : Type} (reply : α → Reply) : Except Error α → Reply
  | .ok a => reply a
  | .error cause => .refused cause

/-! ### Answers -/

namespace Join

/-- The joined set. -/
def set : Join → Bitmap → Bitmap → Bitmap
  | .inter => Bitmap.inter
  | .union => Bitmap.union
  | .diff => Bitmap.diff

/-- How many indexes the joined set has. It is not built. -/
def count : Join → Bitmap → Bitmap → Nat
  | .inter => Bitmap.interCount
  | .union => Bitmap.unionCount
  | .diff => Bitmap.diffCount

end Join

def Combination.answer (s t : Bitmap) : Combination → Reply
  | .set join => .set (join.set s t)
  | .count join => .number (join.count s t)

def Registry.answer (r : Registry) : RegistryQuestion → Reply
  | .capacity => .number r.capacity
  | .count => .number r.count
  | .items => .items r.items
  | .contains item => .flag (r.contains item)
  | .indexOf item => .ofExcept .number (r.indexOf item)
  | .itemAt i => .ofExcept .item (r.itemAt i)
  | .emptySet => .set r.emptySet
  | .liveSet => .set r.liveSet

def Aspect.answer (a : Aspect) (id : AspectId) : AspectQuestion → Reply
  | .name => .text a.name
  | .displayName => .text a.displayName
  | .facet name => .ofExcept (fun k => .facet ⟨id, k⟩) (a.facet? name)
  | .contains name => .flag (a.contains name)
  | .facets => .facets (a.sortedFacets.map fun (_, k) => ⟨id, k⟩)

def Facet.answer (f : Facet) (owner : Option Registry) : FacetQuestion → Reply
  | .name => .text f.name
  | .displayName => .text f.displayName
  | .aspectName => .text f.aspect
  | .getIndex i => .ofExcept .flag (f.getIndex? owner i)
  | .getItem item => .ofExcept .flag (f.getItem? owner item)
  | .items => .ofExcept .items (f.items? owner)
  | .count => .number f.count
  | .indexes => .indexes f.indexes
  | .copy => .set f.bits
  | .complement => .set (f.complement owner)
  | .complementCount => .number (f.complementCount owner)
  | .combine combination set => combination.answer f.bits set
  | .complementOf set => .set (set.complementWithin (domainOf owner))
  | .complementCountOf set => .number (set.complementCountWithin (domainOf owner))

/-- What is asked of two facets, each of which may not be there. -/
def Combination.answerFacets (combination : Combination) : Option Facet → Option Facet → Reply
  | some f, some g => combination.answer f.bits g.bits
  | _, _ => .unknown

namespace Catalog

/-- The answer to a question. The items and the aspects are asked of the catalog itself,
which must be there. -/
def answer (c : Catalog) : Question → Reply
  | .ofRegistry question => .ofExcept (·.answer question) c.registry
  | .aspect name => .ofExcept .aspect do
    let _ ← c.registry
    c.aspect? name
  | .aspects => .ofExcept (fun _ => .aspects (c.sortedAspects.map Prod.snd)) c.registry
  | .ofAspect id question => (c.aspectOf? id).elim .unknown (·.answer id question)
  | .ofFacet id question => (c.facetOf? id).elim .unknown (·.answer c.owner question)
  | .combine combination first second =>
    combination.answerFacets (c.facetOf? first) (c.facetOf? second)

/-- Does what is requested, and replies. -/
def serve (c : Catalog) : Request → Reply × Catalog
  | .change change =>
    let (outcome, c) := c.apply change
    (.outcome outcome, c)
  | .ask question => (c.answer question, c)

/-- Does what is requested, one request after the other. -/
def serveAll (c : Catalog) : List Request → List Reply × Catalog
  | [] => ([], c)
  | request :: rest =>
    let (reply, c) := c.serve request
    let (replies, c) := c.serveAll rest
    (reply :: replies, c)

end Catalog

/-! ### Several catalogs -/

/-- What a client of several catalogs does. -/
inductive Call where
  /-- Opens one more catalog. -/
  | openCatalog (config : Config)
  /-- Makes a request to a catalog. -/
  | request (id : CatalogId) (request : Request)
  /-- Asks for a combination of two facets, each of some catalog. -/
  | combine (combination : Combination) (first second : CatalogId × FacetId)

namespace Workspace

/-- The answer of a facet, given the registry of its owner. -/
def askFacet (w : Workspace) (f : FacetRef) (question : FacetQuestion) : Reply :=
  let cell := w.facetAt f
  cell.facet.answer (w.registryOf cell.owner) question

/-- The facet that a client calls by these identifiers. -/
def facetOf? (w : Workspace) (called : CatalogId × FacetId) : Option Facet :=
  (w.facetRef? called.1 called.2).map w.readFacet

/-- The answer to a question. What is asked of an aspect or of a facet is answered by it;
what is asked of the catalog itself is answered from what it refers to. -/
def answer (w : Workspace) (id : CatalogId) : Question → Reply
  | .ofAspect aspect question =>
    (w.aspectRef? id aspect).elim .unknown fun a => (w.readAspect a).answer aspect question
  | .ofFacet facet question => (w.facetRef? id facet).elim .unknown (w.askFacet · question)
  | .combine combination first second =>
    combination.answerFacets (w.facetOf? (id, first)) (w.facetOf? (id, second))
  | question => (w.catalogOf? id).elim .unknown (·.answer question)

/-- Does what is requested of a catalog, of one of its aspects or of one of its facets, and
replies. -/
def request (w : Workspace) (id : CatalogId) : Request → Reply × Workspace
  | .change change =>
    let (outcome, w) := w.apply id change
    (.outcome outcome, w)
  | .ask question => (w.answer id question, w)

/-- Does what is called for, and replies. -/
def serve (w : Workspace) : Call → Reply × Workspace
  | .openCatalog config =>
    let (id, w) := w.openCatalog config
    (.catalog id, w)
  | .request id request => w.request id request
  | .combine combination first second =>
    (combination.answerFacets (w.facetOf? first) (w.facetOf? second), w)

/-- Does what is called for, one call after the other. -/
def serveAll (w : Workspace) : List Call → List Reply × Workspace
  | [] => ([], w)
  | call :: rest =>
    let (reply, w) := w.serve call
    let (replies, w) := w.serveAll rest
    (reply :: replies, w)

end Workspace

end FacetIndex
