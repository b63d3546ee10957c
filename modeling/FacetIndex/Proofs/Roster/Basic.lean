import FacetIndex.Change
import Mathlib.Data.Finset.Card
import Mathlib.Data.Finset.Insert

/-!
# Rosters: a catalog without indexes

A roster is what a catalog looks like to somebody who knows of no indexes: the set of the
live items, and for every facet the set of its holders. There is nothing in it to keep in
order, and no set depends on what was in another one before.

The roster follows the changes of a catalog (`FacetIndex.Roster.follow`). It is shown the
catalog as it is before the change, for two things only that it cannot know itself: which
item holds an index that a change names, and under which identifier a new facet will be
found. `FacetIndex.Roster.replay` follows a whole history.
-/

namespace FacetIndex

namespace Catalog

/-- The item that holds index `i`. -/
def holder? (c : Catalog) (i : Nat) : Option String :=
  c.owner.bind fun r => (r.itemAt i).toOption

/-- The facet that comes into being when one of this name is asked for. `none` if the name
is taken, or the aspect is not there. -/
def nextFacet? (c : Catalog) (id : AspectId) (name : String) : Option FacetId :=
  (c.newFacet id name name).bind fun (created, _) => created.toOption

end Catalog

/-- The live items, and the holders of every facet. -/
structure Roster where
  live : Finset String
  holders : FacetId → Finset String

namespace Roster

/-- The roster without items and holders. -/
def empty : Roster := ⟨∅, fun _ => ∅⟩

/-- The roster with the holders of one facet replaced. -/
def put (m : Roster) (F : FacetId) (holders : Finset String) : Roster :=
  { m with holders := Function.update m.holders F holders }

/-- Makes an item live. -/
def enroll (m : Roster) (item : String) : Roster := { m with live := insert item m.live }

/-- Takes an item from the live ones and from the holders of every facet. -/
def strike (m : Roster) (item : String) : Roster :=
  ⟨m.live.erase item, fun F => (m.holders F).erase item⟩

/-- Makes a live item a holder. -/
def give (m : Roster) (F : FacetId) (item : String) : Roster :=
  if item ∈ m.live then m.put F (insert item (m.holders F)) else m

/-- Takes a live item from the holders. -/
def take (m : Roster) (F : FacetId) (item : String) : Roster :=
  if item ∈ m.live then m.put F ((m.holders F).erase item) else m

/-- What a change to the catalog does to the roster. -/
def follow (m : Roster) (c : Catalog) : Change → Roster
  | .upsert item => m.enroll item
  | .remove item => m.strike item
  | .newAspect .. | .ensureAspect .. | .drop => m
  | .newFacet id name _ | .ensureFacet id name =>
    (c.nextFacet? id name).elim m fun F => m.put F ∅
  | .setIndex F i => (c.holder? i).elim m (m.give F)
  | .setItem F item => m.give F item
  | .unsetIndex F i => (c.holder? i).elim m (m.take F)
  | .unsetItem F item => m.take F item

/-- The roster that followed a history of the catalog. -/
def replay (m : Roster) (c : Catalog) : List Change → Roster
  | [] => m
  | change :: history => (m.follow c change).replay (c.apply change).2 history

/-! ### What the operations leave -/

variable {m : Roster} {item : String}

theorem holders_put (m : Roster) (F G : FacetId) (holders : Finset String) :
    (m.put F holders).holders G = if G = F then holders else m.holders G :=
  Function.update_apply ..

theorem holders_strike (m : Roster) (item : String) (F : FacetId) :
    (m.strike item).holders F = (m.holders F).erase item :=
  rfl

theorem give_of_live (h : item ∈ m.live) (F : FacetId) :
    m.give F item = m.put F (insert item (m.holders F)) :=
  if_pos h

theorem give_of_absent (h : item ∉ m.live) (F : FacetId) : m.give F item = m := if_neg h

theorem take_of_live (h : item ∈ m.live) (F : FacetId) :
    m.take F item = m.put F ((m.holders F).erase item) :=
  if_pos h

theorem take_of_absent (h : item ∉ m.live) (F : FacetId) : m.take F item = m := if_neg h

end Roster

end FacetIndex
