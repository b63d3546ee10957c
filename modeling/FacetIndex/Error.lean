/-!
# Errors: why a request is refused

Every refusal of the library is one of the causes of `FacetIndex.Error`, carried
by the data that its text needs; `FacetIndex.Error.message` is the only place
where a text is made. Creating something under a name that is taken is refused
with the existing value in hand (`FacetIndex.AlreadyExists`), so that a caller
who only wants the value to be there can go on with it.
-/

namespace FacetIndex

/-- The cause of a refusal. -/
inductive Error where
  /-- A bit position or an active length past the end of its domain. -/
  | indexOutOfRange (index len : Nat)
  /-- No live item has this name. -/
  | itemNotFound (item : String)
  /-- No live item holds this index. -/
  | indexNotFound (index : Nat)
  /-- The catalog has no aspect of this name. -/
  | aspectNotFound (aspect : String)
  /-- The aspect has no facet of this name. -/
  | facetNotFound (aspect facet : String)
  /-- The name is taken. -/
  | alreadyExists (name : String)
  /-- The catalog that owns the aspect or facet is gone. -/
  | catalogDropped
  /-- A bitmap that covers this index would have more bits than can be counted. -/
  | noRoom (index : Nat)
  deriving DecidableEq, Repr

/-- The text of a refusal. -/
def Error.message : Error → String
  | .indexOutOfRange index len => s!"index {index} out of range for length {len}"
  | .itemNotFound item => s!"item not found: {item}"
  | .indexNotFound index => s!"no item at index {index}"
  | .aspectNotFound aspect => s!"aspect not found: {aspect}"
  | .facetNotFound aspect facet => s!"facet not found: {aspect}/{facet}"
  | .alreadyExists name => s!"already exists: {name}"
  | .catalogDropped => "cauldron has been dropped"
  | .noRoom index => s!"bit index {index} leaves no room to grow the set"

/-- The refusal to create something under a name that is taken, together with what
the name stands for already. -/
structure AlreadyExists (α : Type) where
  /-- The name that was asked for. -/
  name : String
  /-- What it names. -/
  existing : α
  deriving DecidableEq, Repr

namespace AlreadyExists

variable {α : Type}

/-- The text of the refusal by itself. -/
def message (e : AlreadyExists α) : String := s!"{e.name} already exists"

/-- The refusal without the existing value. -/
def toError (e : AlreadyExists α) : Error := .alreadyExists e.name

end AlreadyExists

/-- What was created, or else what existed under the name. -/
def orExisting {α : Type} : Except (AlreadyExists α) α → α
  | .ok a => a
  | .error e => e.existing

/-- What was created or existed under the name, called differently. -/
def renameCreated {α β : Type} (call : α → β) :
    Except (AlreadyExists α) α → Except (AlreadyExists β) β
  | .ok a => .ok (call a)
  | .error e => .error ⟨e.name, call e.existing⟩

end FacetIndex
