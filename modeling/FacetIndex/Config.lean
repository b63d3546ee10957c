import FacetIndex.Layout

/-!
# Configuration of a catalog

A catalog may be told beforehand how many items to make room for. The number is a
hint: it changes no answer. It can be read from a structured document
(`FacetIndex.Config.ofDocument?`), either from an object under its name or from an
array by its place.
-/

namespace FacetIndex

/-- A structured document: scalars, arrays and objects. A number is an integer if
it is written as one. -/
inductive Document where
  | null
  | boolean (value : Bool)
  | integer (value : Int)
  /-- Any other number, as it is written. -/
  | decimal (text : String)
  | text (value : String)
  | array (items : List Document)
  /-- Keys and values; of two values under one key the last one counts. -/
  | object (fields : List (String × Document))
  deriving Inhabited, Repr

namespace Document

/-- The value under a key of an object. -/
def field? (fields : List (String × Document)) (key : String) : Option Document :=
  (fields.reverse.find? (·.1 = key)).map (·.2)

/-- The number that a document stands for, if it is an integer that counts
something: neither negative nor above the largest index. -/
def toCount? : Document → Option Nat
  | .integer n => if 0 ≤ n ∧ n ≤ maxIndex then some n.toNat else none
  | _ => none

end Document

/-- What a catalog is told beforehand. -/
structure Config where
  /-- How many items to make room for. -/
  reserveItems : Nat := 0
  deriving DecidableEq, Repr

namespace Config

/-- The configuration with another number of items to make room for. -/
def withReserveItems (config : Config) (n : Nat) : Config := { config with reserveItems := n }

/-- Reads a configuration. An object gives the number under `reserve_items`, and
other keys are ignored; an array gives it as its only item. The number may be left
out of either. Everything else is refused. -/
def ofDocument? : Document → Option Config
  | .object fields =>
    match Document.field? fields "reserve_items" with
    | none => some {}
    | some value => value.toCount?.map fun n => { reserveItems := n }
  | .array [] => some {}
  | .array [value] => value.toCount?.map fun n => { reserveItems := n }
  | _ => none

end Config

end FacetIndex
