/-!
# Free lists: indexes handed back

A free list keeps the indexes that were handed back, the last one in front. The
index taken out is always the one handed back last, so that the indexes in use stay
packed toward zero and bitmaps over them stay short.
-/

namespace FacetIndex

/-- Indexes handed back, the last one first. -/
structure FreeList where
  /-- The indexes. -/
  indexes : List Nat := []
  deriving DecidableEq, Repr

namespace FreeList

/-- The free list without an index. -/
def empty : FreeList := {}

instance : Inhabited FreeList := ⟨empty⟩

/-- Hands back an index. -/
def push (f : FreeList) (i : Nat) : FreeList := ⟨i :: f.indexes⟩

/-- Takes out the index handed back last. `none` says that a fresh one is needed. -/
def pop? (f : FreeList) : Option (Nat × FreeList) :=
  match f.indexes with
  | [] => none
  | i :: rest => some (i, ⟨rest⟩)

/-- How many indexes there are. -/
def size (f : FreeList) : Nat := f.indexes.length

/-- There is no index. -/
def isEmpty (f : FreeList) : Bool := f.indexes.isEmpty

/-! ### Last in, first out -/

@[simp] theorem pop?_push (f : FreeList) (i : Nat) : (f.push i).pop? = some (i, f) := rfl

@[simp] theorem size_push (f : FreeList) (i : Nat) : (f.push i).size = f.size + 1 := rfl

theorem pop?_eq_none_iff (f : FreeList) : f.pop? = none ↔ f.isEmpty := by
  obtain ⟨_ | ⟨i, rest⟩⟩ := f <;> simp [pop?, isEmpty]

/-- What comes out went in last. -/
theorem eq_push_of_pop? {f rest : FreeList} {i : Nat} (h : f.pop? = some (i, rest)) :
    f = rest.push i := by
  obtain ⟨_ | ⟨j, tail⟩⟩ := f
  · simp [pop?] at h
  · simp only [pop?, Option.some.injEq, Prod.mk.injEq] at h
    obtain ⟨rfl, rfl⟩ := h
    rfl

end FreeList

end FacetIndex
