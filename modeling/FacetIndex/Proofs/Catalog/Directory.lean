import FacetIndex.Aspect
import Mathlib.Data.List.Nodup
import Mathlib.Data.String.Basic

/-!
# Finding by name

Aspects and facets are kept in arrays in the order of their creation, found by the first
one that has the name, and listed in the order of the names. As long as no two members
have the same name (`FacetIndex.DistinctNames`), the name and the place of a member are
the same thing: what is found under a name is the only member that has it
(`FacetIndex.DistinctNames.findIdx?_eq_some_iff`), and the listing is strictly ascending
(`FacetIndex.DistinctNames.pairwise_sortedByName`).

Only names matter here. Two arrays that have the same names at the same places find the
same (`FacetIndex.findIdx?_eq_of_names`), whatever else their members hold.
-/

namespace FacetIndex

variable {α : Type} {nameOf : α → String} {members others : Array α} {name : String} {k : Nat}

/-! ### Names and places -/

/-- Arrays with the same names at the same places find the same. -/
theorem findIdx?_eq_of_names (nameOf : α → String)
    (h : ∀ k : Nat, members[k]?.map nameOf = others[k]?.map nameOf) (name : String) :
    members.findIdx? (nameOf · == name) = others.findIdx? (nameOf · == name) := by
  have hmap : members.map nameOf = others.map nameOf :=
    Array.ext_getElem? fun k => by rw [Array.getElem?_map, Array.getElem?_map, h]
  have hfind : ∀ members : Array α,
      (members.map nameOf).findIdx? (· == name) = members.findIdx? (nameOf · == name) :=
    fun members => Array.findIdx?_map
  rw [← hfind, ← hfind, hmap]

/-- What is found under a name has the name. -/
theorem name_of_findIdx? (h : members.findIdx? (nameOf · == name) = some k) :
    members[k]?.map nameOf = some name := by
  obtain ⟨hlt, hname, -⟩ := Array.findIdx?_eq_some_iff_getElem.1 h
  rw [Array.getElem?_eq_getElem hlt, Option.map_some, eq_of_beq hname]

/-- Nothing is found under a name that no member has. -/
theorem findIdx?_eq_none_iff_names :
    members.findIdx? (nameOf · == name) = none ↔ ∀ k : Nat, members[k]?.map nameOf ≠ some name := by
  rw [Array.findIdx?_eq_none_iff]
  constructor
  · intro h k hk
    obtain ⟨a, ha, rfl⟩ := Option.map_eq_some_iff.1 hk
    exact beq_eq_false_iff_ne.1 (h a (Array.mem_of_getElem? ha)) rfl
  · intro h a ha
    obtain ⟨k, hk⟩ := Array.mem_iff_getElem?.1 ha
    rw [beq_eq_false_iff_ne]
    rintro rfl
    exact h k (by rw [hk, Option.map_some])

/-! ### Names that tell members apart -/

/-- No two members have the same name. -/
def DistinctNames (nameOf : α → String) (members : Array α) : Prop :=
  ∀ (j k : Nat) (name : String), members[j]?.map nameOf = some name →
    members[k]?.map nameOf = some name → j = k

/-- **A name and a place are the same thing.** -/
theorem DistinctNames.findIdx?_eq_some_iff (h : DistinctNames nameOf members) :
    members.findIdx? (nameOf · == name) = some k ↔ members[k]?.map nameOf = some name := by
  refine ⟨name_of_findIdx?, fun hk => ?_⟩
  rcases hfind : members.findIdx? (nameOf · == name) with _ | j
  · exact absurd hk (findIdx?_eq_none_iff_names.1 hfind k)
  · rw [h j k name (name_of_findIdx? hfind) hk]

/-! ### The order of the names -/

/-- A listing has every member once, with its place. -/
theorem mem_sortedByName_iff {a : α} :
    (a, k) ∈ sortedByName nameOf members ↔ members[k]? = some a := by
  rw [sortedByName, (List.mergeSort_perm _ _).mem_iff, List.mem_zipIdx_iff_getElem?,
    Array.getElem?_toList]

theorem nodup_sortedByName : (sortedByName nameOf members).Nodup :=
  have hplaces : (members.toList.zipIdx.map Prod.snd).Nodup := by
    rw [List.zipIdx_map_snd]
    exact List.nodup_range'
  (List.mergeSort_perm _ _).nodup_iff.2 (hplaces.of_map Prod.snd)

/-- **A listing is strictly ascending** if the names are distinct. -/
theorem DistinctNames.pairwise_sortedByName (h : DistinctNames nameOf members) :
    ((sortedByName nameOf members).map fun p => nameOf p.1).Pairwise (· < ·) := by
  have htrans : ∀ a b c : α × Nat, decide (nameOf a.1 ≤ nameOf b.1) →
      decide (nameOf b.1 ≤ nameOf c.1) → decide (nameOf a.1 ≤ nameOf c.1) := by
    intro a b c hab hbc
    rw [decide_eq_true_iff] at *
    exact hab.trans hbc
  have htotal : ∀ a b : α × Nat,
      decide (nameOf a.1 ≤ nameOf b.1) || decide (nameOf b.1 ≤ nameOf a.1) := by
    intro a b
    rw [Bool.or_eq_true, decide_eq_true_iff, decide_eq_true_iff]
    exact le_total _ _
  have hsorted : (sortedByName nameOf members).Pairwise fun a b => nameOf a.1 ≤ nameOf b.1 :=
    (List.pairwise_mergeSort htrans htotal _).imp of_decide_eq_true
  rw [List.pairwise_map]
  -- two entries of one name would be at one place, and every place comes once
  refine (hsorted.and nodup_sortedByName).imp_of_mem ?_
  rintro ⟨a, j⟩ ⟨b, k⟩ ha hb ⟨hle, hne⟩
  refine lt_of_le_of_ne hle fun hname => hne ?_
  rw [mem_sortedByName_iff] at ha hb
  obtain rfl := h j k (nameOf a) (by rw [ha]; rfl) (by rw [hb, hname]; rfl)
  rw [ha] at hb
  rw [Option.some.inj hb]

end FacetIndex
