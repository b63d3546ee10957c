import FacetIndex.Proofs.Catalog.Clean
import FacetIndex.Proofs.Facet.Holders
import FacetIndex.Proofs.Roster.Basic

/-!
# A catalog answers as its roster does

The roster of `FacetIndex.Roster` describes a catalog (`FacetIndex.Roster.Describes`) if
the catalog is clean, has the live items of the roster, and each of its facets stands for
the holders of the roster. A change of the catalog and the same change of the roster keep
it so (`FacetIndex.Roster.Describes.apply`), and by induction so does every history. What
was removed and what index it had is nowhere in a roster; so nothing that a catalog
answers can depend on it, and in particular no item inherits a property through an index
that it holds after another.

Each write of a facet is settled together with its outcome, since both go through the same
cases: an item that is live or not, an index that is in use, free, or was never made.
-/

namespace FacetIndex

namespace Catalog

variable {c : Catalog} {r : Registry}

/-! ### What the roster is shown -/

theorem holder?_of_item (hr : c.owner = some r) {item : String} {i : Nat}
    (hi : r.slots[i]? = some (some item)) : c.holder? i = some item := by
  rw [holder?, hr, Option.bind_some, Registry.itemAt_eq_ok_iff.2 hi]
  rfl

theorem holder?_of_free (hr : c.owner = some r) {i : Nat}
    (hi : ∀ item, r.slots[i]? ≠ some (some item)) : c.holder? i = none := by
  rw [holder?, hr, Option.bind_some]
  rcases h : r.itemAt i with _ | item
  · rfl
  · exact absurd (Registry.itemAt_eq_ok_iff.1 h) (hi item)

theorem nextFacet?_of_unknown {id : AspectId} (ha : c.aspectOf? id = none) (name : String) :
    c.nextFacet? id name = none := by
  simp only [nextFacet?, newFacet, ha, Option.map_none, Option.bind_none]

theorem nextFacet?_of_taken {id : AspectId} {a : Aspect} (ha : c.aspectOf? id = some a)
    {name : String} {k : Nat} (hk : a.find? name = some k) : c.nextFacet? id name = none := by
  rw [nextFacet?, newFacet_of_taken ha hk]
  rfl

theorem nextFacet?_of_new {id : AspectId} {a : Aspect} (ha : c.aspectOf? id = some a)
    {name : String} (hnew : a.find? name = none) :
    c.nextFacet? id name = some ⟨id, a.facets.size⟩ := by
  rw [nextFacet?, newFacet_of_new ha hnew]
  rfl

end Catalog

namespace Roster

/-- **The roster describes the catalog.** -/
structure Describes (m : Roster) (c : Catalog) (r : Registry) : Prop where
  clean : c.Clean r
  live : ∀ item, item ∈ m.live ↔ r.contains item = true
  holders : ∀ F f, c.facetOf? F = some f → f.HeldBy r (m.holders F)

variable {m : Roster} {c : Catalog} {r r' : Registry} {F : FacetId} {f f' : Facet}
  {item : String} {i : Nat} {holders : Finset String}

theorem describes_create (config : Config) :
    Roster.empty.Describes (Catalog.create config) .empty where
  clean := Catalog.clean_create config
  live item := by
    rw [Registry.contains_iff]
    refine iff_of_false (Finset.notMem_empty item) ?_
    rintro ⟨i, hi⟩
    rw [Registry.consistent_empty.inverse item i] at hi
    cases hi
  holders F f hF := by
    rw [Catalog.facetOf?_create] at hF
    cases hF

namespace Describes

theorem mem_live (h : m.Describes c r) (hi : r.indexes[item]? = some i) : item ∈ m.live :=
  (h.live item).2 (Registry.contains_iff.2 ⟨i, hi⟩)

theorem notMem_live (h : m.Describes c r) (hi : r.indexes[item]? = none) : item ∉ m.live := by
  rw [h.live, Registry.contains_iff]
  rintro ⟨i, hsome⟩
  rw [hi] at hsome
  cases hsome

/-! ### Writing a facet -/

/-- Replacing a facet and its holders. -/
theorem put (h : m.Describes c r) (hF : c.facetOf? F = some f) (hclean : f'.Clean r)
    (hheld : f'.HeldBy r holders) : (m.put F holders).Describes (c.putFacet F f') r where
  clean := h.clean.putFacet hF hclean
  live := h.live
  holders G g hG := by
    rw [Catalog.facetOf?_putFacet hF] at hG
    rw [holders_put]
    split at hG
    · next heq =>
      obtain rfl := Option.some.inj hG
      rw [if_pos heq]
      exact hheld
    · next hne =>
      rw [if_neg hne]
      exact h.holders G g hG

/-- Of a facet that is not there the roster may say anything. -/
theorem put_of_unknown (h : m.Describes c r) (hF : c.facetOf? F = none)
    (holders : Finset String) : (m.put F holders).Describes c r where
  clean := h.clean
  live := h.live
  holders G g hG := by
    rw [holders_put]
    split
    · next heq =>
      rw [heq, hF] at hG
      cases hG
    · exact h.holders G g hG

theorem give_of_unknown (h : m.Describes c r) (hF : c.facetOf? F = none)
    (item? : Option String) : (item?.elim m (m.give F)).Describes c r := by
  rcases item? with _ | item
  · exact h
  · rw [Option.elim_some, give]
    split
    · exact h.put_of_unknown hF _
    · exact h

theorem take_of_unknown (h : m.Describes c r) (hF : c.facetOf? F = none)
    (item? : Option String) : (item?.elim m (m.take F)).Describes c r := by
  rcases item? with _ | item
  · exact h
  · rw [Option.elim_some, take]
    split
    · exact h.put_of_unknown hF _
    · exact h

theorem mark (h : m.Describes c r) (hF : c.facetOf? F = some f) (hi : r.indexes[item]? = some i) :
    (m.give F item).Describes (c.putFacet F (f.mark i)) r := by
  have hclean := h.clean.facets F f hF
  rw [give_of_live (h.mem_live hi)]
  exact h.put hF (hclean.mark (h.clean.consistent.slot_of_indexes hi))
    ((h.holders F f hF).mark h.clean.consistent hclean.canonical hi)

theorem unmark (h : m.Describes c r) (hF : c.facetOf? F = some f)
    (hi : r.indexes[item]? = some i) :
    (m.take F item).Describes (c.putFacet F (f.unmark i)) r := by
  have hclean := h.clean.facets F f hF
  rw [take_of_live (h.mem_live hi)]
  exact h.put hF (hclean.unmark (Registry.lt_capacity (h.clean.consistent.slot_of_indexes hi)))
    ((h.holders F f hF).unmark h.clean.consistent hclean.canonical hi)

/-- Writing a zero at a free index is not noticed by the roster. -/
theorem unmark_free (h : m.Describes c r) (hF : c.facetOf? F = some f)
    (hi : r.slots[i]? = some none) : m.Describes (c.putFacet F (f.unmark i)) r := by
  have hclean := h.clean.facets F f hF
  have hfree : ∀ item, r.slots[i]? ≠ some (some item) := fun item hitem => by
    rw [hi] at hitem
    cases hitem
  have hput := h.put hF (hclean.unmark (Registry.lt_capacity hi))
    ((h.holders F f hF).unmark_free h.clean.consistent hclean.canonical hfree)
  rwa [Roster.put, Function.update_eq_self] at hput

/-! ### One write -/

section Write

variable (h : m.Describes c r) (hr : c.owner = some r) (hF : c.facetOf? F = some f)
  (hroom : r.capacity ≤ maxIndex)

include h hr hF hroom

theorem setItem (item : String) :
    (c.apply (.setItem F item)).1 =
        (if item ∈ m.live then .written else .refused (.itemNotFound item)) ∧
      (m.give F item).Describes (c.apply (.setItem F item)).2 r := by
  rcases hi : r.indexes[item]? with _ | i
  · have habsent := h.notMem_live hi
    rw [Catalog.apply_setItem_of_absent hr hF hi, give_of_absent habsent, if_neg habsent]
    exact ⟨rfl, h⟩
  · have hlt := Registry.lt_capacity (h.clean.consistent.slot_of_indexes hi)
    rw [Catalog.apply_setItem_of_live hr hF hi (Nat.lt_of_lt_of_le hlt hroom),
      if_pos (h.mem_live hi)]
    exact ⟨rfl, h.mark hF hi⟩

theorem unsetItem (item : String) :
    (c.apply (.unsetItem F item)).1 =
        (if item ∈ m.live then .written else .refused (.itemNotFound item)) ∧
      (m.take F item).Describes (c.apply (.unsetItem F item)).2 r := by
  rcases hi : r.indexes[item]? with _ | i
  · have habsent := h.notMem_live hi
    rw [Catalog.apply_unsetItem_of_absent hr hF hi, take_of_absent habsent, if_neg habsent]
    exact ⟨rfl, h⟩
  · have hlt := Registry.lt_capacity (h.clean.consistent.slot_of_indexes hi)
    rw [Catalog.apply_unsetItem_of_live hr hF hi (Nat.lt_of_lt_of_le hlt hroom),
      if_pos (h.mem_live hi)]
    exact ⟨rfl, h.unmark hF hi⟩

theorem setIndex (i : Nat) :
    (c.apply (.setIndex F i)).1 =
        (if i < r.capacity then
          if (c.holder? i).isSome then .written else .refused (.indexNotFound i)
        else .refused (.indexOutOfRange i r.capacity)) ∧
      ((c.holder? i).elim m (m.give F)).Describes (c.apply (.setIndex F i)).2 r := by
  rcases r.slot_cases i with ⟨item, hi⟩ | hi | ⟨hi, hle⟩
  · have hlt := Registry.lt_capacity hi
    rw [Catalog.holder?_of_item hr hi, if_pos hlt,
      Catalog.apply_setIndex_of_item hr hF hi (Nat.lt_of_lt_of_le hlt hroom)]
    exact ⟨rfl, h.mark hF (h.clean.consistent.indexes_of_slot hi)⟩
  -- At a free index, and at one that was never made, nobody is given anything.
  · rw [Catalog.holder?_of_free hr (by simp [hi]), if_pos (Registry.lt_capacity hi),
      Catalog.apply_setIndex_of_vacant hr hF hi]
    exact ⟨rfl, h⟩
  · rw [Catalog.holder?_of_free hr (by simp [hi]), if_neg (Nat.not_lt.2 hle),
      Catalog.apply_setIndex_of_le hr hF hle]
    exact ⟨rfl, h⟩

/-- A zero can be written at a free index too. Nobody held the property there. -/
theorem unsetIndex (i : Nat) :
    (c.apply (.unsetIndex F i)).1 =
        (if i < r.capacity then .written else .refused (.indexOutOfRange i r.capacity)) ∧
      ((c.holder? i).elim m (m.take F)).Describes (c.apply (.unsetIndex F i)).2 r := by
  rcases r.slot_cases i with ⟨item, hi⟩ | hi | ⟨hi, hle⟩
  · have hlt := Registry.lt_capacity hi
    rw [Catalog.holder?_of_item hr hi, if_pos hlt,
      Catalog.apply_unsetIndex_of_lt hr hF hlt (Nat.lt_of_lt_of_le hlt hroom)]
    exact ⟨rfl, h.unmark hF (h.clean.consistent.indexes_of_slot hi)⟩
  · have hlt := Registry.lt_capacity hi
    rw [Catalog.holder?_of_free hr (by simp [hi]), if_pos hlt,
      Catalog.apply_unsetIndex_of_lt hr hF hlt (Nat.lt_of_lt_of_le hlt hroom)]
    exact ⟨rfl, h.unmark_free hF hi⟩
  · rw [Catalog.holder?_of_free hr (by simp [hi]), if_neg (Nat.not_lt.2 hle),
      Catalog.apply_unsetIndex_of_le hr hF hle]
    exact ⟨rfl, h⟩

end Write

/-! ### Items that come and go -/

/-- **An item that is made live is enrolled**, and no facet is touched. -/
theorem upsert (h : m.Describes c r) (hr : c.owner = some r) (item : String)
    (hr' : (c.apply (.upsert item)).2.owner = some r') :
    (m.enroll item).Describes (c.apply (.upsert item)).2 r' := by
  have hclean := h.clean.apply hr hr'
  rcases hi : r.indexes[item]? with _ | i
  · have ha := h.clean.consistent.admits_upsert hi
    rw [Catalog.apply_upsert hr] at hclean hr' ⊢
    obtain rfl : (r.upsert item).2 = r' := Option.some.inj hr'
    refine ⟨hclean, fun other => ?_, fun G g hG =>
      (h.holders G g hG).of_admits (h.clean.facets G g hG) hi ha⟩
    rw [enroll, Finset.mem_insert, h.live, ha.contains_iff]
  · rw [Catalog.apply_upsert_of_live hr hi] at hclean hr' ⊢
    obtain rfl := Catalog.owner_inj hr hr'
    rw [enroll, Finset.insert_eq_self.2 (h.mem_live hi)]
    exact h

/-- **An item that is removed is struck** from the live ones and from all holders. -/
theorem remove (h : m.Describes c r) (hr : c.owner = some r) (item : String)
    (hr' : (c.apply (.remove item)).2.owner = some r') :
    (c.apply (.remove item)).1 = .removed (decide (item ∈ m.live)) ∧
      (m.strike item).Describes (c.apply (.remove item)).2 r' := by
  have hclean := h.clean.apply hr hr'
  rcases hi : r.indexes[item]? with _ | i
  · have habsent := h.notMem_live hi
    rw [Catalog.apply_remove_of_absent hr hi] at hclean hr' ⊢
    obtain rfl := Catalog.owner_inj hr hr'
    -- The item held nothing, so striking it changes nothing.
    refine ⟨congrArg _ (decide_eq_false habsent).symm, h.clean, fun other => ?_,
      fun G g hG => ?_⟩
    · rw [strike, Finset.erase_eq_of_notMem habsent, h.live]
    · have hheld := h.holders G g hG
      have hlacks : item ∉ m.holders G :=
        fun hmem => habsent ((h.live item).2 (hheld.contains hmem))
      rw [holders_strike, Finset.erase_eq_of_notMem hlacks]
      exact hheld
  · have hlive := h.mem_live hi
    rw [Catalog.apply_remove_of_live hr hi] at hclean hr' ⊢
    obtain rfl : r.vacate item i = r' := Option.some.inj hr'
    refine ⟨congrArg _ (decide_eq_true hlive).symm, hclean, fun other => ?_, fun G g hG => ?_⟩
    · rw [strike, Finset.mem_erase, h.live, Registry.contains_vacate_iff]
    · rw [Catalog.facetOf?_forget, Catalog.facetOf?_withRegistry] at hG
      obtain ⟨g₀, hg₀, rfl⟩ := Option.map_eq_some_iff.1 hG
      exact (h.holders G g₀ hg₀).forget_vacate h.clean.consistent
        (h.clean.facets G g₀ hg₀).canonical hi

/-! ### Aspects and facets that are created -/

/-- A new aspect shows up in no roster. -/
theorem newAspect (h : m.Describes c r) (hr : c.owner = some r) (name displayName : String)
    (outcome : Except (AlreadyExists AspectId) AspectId → Outcome) :
    m.Describes (c.applyNewAspect name displayName outcome).2 r := by
  rw [Catalog.applyNewAspect_eq hr]
  rw [Catalog.newAspect]
  split
  · exact h
  · refine ⟨⟨h.clean.consistent, fun G g hG => ?_⟩, h.live, fun G g hG => ?_⟩
    all_goals rw [Catalog.facetOf?_pushAspect] at hG
    · exact h.clean.facets G g hG
    · exact h.holders G g hG

/-- **A new facet has no holders.** -/
theorem newFacet (h : m.Describes c r) (hr : c.owner = some r) (id : AspectId)
    (name displayName : String) (outcome : Except (AlreadyExists FacetId) FacetId → Outcome) :
    ((c.nextFacet? id name).elim m fun F => m.put F ∅).Describes
      (c.applyNewFacet id name displayName outcome).2 r := by
  rcases ha : c.aspectOf? id with _ | a
  · rw [Catalog.nextFacet?_of_unknown ha, Catalog.applyNewFacet_of_unknown ha]
    exact h
  · rcases hname : a.find? name with _ | k
    · rw [Catalog.nextFacet?_of_new ha hname,
        Catalog.applyNewFacet_of_some (Catalog.newFacet_of_new ha hname displayName)]
      refine ⟨h.clean.of_effect (.addFacet ha displayName hname) hr hr, h.live, ?_⟩
      intro G g hG
      rw [Catalog.facetOf?_addFacet ha] at hG
      rw [Option.elim_some, holders_put]
      split at hG
      · next heq =>
        obtain rfl := Option.some.inj hG
        rw [if_pos heq]
        exact Facet.heldBy_zeros name displayName a.name c.domain r
      · next hne =>
        rw [if_neg hne]
        exact h.holders G g hG
    · rw [Catalog.nextFacet?_of_taken ha hname,
        Catalog.applyNewFacet_of_some (Catalog.newFacet_of_taken ha hname displayName)]
      exact h

/-! ### One change -/

/-- **A roster that describes the catalog before a change describes it afterwards.** -/
theorem apply (h : m.Describes c r) (hr : c.owner = some r) (hroom : r.capacity ≤ maxIndex)
    (change : Change) (hr' : (c.apply change).2.owner = some r') :
    (m.follow c change).Describes (c.apply change).2 r' := by
  -- Only items that come and go change the registry.
  have hsame : (c.apply change).2.owner = c.owner → r = r' := fun howner =>
    Catalog.owner_inj hr (howner.symm.trans hr')
  cases change with
  | upsert item => exact h.upsert hr item hr'
  | remove item => exact (h.remove hr item hr').2
  | newAspect name displayName =>
    obtain rfl := hsame (Catalog.owner_applyNewAspect hr ..)
    exact h.newAspect hr name displayName _
  | ensureAspect name =>
    obtain rfl := hsame (Catalog.owner_applyNewAspect hr ..)
    exact h.newAspect hr name name _
  | newFacet id name displayName =>
    obtain rfl := hsame (Catalog.owner_applyNewFacet ..)
    exact h.newFacet hr id name displayName _
  | ensureFacet id name =>
    obtain rfl := hsame (Catalog.owner_applyNewFacet ..)
    exact h.newFacet hr id name name _
  | setIndex F i =>
    obtain rfl := hsame (Catalog.owner_applyWrite ..)
    rcases hF : c.facetOf? F with _ | f
    · have heq : c.apply (.setIndex F i) = (.unknown, c) := Catalog.applyWrite_of_unknown hF _
      rw [heq]
      exact h.give_of_unknown hF (c.holder? i)
    · exact (h.setIndex hr hF hroom i).2
  | setItem F item =>
    obtain rfl := hsame (Catalog.owner_applyWrite ..)
    rcases hF : c.facetOf? F with _ | f
    · have heq : c.apply (.setItem F item) = (.unknown, c) := Catalog.applyWrite_of_unknown hF _
      rw [heq]
      exact h.give_of_unknown hF (some item)
    · exact (h.setItem hr hF hroom item).2
  | unsetIndex F i =>
    obtain rfl := hsame (Catalog.owner_applyWrite ..)
    rcases hF : c.facetOf? F with _ | f
    · have heq : c.apply (.unsetIndex F i) = (.unknown, c) := Catalog.applyWrite_of_unknown hF _
      rw [heq]
      exact h.take_of_unknown hF (c.holder? i)
    · exact (h.unsetIndex hr hF hroom i).2
  | unsetItem F item =>
    obtain rfl := hsame (Catalog.owner_applyWrite ..)
    rcases hF : c.facetOf? F with _ | f
    · have heq : c.apply (.unsetItem F item) = (.unknown, c) := Catalog.applyWrite_of_unknown hF _
      rw [heq]
      exact h.take_of_unknown hF (some item)
    · exact (h.unsetItem hr hF hroom item).2
  | drop =>
    rw [Catalog.apply_drop hr, Catalog.owner_drop] at hr'
    cases hr'

/-! ### All changes of a history -/

/-- **Induction over the history**: the roster that followed it describes what it left
behind. The capacity never shrinks, so there was room at every change if there is room at
the end. -/
theorem run (h : m.Describes c r) (hr : c.owner = some r) (history : List Change)
    (hr' : (c.run history).2.owner = some r') (hroom : r'.capacity ≤ maxIndex) :
    (m.replay c history).Describes (c.run history).2 r' := by
  induction history generalizing m c r with
  | nil =>
    obtain rfl := Catalog.owner_inj hr hr'
    exact h
  | cons change history ih =>
    have hcapacity := Catalog.capacity_le_run _ hr h.clean.consistent hr'
    rw [Catalog.run_cons] at hr' ⊢
    rcases howner : (c.apply change).2.owner with _ | r₁
    · rw [Catalog.owner_run_of_dropped history howner] at hr'
      cases hr'
    · exact ih (h.apply hr (Nat.le_trans hcapacity hroom) change howner) howner hr'

end Describes

end Roster

end FacetIndex
