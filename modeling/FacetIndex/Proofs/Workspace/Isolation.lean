import FacetIndex.Proofs.Workspace.Requests

/-!
# Catalogs do not interfere

Several catalogs share one memory, and the requests to them come in any order. Names mean
nothing across catalogs: the same item, aspect and facet may be called the same in all of
them. What keeps the catalogs apart is that every aspect and every facet stores its owner,
and that no catalog refers to what another one owns (`FacetIndex.Workspace.WellOwned`).

Seen from one catalog, a call is a request to it or is none of its business
(`FacetIndex.Call.requestTo?`). A request is served by the catalog as if it were alone
(`FacetIndex.Workspace.serve_of_requestTo?`); any other call leaves the catalog as it is
(`FacetIndex.Workspace.catalogOf?_serve_of_other`), be it the removal of an item or the drop
of another catalog. By induction on the calls, a catalog answers the requests to it as it
answers these requests in a row, and two runs with the same requests to a catalog give the
same replies to them. One of the two may be the run in which nothing else is called for
(`FacetIndex.callsAlone`).

A combination of facets of two catalogs looks at both, and changes neither: it can be
left out, and the other replies are the same.
-/

namespace FacetIndex

/-! ### The calls of one catalog -/

/-- The request that a call makes to a catalog. -/
def Call.requestTo? (id : CatalogId) : Call → Option Request
  | .openCatalog _ => none
  | .request other requested => if other = id then some requested else none
  | .combine _ _ _ => none

/-- The requests to a catalog among the calls. -/
def requestsTo (id : CatalogId) (calls : List Call) : List Request :=
  calls.filterMap (·.requestTo? id)

/-- The replies to them, among the replies to the calls. -/
def repliesTo (id : CatalogId) (calls : List Call) (replies : List Reply) : List Reply :=
  (calls.zip replies).filterMap fun p => (p.1.requestTo? id).map fun _ => p.2

/-- The calls of a client who opens one catalog, makes these requests to it, and calls for
nothing else. -/
def callsAlone (config : Config) (requests : List Request) : List Call :=
  .openCatalog config :: requests.map (.request ⟨0⟩)

section Calls

variable {id : CatalogId} {call : Call}

theorem requestsTo_cons_of_some {requested : Request} (h : call.requestTo? id = some requested)
    (calls : List Call) : requestsTo id (call :: calls) = requested :: requestsTo id calls :=
  List.filterMap_cons_some h

theorem requestsTo_cons_of_none (h : call.requestTo? id = none) (calls : List Call) :
    requestsTo id (call :: calls) = requestsTo id calls :=
  List.filterMap_cons_none h

theorem repliesTo_cons_of_some {requested : Request} (h : call.requestTo? id = some requested)
    (calls : List Call) (reply : Reply) (replies : List Reply) :
    repliesTo id (call :: calls) (reply :: replies) = reply :: repliesTo id calls replies := by
  rw [repliesTo, List.zip_cons_cons]
  exact List.filterMap_cons_some (congrArg (Option.map fun _ => reply) h)

theorem repliesTo_cons_of_none (h : call.requestTo? id = none) (calls : List Call)
    (reply : Reply) (replies : List Reply) :
    repliesTo id (call :: calls) (reply :: replies) = repliesTo id calls replies := by
  rw [repliesTo, List.zip_cons_cons]
  exact List.filterMap_cons_none (congrArg (Option.map fun _ => reply) h)

theorem requestTo?_request (id : CatalogId) (requested : Request) :
    (Call.request id requested).requestTo? id = some requested :=
  if_pos rfl

theorem requestsTo_map_request (id : CatalogId) (requests : List Request) :
    requestsTo id (requests.map (.request id)) = requests := by
  induction requests with
  | nil => rfl
  | cons request requests ih =>
    rw [List.map_cons, requestsTo_cons_of_some (requestTo?_request id request), ih]

theorem repliesTo_map_request (id : CatalogId) {requests : List Request} {replies : List Reply}
    (hlength : replies.length = requests.length) :
    repliesTo id (requests.map (.request id)) replies = replies := by
  induction requests generalizing replies with
  | nil => exact (List.length_eq_zero_iff.1 hlength).symm
  | cons request requests ih =>
    obtain ⟨reply, replies, rfl⟩ := List.exists_cons_of_length_eq_add_one hlength
    rw [List.map_cons, repliesTo_cons_of_some (requestTo?_request id request),
      ih (Nat.succ.inj hlength)]

end Calls

namespace Workspace

variable {w : Workspace} {id : CatalogId} {c : Catalog} {call : Call}

/-! ### One call -/

/-- A request that names no catalog changes nothing. -/
theorem request_of_none (hnone : w.catalogOf? id = none) (requested : Request) :
    (w.request id requested).2 = w := by
  cases requested with
  | change change =>
    have hge : ¬id.number < w.catalogs.size := by
      intro hlt
      rw [catalogOf?_of_lt hlt] at hnone
      cases hnone
    rw [request, apply, if_neg hge]
  | ask => rfl

/-- **Owners stay as they should be**, whatever is called for. -/
theorem WellOwned.serve (h : w.WellOwned) (call : Call) : (w.serve call).2.WellOwned := by
  cases call with
  | openCatalog config => exact h.openCatalog config
  | request id requested =>
    rcases hc : w.catalogOf? id with _ | c
    · rw [Workspace.serve, request_of_none hc]
      exact h
    · exact (request_mirrors h hc requested).becomes.wellOwned
  | combine => exact h

/-- **A request to a catalog is served by it as if it were alone.** -/
theorem serve_of_requestTo? (h : w.WellOwned) (hc : w.catalogOf? id = some c)
    {requested : Request} (hcall : call.requestTo? id = some requested) :
    w.Mirrors id (w.serve call) (c.serve requested) := by
  cases call with
  | request other requested' =>
    rw [Call.requestTo?, Option.ite_none_right_eq_some] at hcall
    obtain ⟨rfl, heq⟩ := hcall
    obtain rfl := Option.some.inj heq
    exact request_mirrors h hc _
  | openCatalog | combine => cases hcall

/-- **Any other call leaves the catalog as it is.** -/
theorem catalogOf?_serve_of_other (h : w.WellOwned) (hc : w.catalogOf? id = some c)
    (hcall : call.requestTo? id = none) : (w.serve call).2.catalogOf? id = some c := by
  cases call with
  | openCatalog config => exact catalogOf?_openCatalog config hc
  | request other requested =>
    have hne : id ≠ other := by
      rintro rfl
      rw [Call.requestTo?, if_pos rfl] at hcall
      cases hcall
    rw [serve]
    rcases hother : w.catalogOf? other with _ | d
    · rw [request_of_none hother, hc]
    · rw [(request_mirrors h hother requested).becomes.others id hne, hc]
  | combine => exact hc

/-! ### Many calls -/

theorem serveAll_cons (w : Workspace) (call : Call) (calls : List Call) :
    w.serveAll (call :: calls) =
      ((w.serve call).1 :: ((w.serve call).2.serveAll calls).1,
        ((w.serve call).2.serveAll calls).2) :=
  rfl

/-- Calls can be stopped anywhere and gone on with. -/
theorem serveAll_append (w : Workspace) (before after : List Call) :
    w.serveAll (before ++ after) =
      ((w.serveAll before).1 ++ ((w.serveAll before).2.serveAll after).1,
        ((w.serveAll before).2.serveAll after).2) := by
  induction before generalizing w with
  | nil => rfl
  | cons call before ih =>
    rw [List.cons_append, serveAll_cons, serveAll_cons, ih, List.cons_append]

theorem length_serveAll (w : Workspace) (calls : List Call) :
    (w.serveAll calls).1.length = calls.length := by
  induction calls generalizing w with
  | nil => rfl
  | cons call calls ih => rw [serveAll_cons, List.length_cons, ih, List.length_cons]

theorem WellOwned.serveAll (h : w.WellOwned) (calls : List Call) :
    (w.serveAll calls).2.WellOwned := by
  induction calls generalizing w with
  | nil => exact h
  | cons call calls ih => exact ih (h.serve call)

/-- **Whatever else is called for, a catalog gives the replies that it gives by itself**, and
becomes what it becomes by itself. -/
theorem serveAll_eq_alone (h : w.WellOwned) (hc : w.catalogOf? id = some c) (calls : List Call) :
    repliesTo id calls (w.serveAll calls).1 = (c.serveAll (requestsTo id calls)).1 ∧
      (w.serveAll calls).2.catalogOf? id = some (c.serveAll (requestsTo id calls)).2 := by
  induction calls generalizing w c with
  | nil => exact ⟨rfl, hc⟩
  | cons call calls ih =>
    -- a call that is none of its business leaves it as it is, wherever it has got to
    rw [serveAll_cons]
    rcases hcall : call.requestTo? id with _ | requested
    · rw [requestsTo_cons_of_none hcall, repliesTo_cons_of_none hcall]
      exact ih (h.serve call) (catalogOf?_serve_of_other h hc hcall)
    · obtain ⟨hreply, hnext⟩ := serve_of_requestTo? h hc hcall
      obtain ⟨hreplies, hlast⟩ := ih hnext.wellOwned hnext.own
      rw [requestsTo_cons_of_some hcall, repliesTo_cons_of_some hcall, hreply, hreplies]
      exact ⟨rfl, hlast⟩

/-- The run in which one catalog is opened and nothing but these requests to it is called
for. -/
theorem serveAll_callsAlone (config : Config) (requests : List Request) :
    ∃ final, ({} : Workspace).serveAll (callsAlone config requests) =
        (.catalog ⟨0⟩ :: ((Catalog.create config).serveAll requests).1, final) ∧
      final.catalogOf? ⟨0⟩ = some ((Catalog.create config).serveAll requests).2 := by
  obtain ⟨w, hw⟩ : ∃ w, (({} : Workspace).openCatalog config).2 = w := ⟨_, rfl⟩
  have hc : w.catalogOf? ⟨0⟩ = some (.create config) := hw ▸ catalogOf?_opened config {}
  have howned : w.WellOwned := hw ▸ WellOwned.empty.openCatalog config
  obtain ⟨hreplies, hlast⟩ := serveAll_eq_alone howned hc (requests.map (.request ⟨0⟩))
  rw [requestsTo_map_request] at hreplies hlast
  rw [repliesTo_map_request _ (by rw [length_serveAll, List.length_map])] at hreplies
  refine ⟨_, ?_, hlast⟩
  rw [callsAlone, serveAll_cons, ← hreplies, ← hw]
  rfl

/-- **Catalogs do not interfere.** In any run of calls, take any catalog that is opened in
its course; so it is for each of two or more of them. Its identifier is new, and whatever is
called for afterwards, of this catalog and of others, dropping any of them included, the
requests to it get the replies that they get in the run in which nothing else is called for;
these are the replies of a catalog that is by itself, and it is left in the same state. A
combination of two facets, of one catalog or of two, can be put in anywhere: it is answered
from the bits that the two have then, and all other replies are the same, before and after
it. All the while, whatever a catalog refers to stores this catalog as its owner. -/
theorem isolation_of_run :
    (∀ before config after, ∃ id earlier later final,
        ({} : Workspace).serveAll (before ++ .openCatalog config :: after) =
          (earlier ++ .catalog id :: later, final) ∧
        earlier.length = before.length ∧
        (({} : Workspace).serveAll before).2.catalogOf? id = none ∧
        (∃ finalAlone,
          ({} : Workspace).serveAll (callsAlone config (requestsTo id after)) =
            (.catalog ⟨0⟩ :: repliesTo id after later, finalAlone) ∧
          final.catalogOf? id = finalAlone.catalogOf? ⟨0⟩) ∧
        repliesTo id after later =
          ((Catalog.create config).serveAll (requestsTo id after)).1 ∧
        final.catalogOf? id =
          some ((Catalog.create config).serveAll (requestsTo id after)).2) ∧
      (∀ before combination first second after, ∃ earlier reply later final,
        ({} : Workspace).serveAll (before ++ .combine combination first second :: after) =
          (earlier ++ reply :: later, final) ∧
        earlier.length = before.length ∧
        reply = combination.answerFacets ((({} : Workspace).serveAll before).2.facetOf? first)
          ((({} : Workspace).serveAll before).2.facetOf? second) ∧
        ({} : Workspace).serveAll (before ++ after) = (earlier ++ later, final)) ∧
      ∀ calls, (({} : Workspace).serveAll calls).2.WellOwned := by
  refine ⟨fun before config after => ?_, fun before combination first second after => ?_,
    WellOwned.empty.serveAll⟩
  · obtain ⟨w, hw⟩ : ∃ w, (({} : Workspace).serveAll before).2 = w := ⟨_, rfl⟩
    have howned : w.WellOwned := hw ▸ WellOwned.empty.serveAll before
    obtain ⟨hreplies, hlast⟩ :=
      serveAll_eq_alone (howned.openCatalog config) (w.catalogOf?_opened config) after
    obtain ⟨finalAlone, halone, hlastAlone⟩ :=
      serveAll_callsAlone config (requestsTo (w.openCatalog config).1 after)
    refine ⟨(w.openCatalog config).1, _, _, _, ?_, ({} : Workspace).length_serveAll before, ?_,
      ⟨finalAlone, ?_, ?_⟩, hreplies, hlast⟩
    · rw [serveAll_append, serveAll_cons, hw]
      rfl
    · rw [hw, catalogOf?_next]
    · rw [halone, hreplies]
    · rw [hlast, hlastAlone]
  · refine ⟨_, _, _, _, ?_, ({} : Workspace).length_serveAll before, rfl,
      ({} : Workspace).serveAll_append before after⟩
    rw [serveAll_append, serveAll_cons]
    rfl

/-- Calls after the opening of two catalogs, with the same names in both. The item `"a"` has
index 0 in the one and index 1 in the other, a facet of the one is combined with a facet of the
other, and the first catalog gives up its item and is dropped before the facet of the second
is asked. -/
def sharedNames : List Call :=
  [.request ⟨0⟩ (.change (.newAspect "Kind" "Kind")),
    .request ⟨1⟩ (.change (.newAspect "Kind" "Kind")),
    .request ⟨0⟩ (.change (.upsert "a")), .request ⟨1⟩ (.change (.upsert "b")),
    .request ⟨1⟩ (.change (.upsert "a")), .request ⟨0⟩ (.change (.ensureFacet ⟨0⟩ "new")),
    .request ⟨1⟩ (.change (.ensureFacet ⟨0⟩ "new")),
    .request ⟨0⟩ (.change (.setItem ⟨⟨0⟩, 0⟩ "a")), .request ⟨1⟩ (.change (.setItem ⟨⟨0⟩, 0⟩ "b")),
    .request ⟨1⟩ (.change (.setItem ⟨⟨0⟩, 0⟩ "a")),
    .combine (.count .inter) (⟨0⟩, ⟨⟨0⟩, 0⟩) (⟨1⟩, ⟨⟨0⟩, 0⟩),
    .request ⟨0⟩ (.change (.remove "a")), .request ⟨0⟩ (.change .drop),
    .request ⟨1⟩ (.ask (.ofFacet ⟨⟨0⟩, 0⟩ .items)), .request ⟨0⟩ (.ask (.ofFacet ⟨⟨0⟩, 0⟩ .items))]

theorem isolation_of_run_sharedNames :
    ∃ later final, ({} : Workspace).serveAll (.openCatalog {} :: .openCatalog {} :: sharedNames) =
        (.catalog ⟨0⟩ :: .catalog ⟨1⟩ :: later, final) ∧
      repliesTo ⟨1⟩ sharedNames later =
        [.outcome (.aspect ⟨0⟩), .outcome (.index 0), .outcome (.index 1),
          .outcome (.facet ⟨⟨0⟩, 0⟩), .outcome .written, .outcome .written, .items ["b", "a"]] ∧
      later.getLast? = some (.refused .catalogDropped) := by
  obtain ⟨id, earlier, later, final, hrun, hlength, -, -, hreplies, -⟩ :=
    isolation_of_run.1 [.openCatalog {}] {} sharedNames
  obtain ⟨first, rfl⟩ := List.length_eq_one_iff.1 hlength
  have hopened : (({} : Workspace).serveAll (.openCatalog {} :: .openCatalog {} :: sharedNames)).1 =
      first :: .catalog id :: later := congrArg Prod.fst hrun
  have htaken : [.catalog ⟨0⟩, .catalog ⟨1⟩] = [first, .catalog id] :=
    congrArg (List.take 2) hopened
  have hlater : (({} : Workspace).serveAll
      (.openCatalog {} :: .openCatalog {} :: sharedNames)).1.drop 2 = later :=
    congrArg (List.drop 2) hopened
  simp only [List.cons.injEq, Reply.catalog.injEq, and_true] at htaken
  obtain ⟨rfl, rfl⟩ := htaken
  refine ⟨later, final, hrun, hreplies.trans ?_, ?_⟩
  · decide +kernel
  · rw [← hlater]
    decide +kernel

end Workspace

end FacetIndex
