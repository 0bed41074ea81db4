-- The read check against what is searched. The check looks at each name as a
-- whole, the engine at the pieces between its commas and at its stars, so the
-- two agree exactly when the caller covers every piece of the names it asked
-- for. A caller that may read none of the names is refused before any call.
import TenantSearch.Proofs.CompiledQueries
import TenantSearch.Query.Fusion

namespace TenantSearch

/-- A query addresses only readable indices exactly when every piece of its
readable names is covered. -/
theorem addressed_readable_iff_covers {c : CallerContext} {names : List String} (h : names ≠ []) :
    (∀ index, Addressed (QueryRequest.indicesOf names) index → Policy.mayRead c index = true) ↔
      ∀ name ∈ names, ∀ piece ∈ commaPieces name, Covers c piece := by
  constructor
  · intro hread name hname piece hpiece
    rw [← covers_iff (no_comma_of_mem_commaPieces hpiece)]
    intro index hindex haddr
    exact hread index ((addressed_iff h index).mpr ⟨hindex, name, hname, piece, hpiece, haddr⟩)
  · intro hcover index haddr
    obtain ⟨hindex, name, hname, piece, hpiece, hmatch⟩ := (addressed_iff h index).mp haddr
    exact mayRead_of_covers (hcover name hname piece hpiece) hindex hmatch

theorem readableNames_eq_nil {c : CallerContext} {r : QueryRequest}
    (h : ∀ name ∈ Policy.indexTargets r, Policy.mayRead c name = false) :
    readableNames c r = [] := by
  unfold readableNames
  rw [List.filter_eq_nil_iff]
  intro name hname
  rw [h name hname]
  simp

theorem compile_of_none_readable {c : CallerContext} {r : QueryRequest}
    (h : readableNames c r = []) (settings : Settings) :
    r.compile settings c =
      .error (.ofEntity .noReadPrivilege (Policy.refusedEntity (Policy.indexTargets r))) := by
  have hsearched : searchedNames c r false = [] := h
  rw [compile_eq, hsearched]
  rfl

/-- A request that does not compile under any settings is answered with its
failure after a look around, so nothing outside is asked. -/
theorem query_of_compile_error {c : CallerContext} {r : QueryRequest} {f : Failure}
    (h : ∀ settings, r.compile settings c = .error f) (fetch : Fusion.Fetch) (raw : Bool)
    (attributes : Json) :
    (Fusion.query fetch c r false raw attributes).run =
      (Prog.ask .look).bind fun _ => .done (.error f) := by
  unfold Fusion.query
  simp only [h]
  rfl

/-- Every index that a compiled query addresses is one that its caller may
read, exactly when the caller covers every piece of every name that passed
the check. When no name passes, the request is refused as forbidden and
neither the engine nor the database is called. -/
theorem only_readable_indices_are_searched_iff (settings : Settings) (c : CallerContext)
    (r : QueryRequest) :
    (∀ q, r.compile settings c = .ok q →
      ((∀ index, Addressed q.indices index → Policy.mayRead c index = true) ↔
        ∀ name ∈ Policy.indexTargets r, Policy.mayRead c name = true →
          ∀ piece ∈ commaPieces name, Covers c piece)) ∧
    ((∀ name ∈ Policy.indexTargets r, Policy.mayRead c name = false) →
      ∃ e : ServiceError, e.cause.kind = .forbidden ∧
        r.compile settings c = .error (.service e) ∧
        ∀ fetch raw attributes, (Fusion.query fetch c r false raw attributes).run =
          (Prog.ask .look).bind fun _ => .done (.error (.service e))) := by
  constructor
  · intro q hq
    obtain ⟨hne, rfl⟩ := compile_enforced_iff.mp hq
    dsimp only
    rw [addressed_readable_iff_covers hne]
    constructor
    · intro h name hname hread
      exact h name ((mem_readableNames c r name).mpr ⟨hname, hread⟩)
    · intro h name hname
      obtain ⟨htarget, hread⟩ := (mem_readableNames c r name).mp hname
      exact h name htarget hread
  · intro hdenied
    have hcompile := compile_of_none_readable (readableNames_eq_nil hdenied)
    exact ⟨_, rfl, hcompile settings, fun fetch raw attributes =>
      query_of_compile_error hcompile fetch raw attributes⟩

/-! ## A reader of events -/

/-- A caller that may read events and nothing else. -/
def eventReader : CallerContext := callerWith [("Event", ["read"])]

/-- The events of all subtypes, asked for with a star. -/
def allEvents : QueryRequest :=
  { requestFor "Event" with indexNames := ["Event_*"] }

/-- The events of a subtype that has a comma and another entity's name. -/
def eventsAndSecrets : QueryRequest :=
  { requestFor "Event" with entityType := some "x,Secret" }

theorem an_event_reader_may_search_every_event_subtype :
    ∀ index, Addressed ["event_*", "event"] index → Policy.mayRead eventReader index = true := by
  have hcompile : allEvents.compile {} eventReader =
      .ok ⟨["event_*", "event"], allEvents.filters eventReader ["Event_*", "Event"] true,
        allEvents.asking {}⟩ := rfl
  refine ((only_readable_indices_are_searched_iff {} eventReader allEvents).1 _ hcompile).mpr ?_
  intro name _ hread piece hpiece
  have hpieces : ∀ n ∈ ["Event_*", "Event"], ∀ p ∈ commaPieces n,
      '*' ∉ IndexTarget.entityPart p ∧ eventReader.reads (IndexTarget.entityOf p) = true := by
    decide
  exact Or.inr (Or.inr (Or.inr (hpieces name ‹_› piece hpiece)))

/-- The reader of events gets at the secrets: the name passes the check for
its first part, and the engine reads the part after the comma as a name of
its own. -/
theorem a_comma_in_a_subtype_reaches_an_unreadable_index :
    ∃ q, eventsAndSecrets.compile {} eventReader = .ok q ∧
      Addressed q.indices "secret" ∧ Policy.mayRead eventReader "secret" = false := by
  refine ⟨_, rfl, ⟨⟨by decide, by decide, by decide, by decide⟩, "secret", ?_, ?_⟩, by decide⟩
  · decide
  · decide

end TenantSearch
