-- Whose documents a scope shows. The indices are shared by all solutions, and a scope stands
-- in the place of the caller's organization. The caller's own documents and those of its
-- organization are of its solution, but a document that is shared with everyone may be of
-- any.
import TenantSearch.Proofs.ServedRecords

namespace TenantSearch

/-! ## The pure model -/

/-- What is relied on of a reading of the policy's clauses: one of two holds, an equality
depends on what the document has in that field, and a document that has nothing there has no
text there. -/
structure ReadsScopes (holds : Clause → Fields → Prop) : Prop where
  either : ∀ field field' v v' d, holds (.anyOf [.term field v, .term field' v']) d ↔
    holds (.term field v) d ∨ holds (.term field' v') d
  same : ∀ field ∈ ["stateCode", "ownerId", "isGlobal"], ∀ v d d',
    d'.look field = d.look field → holds (.term field v) d → holds (.term field v) d'
  absent : ∀ field ∈ ["organizationId", "ownedBy"], ∀ text d,
    d.look field = .null → ¬ holds (.term field (.str text)) d

/-- The solution of every organization and of every user. -/
structure Homes where
  organization : String → String
  user : String → String

/-- The caller's organization and the caller are of the caller's solution. -/
structure Homes.HasCaller (homes : Homes) (c : CallerContext) : Prop where
  organization : homes.organization c.organizationId = c.solutionId
  user : homes.user c.userId = c.solutionId

/-- A document that is found under an organization or under a user is of its solution. -/
structure Homes.HasDocument (homes : Homes) (holds : Clause → Fields → Prop) (d : Fields) :
    Prop where
  organization : ∀ text, holds (.term "organizationId" (.str text)) d →
    d.look "solutionId" = .str (homes.organization text)
  user : ∀ text, holds (.term "ownedBy" (.str text)) d →
    d.look "solutionId" = .str (homes.user text)

/-- A document that is shared with everyone. -/
def IsShared (holds : Clause → Fields → Prop) (d : Fields) : Prop :=
  holds (.term "isGlobal" (.bool true)) d

/-- Whether a scope also shows what is shared with everyone. -/
def Scope.showsShared : Scope → Bool
  | .everyone => true
  | .everyoneAndMine => true
  | .mine => false
  | .organization => false

/-- What a scope shows a caller. -/
def Scope.Shows (holds : Clause → Fields → Prop) (c : CallerContext) (d : Fields) : Scope → Prop
  | .everyone => IsShared holds d
  | .mine => holds (.term "ownedBy" (.str c.userId)) d
  | .everyoneAndMine => holds (.term "ownedBy" (.str c.userId)) d ∨ IsShared holds d
  | .organization => holds (Policy.organizationFilter c) d

/-- The fields that say which solution, which organization and which user a document is
of. -/
def homeFields : List String := ["solutionId", "organizationId", "ownedBy"]

/-- What the request asks for itself does not depend on whose a document is. -/
def IgnoresHomes (holds : Clause → Fields → Prop) (r : QueryRequest) : Prop :=
  ∀ clause ∈ requestedFilters r, ∀ d d', (∀ name ∉ homeFields, d'.look name = d.look name) →
    holds clause d → holds clause d'

/-- The document in a solution, without an organization or a user. -/
def movedTo (solution : String) (d : Fields) : Fields :=
  ((d.set "solutionId" (.str solution)).set "organizationId" .null).set "ownedBy" .null

/-! ## What passes the filters -/

section

variable {holds : Clause → Fields → Prop} {c : CallerContext} {d : Fields}

theorem passes_append {filters more : List Clause} :
    Passes holds (filters ++ more) d ↔ Passes holds filters d ∧ Passes holds more d :=
  List.forall_mem_append

theorem passes_singleton {clause : Clause} : Passes holds [clause] d ↔ holds clause d :=
  List.forall_mem_singleton

/-- The filters of a scope let a document pass that the scope shows. -/
theorem passes_scopeFilters_iff (reads : ReadsScopes holds) (scope : Scope) (names : List String)
    (enforce : Bool) : Passes holds (Policy.scopeFilters c (some scope) names enforce) d ↔
      scope.Shows holds c d := by
  cases scope with
  | everyoneAndMine => exact passes_singleton.trans (reads.either _ _ _ _ d)
  | _ => exact passes_singleton

/-- A document passes the filters of a compiled request when it is in the state and the scope
that are asked for, and passes the filters of the solution and of the request itself. -/
theorem passes_compiled_iff (reads : ReadsScopes holds) {settings : Settings} {r : QueryRequest}
    {scope : Scope} (hscope : r.scope = some scope) {q : SecuredQuery}
    (h : r.compile settings c = .ok q) : Passes holds q.filters d ↔
      holds (.term "stateCode" (.int r.stateCode)) d ∧
        Passes holds (Policy.solutionFilters c (readableNames c r)) d ∧ scope.Shows holds c d ∧
          Passes holds (requestedFilters r) d := by
  obtain ⟨-, rfl⟩ := compile_enforced_iff.mp h
  have hperm := filters_perm c r false
  have hpasses : Passes holds (r.filters c (readableNames c r) true) d ↔
      Passes holds (mandatoryFilters c r false ++ requestedFilters r) d :=
    forall_congr' fun clause => imp_congr_left hperm.mem_iff
  refine hpasses.trans ?_
  unfold mandatoryFilters
  rw [← List.singleton_append, hscope, passes_append, passes_append, passes_append,
    passes_singleton, passes_scopeFilters_iff reads, and_assoc, and_assoc]
  rfl

/-! ## Documents of another solution -/

theorem look_movedTo {solution name : String} (h : name ∉ homeFields) :
    (movedTo solution d).look name = d.look name := by
  unfold movedTo
  simp only [homeFields, List.mem_cons, List.not_mem_nil, or_false, not_or] at h
  rw [Fields.look_set, if_neg h.2.2, Fields.look_set, if_neg h.2.1, Fields.look_set, if_neg h.1]

theorem solution_movedTo (solution : String) (d : Fields) :
    (movedTo solution d).look "solutionId" = .str solution := by
  unfold movedTo
  rw [Fields.look_set, if_neg (by decide), Fields.look_set, if_neg (by decide), Fields.look_set,
    if_pos rfl]

/-- Without an organization and a user there is nothing that a document goes with. -/
theorem Homes.hasDocument_movedTo (homes : Homes) (reads : ReadsScopes holds) (solution : String)
    (d : Fields) : homes.HasDocument holds (movedTo solution d) := by
  have horganization : (movedTo solution d).look "organizationId" = .null := by
    unfold movedTo
    rw [Fields.look_set, if_neg (by decide), Fields.look_set, if_pos rfl]
  have huser : (movedTo solution d).look "ownedBy" = .null := by
    unfold movedTo
    rw [Fields.look_set, if_pos rfl]
  exact ⟨fun text hfound => absurd hfound (reads.absent _ (by decide) text _ horganization),
    fun text hfound => absurd hfound (reads.absent _ (by decide) text _ huser)⟩

theorem IsShared.movedTo (shared : IsShared holds d) (reads : ReadsScopes holds)
    (solution : String) : IsShared holds (movedTo solution d) :=
  reads.same "isGlobal" (by decide) _ d _ (look_movedTo (by decide)) shared

/-- A scope that shows what is shared does so whatever the solution. -/
theorem Scope.shows_of_shared {scope : Scope} (hshared : scope.showsShared = true)
    (shared : IsShared holds d) : scope.Shows holds c d := by
  cases scope with
  | everyone => exact shared
  | everyoneAndMine => exact Or.inr shared
  | mine => cases hshared
  | organization => cases hshared

/-- What passes the filters and is shared passes them in every solution, unless the request
itself looks at whose it is. -/
theorem passes_movedTo (reads : ReadsScopes holds) {settings : Settings} {r : QueryRequest}
    {scope : Scope} (hscope : r.scope = some scope) {q : SecuredQuery}
    (h : r.compile settings c = .ok q) (ignores : IgnoresHomes holds r)
    (hshared : scope.showsShared = true) (shared : IsShared holds d)
    (passes : Passes holds q.filters d) (solution : String) :
    Passes holds q.filters (movedTo solution d) := by
  obtain ⟨hstate, howner, -, hrequested⟩ := (passes_compiled_iff reads hscope h).mp passes
  refine (passes_compiled_iff reads hscope h).mpr ⟨?_, fun clause hclause => ?_,
    Scope.shows_of_shared hshared (shared.movedTo reads solution), fun clause hclause => ?_⟩
  · exact reads.same "stateCode" (by decide) _ d _ (look_movedTo (by decide)) hstate
  · obtain ⟨rfl, -⟩ := (mem_solutionFilters c _ clause).mp hclause
    exact reads.same "ownerId" (by decide) _ d _ (look_movedTo (by decide)) (howner _ hclause)
  · exact ignores clause hclause d _ (fun name hname => look_movedTo hname) (hrequested _ hclause)

/-! ## What a scope shows -/

/-- What a scope shows is of the caller's solution, or shared with everyone. -/
theorem Scope.Shows.home {homes : Homes} (caller : homes.HasCaller c)
    (document : homes.HasDocument holds d) {scope : Scope} (shows : scope.Shows holds c d) :
    d.look "solutionId" = .str c.solutionId ∨ scope.showsShared = true ∧ IsShared holds d := by
  have huser (hmine : holds (.term "ownedBy" (.str c.userId)) d) :
      d.look "solutionId" = .str c.solutionId := caller.user ▸ document.user _ hmine
  cases scope with
  | everyone => exact Or.inr ⟨rfl, shows⟩
  | mine => exact Or.inl (huser shows)
  | everyoneAndMine => exact shows.imp huser fun shared => ⟨rfl, shared⟩
  | organization => exact Or.inl (caller.organization ▸ document.organization _ shows)

/-- Whatever passes the filters of a scoped query is of the caller's solution or shared with
everyone. While the request itself does not look at whose a document is, all of it is of the
caller's solution just when the scope shows nothing that is shared. -/
theorem a_scope_keeps_to_the_solution_iff (reads : ReadsScopes holds) {homes : Homes}
    (caller : homes.HasCaller c) {settings : Settings} {r : QueryRequest} {scope : Scope}
    (hscope : r.scope = some scope) {q : SecuredQuery} (h : r.compile settings c = .ok q) :
    (∀ d, homes.HasDocument holds d → Passes holds q.filters d →
      d.look "solutionId" = .str c.solutionId ∨ scope.showsShared = true ∧ IsShared holds d) ∧
    (IgnoresHomes holds r →
      ((∀ d, homes.HasDocument holds d → Passes holds q.filters d →
          d.look "solutionId" = .str c.solutionId) ↔
        ¬ (scope.showsShared = true ∧ ∃ d, IsShared holds d ∧ Passes holds q.filters d))) := by
  have hhome (d : Fields) (document : homes.HasDocument holds d)
      (passes : Passes holds q.filters d) :=
    ((passes_compiled_iff reads hscope h).mp passes).2.2.1.home caller document
  refine ⟨hhome, fun ignores => ⟨?_, fun hnone d document passes => ?_⟩⟩
  · rintro hall ⟨hshared, d, shared, passes⟩
    have hmoved := hall _ (homes.hasDocument_movedTo reads (c.solutionId ++ "-2") d)
      (passes_movedTo reads hscope h ignores hshared shared passes _)
    rw [solution_movedTo] at hmoved
    have hlength := congrArg String.length (Json.str.inj hmoved)
    rw [String.length_append] at hlength
    have htwo : "-2".length = 2 := rfl
    omega
  · rcases hhome d document passes with hsolution | ⟨hshared, shared⟩
    · exact hsolution
    · exact absurd ⟨hshared, d, shared, passes⟩ hnone

end

/-! ## The events of everyone -/

theorem readsScopes_readsTerms : ReadsScopes fun clause d => readsTerms clause d = true where
  either := by
    intro field field' v v' d
    simp [readsTerms, readsTerm]
  same := by
    intro field _ v d d' hlook hholds
    have hsame : readsTerms (.term field v) d' = readsTerms (.term field v) d := by
      simp only [readsTerms, readsTerm, hlook]
    exact hsame.trans hholds
  absent := by
    intro field _ text d hnull hholds
    have hkeys : ((d.look field).key? == (Json.str text).key?) = true := hholds
    rw [hnull] at hkeys
    cases hkeys

/-- A request that has no identifiers, categories or conditions asks for nothing itself. -/
theorem ignoresHomes_of_plain {holds : Clause → Fields → Prop} {r : QueryRequest}
    (h : requestedFilters r = []) : IgnoresHomes holds r := by
  intro clause hclause
  rw [h] at hclause
  cases hclause

/-- The solutions of two organizations and of their users. -/
def twoHomes : Homes where
  organization text := if text == "org-2" then "sol-2" else "sol-1"
  user text := if text == "user-2" then "sol-2" else "sol-1"

theorem twoHomes_hasCaller : twoHomes.HasCaller eventCaller := ⟨by decide, by decide⟩

/-- The events that are shared with everyone. -/
def sharedEvents : QueryRequest := { requestFor "Event" with scope := some .everyone }

/-- The events of the caller. -/
def ownEvents : QueryRequest := { requestFor "Event" with scope := some .mine }

/-- An event of the other solution that is shared with everyone. -/
def foreignEvent : Fields :=
  [("id", .str "e-2"), ("solutionId", .str "sol-2"), ("organizationId", .str "org-2"),
    ("ownedBy", .str "user-2"), ("isGlobal", .bool true), ("stateCode", .int 0)]

theorem twoHomes_hasDocument :
    twoHomes.HasDocument (fun clause d => readsTerms clause d = true) foreignEvent := by
  have hfound {field text other : String} (hlook : foreignEvent.look field = .str other)
      (h : readsTerms (.term field (.str text)) foreignEvent = true) : text = other := by
    have hkeys : ((foreignEvent.look field).key? == (Json.str text).key?) = true := h
    rw [hlook] at hkeys
    exact (Json.Key.text.inj (Option.some.inj (eq_of_beq hkeys))).symm
  refine ⟨fun text h => ?_, fun text h => ?_⟩
  · obtain rfl := hfound rfl h
    rfl
  · obtain rfl := hfound rfl h
    rfl

/-- All of the caller's own events are of its solution. -/
theorem own_events_are_of_the_solution :
    ReadsScopes (fun clause d => readsTerms clause d = true) ∧ twoHomes.HasCaller eventCaller ∧
      ownEvents.scope = some .mine ∧ ∃ q, ownEvents.compile {} eventCaller = .ok q ∧
        ∀ d, twoHomes.HasDocument (fun clause d => readsTerms clause d = true) d →
          Passes (fun clause d => readsTerms clause d = true) q.filters d →
            d.look "solutionId" = .str "sol-1" := by
  have hcompile : ownEvents.compile {} eventCaller =
      .ok ⟨["event"], ownEvents.filters eventCaller ["Event"] true, ownEvents.asking {}⟩ := rfl
  refine ⟨readsScopes_readsTerms, twoHomes_hasCaller, rfl, _, hcompile, ?_⟩
  refine ((a_scope_keeps_to_the_solution_iff readsScopes_readsTerms twoHomes_hasCaller rfl
    hcompile).2 (ignoresHomes_of_plain rfl)).mpr ?_
  rintro ⟨hshared, -⟩
  cases hshared

/-- An event of another solution passes all filters, because it is shared with everyone. -/
theorem shared_events_are_of_every_solution :
    ∃ q, sharedEvents.compile {} eventCaller = .ok q ∧ sharedEvents.scope = some .everyone ∧
      ReadsScopes (fun clause d => readsTerms clause d = true) ∧
      twoHomes.HasCaller eventCaller ∧
      twoHomes.HasDocument (fun clause d => readsTerms clause d = true) foreignEvent ∧
      Passes (fun clause d => readsTerms clause d = true) q.filters foreignEvent ∧
      foreignEvent.look "solutionId" ≠ .str eventCaller.solutionId := by
  have hcompile : sharedEvents.compile {} eventCaller =
      .ok ⟨["event"], sharedEvents.filters eventCaller ["Event"] true, sharedEvents.asking {}⟩ :=
    rfl
  refine ⟨_, hcompile, rfl, readsScopes_readsTerms, twoHomes_hasCaller, twoHomes_hasDocument, ?_,
    ?_⟩
  · have hfilters : sharedEvents.filters eventCaller ["Event"] true =
        [.term "stateCode" (.int 0), .term "isGlobal" (.bool true)] := rfl
    rw [hfilters]
    simp [Passes, readsTerms, readsTerm, foreignEvent, Fields.look, Fields.get?, Json.key?]
  · simp [foreignEvent, Fields.look, Fields.get?, eventCaller, callerWith]

end TenantSearch
