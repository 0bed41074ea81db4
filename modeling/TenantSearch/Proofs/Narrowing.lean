-- What a request can change about its own filters. What the policy asks for
-- depends on the names, the scope and the state alone, so all the rest of a
-- request only narrows the result, in a listing as in a count.
import TenantSearch.Proofs.CompiledQueries

namespace TenantSearch

/-! ## The pure model -/

/-- Two requests that the policy cannot tell apart. -/
structure SharesPolicy (r r' : QueryRequest) : Prop where
  entityName : r'.entityName = r.entityName
  entityType : r'.entityType = r.entityType
  indexNames : r'.indexNames = r.indexNames
  scope : r'.scope = r.scope
  stateCode : r'.stateCode = r.stateCode

/-- Two requests that also ask for the same filters. The keywords, the kept
attributes, the order, the page, the count and the tags may all differ. -/
structure SharesFilters (r r' : QueryRequest) : Prop extends SharesPolicy r r' where
  id : r'.id = r.id
  ids : r'.ids = r.ids
  categoryIds : r'.categoryIds = r.categoryIds
  conditions : r'.conditions = r.conditions

/-- The second request asks for more filters: identifiers and categories
where there were none, and further conditions. -/
structure Narrows (r r' : QueryRequest) : Prop extends SharesPolicy r r' where
  id : r.id = none ∨ r'.id = r.id
  ids : r.ids = none ∨ r'.ids = r.ids
  categoryIds : r.categoryIds = [] ∨ r'.categoryIds = r.categoryIds
  conditions : ∃ more, r'.conditions = r.conditions ++ more

/-- The filters that a request cannot take away: its state, and what the
policy asks for. -/
def mandatoryFilters (c : CallerContext) (r : QueryRequest) (skipSecurity : Bool) : List Clause :=
  .term "stateCode" (.int r.stateCode) ::
    (Policy.solutionFilters c (searchedNames c r skipSecurity) ++
      Policy.scopeFilters c r.scope (searchedNames c r skipSecurity) (!skipSecurity))

/-- The filters that a request asks for itself. -/
def requestedFilters (r : QueryRequest) : List Clause :=
  r.identifierFilters ++ r.categoryFilters ++ r.conditions.map .ofCondition

/-- A document passes a list of filters when all of them hold of it. -/
def Passes {Doc : Type} (holds : Clause → Doc → Prop) (filters : List Clause) (d : Doc) : Prop :=
  ∀ clause ∈ filters, holds clause d

/-- The value at a path of field names. -/
def valueAt : List String → Json → Option Json
  | [], v => some v
  | name :: rest, .obj fields => (Fields.get? fields name).bind (valueAt rest)
  | _ :: _, _ => none

/-- What stands in the place of the filters in the body for the engine. -/
def bodyFilters (q : SecuredQuery) : Option Json :=
  valueAt ["query", "bool", "filter"] (.obj q.engineQuery.body)

/-! ## The filters in the body -/

theorem filter_of_body (q : EngineQuery) :
    valueAt ["query", "bool", "filter"] (.obj q.body) = some (EngineQuery.objects q.filters) := by
  unfold EngineQuery.body
  cases q.aggregation with
  | none => simp [valueAt, Fields.get?]
  | some aggregation => simp [valueAt, Fields.get?]

theorem filters_of_engineQuery (q : SecuredQuery) :
    q.engineQuery.filters = q.filters.map (·.fields) := by
  unfold SecuredQuery.engineQuery
  cases q.asking with
  | listing => rfl
  | counting => rfl

/-- A listing and a count carry the filters of the query in the same place. -/
theorem bodyFilters_eq (q : SecuredQuery) :
    bodyFilters q = some (EngineQuery.objects (q.filters.map (·.fields))) := by
  unfold bodyFilters
  rw [filter_of_body, filters_of_engineQuery]

/-! ## What two requests share -/

theorem SharesPolicy.indexTargets {r r' : QueryRequest} (h : SharesPolicy r r') :
    Policy.indexTargets r' = Policy.indexTargets r := by
  unfold Policy.indexTargets
  rw [h.entityName, h.entityType, h.indexNames]

theorem SharesPolicy.searchedNames {r r' : QueryRequest} (h : SharesPolicy r r')
    (c : CallerContext) (skipSecurity : Bool) :
    searchedNames c r' skipSecurity = searchedNames c r skipSecurity := by
  unfold TenantSearch.searchedNames readableNames
  rw [h.indexTargets]

theorem SharesPolicy.mandatoryFilters {r r' : QueryRequest} (h : SharesPolicy r r')
    (c : CallerContext) (skipSecurity : Bool) :
    mandatoryFilters c r' skipSecurity = mandatoryFilters c r skipSecurity := by
  unfold TenantSearch.mandatoryFilters
  rw [h.searchedNames, h.scope, h.stateCode]

theorem SharesFilters.filters {r r' : QueryRequest} (h : SharesFilters r r') (c : CallerContext)
    (names : List String) (enforce : Bool) :
    r'.filters c names enforce = r.filters c names enforce := by
  unfold QueryRequest.filters QueryRequest.identifierFilters QueryRequest.categoryFilters
  rw [h.id, h.ids, h.categoryIds, h.conditions, h.scope, h.stateCode]

/-- The filters of a request are the mandatory ones and its own, and nothing
else. -/
theorem filters_perm (c : CallerContext) (r : QueryRequest) (skipSecurity : Bool) :
    (r.filters c (searchedNames c r skipSecurity) (!skipSecurity)).Perm
      (mandatoryFilters c r skipSecurity ++ requestedFilters r) := by
  unfold QueryRequest.filters mandatoryFilters requestedFilters
  generalize Policy.solutionFilters c (searchedNames c r skipSecurity) = owner
  generalize Policy.scopeFilters c r.scope (searchedNames c r skipSecurity) (!skipSecurity) = scope
  generalize r.identifierFilters = identifiers
  generalize r.categoryFilters = categories
  generalize r.conditions.map Clause.ofCondition = conditions
  simp only [List.cons_append, List.nil_append, List.append_assoc]
  refine List.Perm.cons _ ?_
  calc
    List.Perm (identifiers ++ (owner ++ (categories ++ (scope ++ conditions))))
        (owner ++ (identifiers ++ (categories ++ (scope ++ conditions)))) :=
      List.perm_append_comm_assoc _ _ _
    List.Perm _ (owner ++ (identifiers ++ (scope ++ (categories ++ conditions)))) :=
      ((List.perm_append_comm_assoc _ _ _).append_left _).append_left _
    List.Perm _ (owner ++ (scope ++ (identifiers ++ (categories ++ conditions)))) :=
      (List.perm_append_comm_assoc _ _ _).append_left _

/-! ## Narrower requests -/

theorem append_subset_append {α : Type} {l₁ l₂ m₁ m₂ : List α} (h₁ : l₁ ⊆ m₁) (h₂ : l₂ ⊆ m₂) :
    l₁ ++ l₂ ⊆ m₁ ++ m₂ :=
  List.append_subset.mpr ⟨List.subset_append_of_subset_left _ h₁,
    List.subset_append_of_subset_right _ h₂⟩

theorem Narrows.identifierFilters {r r' : QueryRequest} (h : Narrows r r') :
    r.identifierFilters ⊆ r'.identifierFilters := by
  unfold QueryRequest.identifierFilters
  refine append_subset_append ?_ ?_
  · rcases h.id with hid | hid
    · rw [hid]
      exact List.nil_subset _
    · rw [hid]
      exact List.Subset.refl _
  · rcases h.ids with hids | hids
    · rw [hids]
      exact List.nil_subset _
    · rw [hids]
      exact List.Subset.refl _

theorem Narrows.categoryFilters {r r' : QueryRequest} (h : Narrows r r') :
    r.categoryFilters ⊆ r'.categoryFilters := by
  unfold QueryRequest.categoryFilters
  rcases h.categoryIds with hcategory | hcategory
  · rw [hcategory]
    exact List.nil_subset _
  · rw [hcategory]
    exact List.Subset.refl _

theorem Narrows.requestedFilters {r r' : QueryRequest} (h : Narrows r r') :
    requestedFilters r ⊆ requestedFilters r' := by
  obtain ⟨more, hmore⟩ := h.conditions
  unfold TenantSearch.requestedFilters
  rw [hmore, List.map_append]
  refine append_subset_append (append_subset_append ?_ ?_) ?_
  · exact h.identifierFilters
  · exact h.categoryFilters
  · exact List.subset_append_left _ _

theorem Passes.of_subset {Doc : Type} {holds : Clause → Doc → Prop} {filters more : List Clause}
    (h : filters ⊆ more) {d : Doc} (hd : Passes holds more d) : Passes holds filters d :=
  fun clause hclause => hd clause (h hclause)

theorem organizationFilter_mem_mandatoryFilters {c : CallerContext} {r : QueryRequest}
    (hscope : r.scope = none) (hother : NamesOther (readableNames c r)) :
    Policy.organizationFilter c ∈ mandatoryFilters c r false := by
  have hnames : searchedNames c r false = readableNames c r := rfl
  have hne : readableNames c r ≠ [] := by
    obtain ⟨name, hname, _⟩ := hother
    exact List.ne_nil_of_mem hname
  unfold mandatoryFilters
  rw [hnames, hscope, Bool.not_false]
  refine List.mem_cons_of_mem _ (List.mem_append_right _ ?_)
  exact (mem_scopeFilters_none c hne _).mpr ⟨rfl, hother⟩

/-! ## The laws -/

/-- A caller of the organization whose events are searched. -/
def eventCaller : CallerContext := callerWith [("Event", ["read"])]

/-- A list of events. -/
def listedEvents : QueryRequest := requestFor "Event"

/-- A count of the events that are closed, in place of the list. -/
def countedEvents : QueryRequest :=
  { listedEvents with
    aggregate := some "kind"
    conditions := [{ field := some "status", op := .equals, value := .str "closed" }] }

/-- A reading of the clauses that only takes the equalities as they are. -/
def readsEqualities : Clause → (String → Json) → Prop
  | .term field v, d => d field = v
  | _, _ => True

end TenantSearch
