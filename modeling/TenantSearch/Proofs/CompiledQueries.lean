-- What a compiled query is made of: when a request compiles at all, which
-- index expressions come out, and which clauses stand in the filters.
import TenantSearch.Proofs.ReadRights
import TenantSearch.Query.Compile

namespace TenantSearch

/-! ## The pure model -/

/-- The index names of a request that its caller may read. -/
def readableNames (c : CallerContext) (r : QueryRequest) : List String :=
  (Policy.indexTargets r).filter (Policy.mayRead c)

/-- The index names that a request is compiled for. -/
def searchedNames (c : CallerContext) (r : QueryRequest) (skipSecurity : Bool) : List String :=
  if skipSecurity then Policy.indexTargets r else readableNames c r

/-- A clause that the conditions of the request itself ask for. -/
def AskedFor (r : QueryRequest) (clause : Clause) : Prop :=
  ∃ condition ∈ r.conditions, Clause.ofCondition condition = clause

/-- The filter of the caller's solution. -/
def ownerFilter (c : CallerContext) : Clause := .term "ownerId" (.str c.solutionId)

/-- Some name stands for a configuration entity, as the policy reads it. -/
def NamesConfiguration (names : List String) : Prop :=
  ∃ name ∈ names, IndexTarget.entityOf name ∈ Policy.solutionOwned

/-- Some name stands for another entity than the secrets, as the policy
reads it. -/
def NamesOther (names : List String) : Prop :=
  ∃ name ∈ names, IndexTarget.entityOf name ≠ Policy.secretEntity

instance (names : List String) : Decidable (NamesConfiguration names) :=
  inferInstanceAs (Decidable (∃ name ∈ names, IndexTarget.entityOf name ∈ Policy.solutionOwned))

instance (names : List String) : Decidable (NamesOther names) :=
  inferInstanceAs (Decidable (∃ name ∈ names, IndexTarget.entityOf name ≠ Policy.secretEntity))

/-! ## When a request compiles -/

theorem mem_readableNames (c : CallerContext) (r : QueryRequest) (name : String) :
    name ∈ readableNames c r ↔ name ∈ Policy.indexTargets r ∧ Policy.mayRead c name = true :=
  List.mem_filter

theorem indexTargets_ne_nil (r : QueryRequest) : Policy.indexTargets r ≠ [] := by
  simp [Policy.indexTargets]

theorem readableTargets_eq (c : CallerContext) (r : QueryRequest) :
    Policy.readableTargets c (Policy.indexTargets r) =
      if (readableNames c r).isEmpty then
        .error (.ofEntity .noReadPrivilege (Policy.refusedEntity (Policy.indexTargets r)))
      else .ok (readableNames c r) := rfl

/-- A request compiles for the names that its caller may search, unless
there are none. -/
theorem compile_eq (settings : Settings) (c : CallerContext) (r : QueryRequest)
    (skipSecurity : Bool) :
    r.compile settings c skipSecurity =
      if (searchedNames c r skipSecurity).isEmpty then
        .error (.ofEntity .noReadPrivilege (Policy.refusedEntity (Policy.indexTargets r)))
      else .ok ⟨QueryRequest.indicesOf (searchedNames c r skipSecurity),
        r.filters c (searchedNames c r skipSecurity) (!skipSecurity), r.asking settings⟩ := by
  unfold QueryRequest.compile searchedNames
  cases skipSecurity with
  | true =>
    have hne : (Policy.indexTargets r).isEmpty = false := by simp [indexTargets_ne_nil r]
    simp only [if_true, hne, Bool.false_eq_true, if_false]
    rfl
  | false =>
    simp only [Bool.false_eq_true, if_false, readableTargets_eq]
    split
    · rfl
    · rfl

theorem compile_eq_ok_iff {settings : Settings} {c : CallerContext} {r : QueryRequest}
    {skipSecurity : Bool} {q : SecuredQuery} :
    r.compile settings c skipSecurity = .ok q ↔
      searchedNames c r skipSecurity ≠ [] ∧
        q = ⟨QueryRequest.indicesOf (searchedNames c r skipSecurity),
          r.filters c (searchedNames c r skipSecurity) (!skipSecurity), r.asking settings⟩ := by
  rw [compile_eq]
  split
  · rename_i h
    simp [List.isEmpty_iff.mp h]
  · rename_i h
    rw [List.isEmpty_iff] at h
    simp only [Except.ok.injEq, ne_eq, h, not_false_eq_true, true_and]
    exact eq_comm

/-- An enforced policy compiles a request for its readable names, when there
are any. -/
theorem compile_enforced_iff {settings : Settings} {c : CallerContext} {r : QueryRequest}
    {q : SecuredQuery} :
    r.compile settings c = .ok q ↔
      readableNames c r ≠ [] ∧
        q = ⟨QueryRequest.indicesOf (readableNames c r), r.filters c (readableNames c r) true,
          r.asking settings⟩ := compile_eq_ok_iff

/-! ## The expressions of a compiled query -/

theorem mem_indicesOf (names : List String) (index : String) :
    index ∈ QueryRequest.indicesOf names ↔ ∃ name ∈ names, index = lower name := by
  unfold QueryRequest.indicesOf
  rw [List.mem_eraseDups, List.mem_map]
  constructor
  · rintro ⟨name, hname, rfl⟩
    exact ⟨name, hname, rfl⟩
  · rintro ⟨name, hname, rfl⟩
    exact ⟨name, hname, rfl⟩

theorem mem_expressions {names : List String} (h : names ≠ []) (e : String) :
    e ∈ expressions (QueryRequest.indicesOf names) ↔
      ∃ name ∈ names, ∃ piece ∈ commaPieces name, e = lower piece := by
  have hne : QueryRequest.indicesOf names ≠ [] := by
    obtain ⟨first, rest, rfl⟩ := List.exists_cons_of_ne_nil h
    exact List.ne_nil_of_mem ((mem_indicesOf _ _).mpr ⟨first, List.mem_cons_self, rfl⟩)
  unfold expressions
  rw [mem_commaPieces_intercalate hne]
  constructor
  · rintro ⟨index, hindex, he⟩
    obtain ⟨name, hname, rfl⟩ := (mem_indicesOf names index).mp hindex
    exact ⟨name, hname, (mem_commaPieces_lower name e).mp he⟩
  · rintro ⟨name, hname, he⟩
    exact ⟨lower name, (mem_indicesOf names _).mpr ⟨name, hname, rfl⟩,
      (mem_commaPieces_lower name e).mpr he⟩

/-- A compiled query addresses what the pieces of its names address. -/
theorem addressed_iff {names : List String} (h : names ≠ []) (index : String) :
    Addressed (QueryRequest.indicesOf names) index ↔
      IsIndexName index ∧ ∃ name ∈ names, ∃ piece ∈ commaPieces name,
        addresses (lower piece).toList index.toList = true := by
  constructor
  · rintro ⟨hindex, e, he, haddr⟩
    obtain ⟨name, hname, piece, hpiece, rfl⟩ := (mem_expressions h e).mp he
    exact ⟨hindex, name, hname, piece, hpiece, haddr⟩
  · rintro ⟨hindex, name, hname, piece, hpiece, haddr⟩
    exact ⟨hindex, lower piece, (mem_expressions h _).mpr ⟨name, hname, piece, hpiece, rfl⟩, haddr⟩

theorem no_comma_of_mem_commaPieces {name piece : String} (h : piece ∈ commaPieces name) :
    ',' ∉ piece.toList := not_mem_of_mem_splitOnP ((mem_commaPieces name piece).mp h)

/-! ## The clauses of the filters -/

theorem mem_filters (c : CallerContext) (r : QueryRequest) (names : List String) (enforce : Bool)
    (clause : Clause) :
    clause ∈ r.filters c names enforce ↔
      clause = .term "stateCode" (.int r.stateCode) ∨ clause ∈ r.identifierFilters ∨
        clause ∈ Policy.solutionFilters c names ∨ clause ∈ r.categoryFilters ∨
          clause ∈ Policy.scopeFilters c r.scope names enforce ∨ AskedFor r clause := by
  unfold QueryRequest.filters AskedFor
  simp only [List.mem_append, List.mem_singleton, List.mem_map, or_assoc]

/-- The filters for identifiers and categories say nothing about the tenant. -/
theorem not_tenant_of_mem_identifierFilters {r : QueryRequest} {field : String} {v : Json}
    (hid : field ≠ "id") : Clause.term field v ∉ r.identifierFilters := by
  unfold QueryRequest.identifierFilters
  cases r.id <;> cases r.ids <;> simp [hid]

theorem not_term_mem_categoryFilters (r : QueryRequest) (field : String) (v : Json) :
    Clause.term field v ∉ r.categoryFilters := by
  unfold QueryRequest.categoryFilters
  split <;> simp

theorem mem_solutionFilters (c : CallerContext) (names : List String) (clause : Clause) :
    clause ∈ Policy.solutionFilters c names ↔
      clause = ownerFilter c ∧ NamesConfiguration names := by
  unfold Policy.solutionFilters ownerFilter NamesConfiguration
  split
  · rename_i h
    simp only [List.any_eq_true, List.contains_iff_mem] at h
    simp [h]
  · rename_i h
    simp only [List.any_eq_true, List.contains_iff_mem] at h
    simp [h]

theorem onlySecrets_eq_false_iff {names : List String} (h : names ≠ []) :
    Policy.onlySecrets names = false ↔ NamesOther names := by
  unfold Policy.onlySecrets NamesOther
  simp [h]

/-- Without a scope, an enforced policy asks for the caller's organization
and nothing else, unless all names are the secret entity's. -/
theorem mem_scopeFilters_none (c : CallerContext) {names : List String} (h : names ≠ [])
    (clause : Clause) :
    clause ∈ Policy.scopeFilters c none names true ↔
      clause = Policy.organizationFilter c ∧ NamesOther names := by
  rw [← onlySecrets_eq_false_iff h]
  unfold Policy.scopeFilters
  cases Policy.onlySecrets names <;> simp

/-! ## A caller and a request -/

/-- A user of an organization that holds these privileges. -/
def callerWith (privileges : List (String × List String)) : CallerContext where
  solutionId := "sol-1"
  solutionOwnerId := some "owner-1"
  organizationId := "org-1"
  userId := "user-1"
  privileges := privileges

/-- A request for an entity that asks for nothing else. -/
def requestFor (entityName : String) : QueryRequest where
  entityName := entityName
  pageSize := 10
  highlightPreTag := "<b>"
  highlightPostTag := "</b>"

end TenantSearch
