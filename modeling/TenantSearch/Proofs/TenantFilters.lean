-- Which tenant filters a compiled query carries. The policy asks for them by
-- the first part of each name as a whole, while the engine may search other
-- entities behind a comma or a star, so the filters can fall short.
import TenantSearch.Proofs.CompiledQueries

namespace TenantSearch

open IndexTarget

/-! ## The pure model -/

/-- Some piece of a name reaches a configuration entity in the engine. -/
def ReachesConfiguration (names : List String) : Prop :=
  ∃ name ∈ names, ∃ piece ∈ commaPieces name, ∃ entity ∈ Policy.solutionOwned,
    reaches (lower piece).toList entity.toList = true

/-- Some piece of a name is not the secret entity's own. -/
def ReachesOther (names : List String) : Prop :=
  ∃ name ∈ names, ∃ piece ∈ commaPieces name, piece ≠ "" ∧ entityOf piece ≠ Policy.secretEntity

/-- A condition of the request itself says that a field equals a text. -/
def AsksThat (r : QueryRequest) (field text : String) : Prop :=
  ∃ condition ∈ r.conditions, (condition.op = .equals ∨ condition.op = .doubleEquals) ∧
    condition.fieldName = field ∧ condition.value = .str text

/-! ## Which tenant filters there are -/

theorem equalTo_eq_term_iff (field field' : String) (v : Json) (text : String) :
    Clause.equalTo field v = .term field' (.str text) ↔ field = field' ∧ v = .str text := by
  cases v <;> simp [Clause.equalTo]

/-- Only an equality with a text gives the clause that a field equals it. -/
theorem askedFor_term_iff (r : QueryRequest) (field text : String) :
    AskedFor r (.term field (.str text)) ↔ AsksThat r field text := by
  unfold AskedFor AsksThat
  constructor
  · rintro ⟨condition, hmem, h⟩
    refine ⟨condition, hmem, ?_⟩
    unfold Clause.ofCondition at h
    split at h
    all_goals rename_i hop
    · exact ⟨Or.inl hop, (equalTo_eq_term_iff _ _ _ _).mp h⟩
    · exact ⟨Or.inr hop, (equalTo_eq_term_iff _ _ _ _).mp h⟩
    · exact absurd h (by cases condition.value <;> simp [Clause.unequalTo])
    · exact absurd h (by cases condition.value <;> simp [Clause.unequalTo])
    · exact absurd h (by simp)
    · exact absurd h (by simp)
    · exact absurd h (by simp)
    · exact absurd h (by simp)
    · exact absurd h (by cases condition.value <;> simp [Clause.memberOf])
    · exact absurd h (by simp)
    · exact absurd h (by simp [Clause.textSearch])
  · rintro ⟨condition, hmem, hop, hfield⟩
    refine ⟨condition, hmem, ?_⟩
    have heq := (equalTo_eq_term_iff condition.fieldName field condition.value text).mpr hfield
    rcases hop with hop | hop
    · simpa [Clause.ofCondition, hop] using heq
    · simpa [Clause.ofCondition, hop] using heq

/-- Apart from the state and the identifiers, a field equals a text by the
policy or by a condition of the request. -/
theorem term_mem_filters_iff {field : String} (hstate : field ≠ "stateCode") (hid : field ≠ "id")
    (c : CallerContext) (r : QueryRequest) (names : List String) (enforce : Bool) (text : String) :
    .term field (.str text) ∈ r.filters c names enforce ↔
      .term field (.str text) ∈ Policy.solutionFilters c names ∨
        .term field (.str text) ∈ Policy.scopeFilters c r.scope names enforce ∨
          AsksThat r field text := by
  rw [mem_filters, askedFor_term_iff]
  have hidentifier := not_tenant_of_mem_identifierFilters (r := r) (v := .str text) hid
  have hcategory := not_term_mem_categoryFilters r field (.str text)
  simp only [Clause.term.injEq, hstate, false_and, hidentifier, hcategory, false_or]

theorem ownerFilter_not_mem_scopeFilters (c : CallerContext) (scope : Option Scope)
    (names : List String) (enforce : Bool) :
    ownerFilter c ∉ Policy.scopeFilters c scope names enforce := by
  unfold Policy.scopeFilters ownerFilter Policy.organizationFilter
  rcases scope with _ | scope
  · dsimp only
    split <;> simp
  · cases scope <;> simp

theorem ownerFilter_mem_filters_iff (c : CallerContext) (r : QueryRequest) (names : List String)
    (enforce : Bool) :
    ownerFilter c ∈ r.filters c names enforce ↔
      NamesConfiguration names ∨ AsksThat r "ownerId" c.solutionId := by
  have hscope := ownerFilter_not_mem_scopeFilters c r.scope names enforce
  have hsolution := mem_solutionFilters c names (ownerFilter c)
  unfold ownerFilter at *
  rw [term_mem_filters_iff (by decide) (by decide), hsolution]
  simp [hscope]

theorem organizationFilter_mem_filters_iff {c : CallerContext} {r : QueryRequest}
    {names : List String} (hne : names ≠ []) (hscope : r.scope = none) :
    Policy.organizationFilter c ∈ r.filters c names true ↔
      NamesOther names ∨ AsksThat r "organizationId" c.organizationId := by
  have hforced := mem_scopeFilters_none c hne (Policy.organizationFilter c)
  have hsolution := mem_solutionFilters c names (Policy.organizationFilter c)
  unfold Policy.organizationFilter ownerFilter at *
  rw [term_mem_filters_iff (by decide) (by decide), hscope, hforced, hsolution]
  simp

/-! ## Which entities are searched -/

theorem solutionOwned_nameable {entity : String} (h : entity ∈ Policy.solutionOwned) :
    entity.toList ≠ [] ∧ '_' ∉ entity.toList ∧
      ∀ c ∈ entity.toList, IsSmall c ∧ c ≠ ',' ∧ c ≠ '*' := by
  have hletters : (Policy.solutionOwned.all fun e => e.toList ≠ [] ∧
      (e.toList.all fun c => 97 ≤ c.toNat ∧ c.toNat < 128) = true) = true := by decide
  simp only [List.all_eq_true, decide_eq_true_eq] at hletters
  obtain ⟨hne, hall⟩ := hletters entity h
  refine ⟨hne, fun hu => absurd (hall _ hu).1 (by decide), fun c hc => ⟨?_, ?_, ?_⟩⟩
  · have := hall c hc
    exact IsSmall.of_code (by omega) (by omega) (by omega) (by omega)
  · rintro rfl
    exact absurd (hall _ hc).1 (by decide)
  · rintro rfl
    exact absurd (hall _ hc).1 (by decide)

theorem lower_no_comma {name piece : String} (h : piece ∈ commaPieces name) :
    ',' ∉ (lower piece).toList := by
  rw [toList_lower, isDivider_comma.mem_lowerChars]
  exact no_comma_of_mem_commaPieces h

theorem reachesConfiguration_iff {names : List String} (h : names ≠ []) :
    (∃ index, Addressed (QueryRequest.indicesOf names) index ∧
      entityOf index ∈ Policy.solutionOwned) ↔ ReachesConfiguration names := by
  constructor
  · rintro ⟨index, haddr, howned⟩
    obtain ⟨hindex, name, hname, piece, hpiece, hmatch⟩ := (addressed_iff h index).mp haddr
    obtain ⟨hne, hu, hentity⟩ := solutionOwned_nameable howned
    refine ⟨name, hname, piece, hpiece, _, howned, ?_⟩
    rw [reaches_iff (lower_no_comma hpiece) hne hu hentity]
    exact ⟨index, hindex, hmatch, (toList_entityOf_of_isIndexName hindex).symm⟩
  · rintro ⟨name, hname, piece, hpiece, entity, howned, hreach⟩
    obtain ⟨hne, hu, hentity⟩ := solutionOwned_nameable howned
    obtain ⟨index, hindex, hmatch, hpart⟩ :=
      (reaches_iff (lower_no_comma hpiece) hne hu hentity).mp hreach
    refine ⟨index, (addressed_iff h index).mpr ⟨hindex, name, hname, piece, hpiece, hmatch⟩, ?_⟩
    rw [← toList_entityOf_of_isIndexName hindex, String.toList_inj] at hpart
    rwa [hpart]

theorem mem_toList_secretEntity {c : Char} (h : c ∈ Policy.secretEntity.toList) :
    c ≠ 'z' ∧ c ≠ '*' := by
  have hall : (Policy.secretEntity.toList.all fun c => c ≠ 'z' ∧ c ≠ '*') = true := by decide
  simp only [List.all_eq_true, decide_eq_true_eq] at hall
  exact hall c h

/-- A piece stands for the secrets alone exactly when its own first part
does: with a star there, it also addresses what has other letters. -/
theorem exists_other_iff {piece : String} (hcomma : ',' ∉ (lower piece).toList) :
    (∃ index, IsIndexName index ∧ addresses (lower piece).toList index.toList = true ∧
      entityOf index ≠ Policy.secretEntity) ↔
      piece ≠ "" ∧ entityOf piece ≠ Policy.secretEntity := by
  constructor
  · rintro ⟨index, hindex, hmatch, hother⟩
    constructor
    · rintro rfl
      have hnil : index.toList = (lower "").toList := eq_of_addresses (by decide) hmatch
      exact hindex.nonempty (String.toList_inj.mp hnil)
    · intro hsecret
      have hchars : (entityOf piece).toList = entityPart (lower piece) := by
        rw [toList_entityOf, entityPart_lower]
      have hstar : '*' ∉ entityPart (lower piece) := by
        rw [← hchars, hsecret]
        exact fun h => (mem_toList_secretEntity h).2 rfl
      have hpart : entityPart index = entityPart (lower piece) :=
        takeWhile_of_addresses hstar hmatch
      rw [← hchars, ← toList_entityOf_of_isIndexName hindex, String.toList_inj] at hpart
      exact hother (hpart.trans hsecret)
  · rintro ⟨hne, hother⟩
    have hindex := isIndexName_stretched 0 (by
      rwa [toList_lower, isDivider_comma.mem_lowerChars] at hcomma) hne
    refine ⟨_, hindex, ?_, ?_⟩
    · unfold stretched
      rw [String.toList_ofList]
      exact addresses_filled _ _
    · intro hsecret
      have hpart := toList_entityOf_of_isIndexName hindex
      rw [hsecret, entityPart_stretched] at hpart
      by_cases hstar : '*' ∈ entityPart (lower piece)
      · have hz : 'z' ∈ Policy.secretEntity.toList := by
          rw [hpart]
          exact (subset_filled _ hstar).subset (by simp)
        exact (mem_toList_secretEntity hz).1 rfl
      · rw [filled_of_no_star _ hstar, entityPart_lower, ← toList_entityOf,
          String.toList_inj] at hpart
        exact hother hpart.symm

theorem reachesOther_iff {names : List String} (h : names ≠ []) :
    (∃ index, Addressed (QueryRequest.indicesOf names) index ∧
      entityOf index ≠ Policy.secretEntity) ↔ ReachesOther names := by
  constructor
  · rintro ⟨index, haddr, hother⟩
    obtain ⟨hindex, name, hname, piece, hpiece, hmatch⟩ := (addressed_iff h index).mp haddr
    exact ⟨name, hname, piece, hpiece,
      (exists_other_iff (lower_no_comma hpiece)).mp ⟨index, hindex, hmatch, hother⟩⟩
  · rintro ⟨name, hname, piece, hpiece, hpieceOther⟩
    obtain ⟨index, hindex, hmatch, hother⟩ :=
      (exists_other_iff (lower_no_comma hpiece)).mpr hpieceOther
    exact ⟨index, (addressed_iff h index).mpr ⟨hindex, name, hname, piece, hpiece, hmatch⟩, hother⟩

/-! ## The laws -/

/-- The tenant filters follow what the engine searches exactly when they
follow what the policy reads: where a piece reaches a configuration entity,
some name stands for one as a whole, and where a piece leaves the secrets,
some name does; or the request itself asks for what is missing. -/
theorem tenant_filters_follow_the_search_iff {settings : Settings} {c : CallerContext}
    {r : QueryRequest} {q : SecuredQuery} (h : r.compile settings c = .ok q) :
    (((∃ index, Addressed q.indices index ∧ entityOf index ∈ Policy.solutionOwned) →
        ownerFilter c ∈ q.filters) ∧
      (r.scope = none →
        (∃ index, Addressed q.indices index ∧ entityOf index ≠ Policy.secretEntity) →
          Policy.organizationFilter c ∈ q.filters)) ↔
    ((ReachesConfiguration (readableNames c r) →
        NamesConfiguration (readableNames c r) ∨ AsksThat r "ownerId" c.solutionId) ∧
      (r.scope = none → ReachesOther (readableNames c r) →
        NamesOther (readableNames c r) ∨ AsksThat r "organizationId" c.organizationId)) := by
  obtain ⟨hne, rfl⟩ := compile_enforced_iff.mp h
  dsimp only
  rw [reachesConfiguration_iff hne, reachesOther_iff hne, ownerFilter_mem_filters_iff]
  refine and_congr_right fun _ => forall_congr' fun hscope => ?_
  rw [organizationFilter_mem_filters_iff hne hscope]

/-- A caller that may read everything, but owns nothing. -/
def everythingReader : CallerContext := callerWith [("*", ["read"])]

/-- The events together with the sites of all subtypes. -/
def eventsAndSites : QueryRequest :=
  { requestFor "Event" with indexNames := ["Site_*"] }

theorem tenant_filters_follow_events_and_sites :
    eventsAndSites.compile {} everythingReader =
        .ok ⟨["site_*", "event"], eventsAndSites.filters everythingReader ["Site_*", "Event"] true,
          eventsAndSites.asking {}⟩ ∧
      ((∃ index, Addressed ["site_*", "event"] index ∧ entityOf index ∈ Policy.solutionOwned) →
        ownerFilter everythingReader ∈
          eventsAndSites.filters everythingReader ["Site_*", "Event"] true) := by
  have hcompile : eventsAndSites.compile {} everythingReader =
      .ok ⟨["site_*", "event"], eventsAndSites.filters everythingReader ["Site_*", "Event"] true,
        eventsAndSites.asking {}⟩ := rfl
  have hnames : readableNames everythingReader eventsAndSites = ["Site_*", "Event"] := rfl
  refine ⟨hcompile, ((tenant_filters_follow_the_search_iff hcompile).mpr ?_).1⟩
  rw [hnames]
  exact ⟨fun _ => Or.inl (by decide), fun _ _ => Or.inl (by decide)⟩

/-- A caller that may read the secrets and nothing else. -/
def secretReader : CallerContext := callerWith [("Secret", ["read"])]

/-- The secrets of a subtype that has a comma and a configuration entity's
name. -/
def secretsAndSites : QueryRequest :=
  { requestFor "Secret" with entityType := some "x,Site" }

/-- The sites of every solution and organization are searched: the name as a
whole stands for the secrets, so neither tenant filter is asked for. -/
theorem a_comma_after_the_secrets_drops_both_tenant_filters :
    ∃ q, secretsAndSites.compile {} secretReader = .ok q ∧ secretsAndSites.scope = none ∧
      Addressed q.indices "site" ∧ entityOf "site" ∈ Policy.solutionOwned ∧
      entityOf "site" ≠ Policy.secretEntity ∧ ownerFilter secretReader ∉ q.filters ∧
      Policy.organizationFilter secretReader ∉ q.filters := by
  have hfilters : secretsAndSites.filters secretReader ["Secret_x,Site"] true =
      [.term "stateCode" (.int 0)] := rfl
  refine ⟨⟨["secret_x,site"], secretsAndSites.filters secretReader ["Secret_x,Site"] true,
    secretsAndSites.asking {}⟩, rfl, rfl, ⟨⟨by decide, by decide, by decide, by decide⟩, "site",
    by decide, by decide⟩, by decide, by decide, ?_, ?_⟩
  · rw [hfilters]
    simp [ownerFilter]
  · rw [hfilters]
    simp [Policy.organizationFilter]

/-- A query without a scope carries a filter of its caller's tenant exactly
when some name that it searches stands for another entity than the secrets,
or the request asks for such a filter itself. -/
theorem a_tenant_filter_is_there_iff {settings : Settings} {c : CallerContext} {r : QueryRequest}
    {q : SecuredQuery} (hscope : r.scope = none) (h : r.compile settings c = .ok q) :
    (Policy.organizationFilter c ∈ q.filters ∨ ownerFilter c ∈ q.filters) ↔
      NamesOther (readableNames c r) ∨ AsksThat r "organizationId" c.organizationId ∨
        AsksThat r "ownerId" c.solutionId := by
  obtain ⟨hne, rfl⟩ := compile_enforced_iff.mp h
  dsimp only
  rw [organizationFilter_mem_filters_iff hne hscope, ownerFilter_mem_filters_iff]
  have hother : NamesConfiguration (readableNames c r) → NamesOther (readableNames c r) := by
    rintro ⟨name, hname, howned⟩
    refine ⟨name, hname, fun hsecret => ?_⟩
    rw [hsecret] at howned
    exact absurd howned (by decide)
  constructor
  · rintro ((ho | ha) | (hc | ha))
    · exact Or.inl ho
    · exact Or.inr (Or.inl ha)
    · exact Or.inl (hother hc)
    · exact Or.inr (Or.inr ha)
  · rintro (ho | ha | ha)
    · exact Or.inl (Or.inl ho)
    · exact Or.inl (Or.inr ha)
    · exact Or.inr (Or.inr ha)

theorem events_and_sites_carry_a_tenant_filter :
    eventsAndSites.scope = none ∧
      eventsAndSites.compile {} everythingReader =
        .ok ⟨["site_*", "event"], eventsAndSites.filters everythingReader ["Site_*", "Event"] true,
          eventsAndSites.asking {}⟩ ∧
      (Policy.organizationFilter everythingReader ∈
          eventsAndSites.filters everythingReader ["Site_*", "Event"] true ∨
        ownerFilter everythingReader ∈
          eventsAndSites.filters everythingReader ["Site_*", "Event"] true) := by
  have hcompile : eventsAndSites.compile {} everythingReader =
      .ok ⟨["site_*", "event"], eventsAndSites.filters everythingReader ["Site_*", "Event"] true,
        eventsAndSites.asking {}⟩ := rfl
  have hnames : readableNames everythingReader eventsAndSites = ["Site_*", "Event"] := rfl
  refine ⟨rfl, hcompile, (a_tenant_filter_is_there_iff rfl hcompile).mpr ?_⟩
  rw [hnames]
  exact Or.inl (by decide)

/-- The secrets of the caller's solution, or so it seems. -/
def plainSecrets : QueryRequest := requestFor "Secret"

/-- The secrets of every solution are searched: the policy leaves the
organization out for them and never asks for the solution. -/
theorem a_query_for_secrets_carries_no_tenant_filter :
    ∃ q, plainSecrets.compile {} secretReader = .ok q ∧ plainSecrets.scope = none ∧
      Policy.organizationFilter secretReader ∉ q.filters ∧ ownerFilter secretReader ∉ q.filters := by
  have hfilters : plainSecrets.filters secretReader ["Secret"] true =
      [.term "stateCode" (.int 0)] := rfl
  refine ⟨⟨["secret"], plainSecrets.filters secretReader ["Secret"] true,
    plainSecrets.asking {}⟩, rfl, rfl, ?_, ?_⟩
  · rw [hfilters]
    simp [Policy.organizationFilter]
  · rw [hfilters]
    simp [ownerFilter]

end TenantSearch
