-- Index names are folded to lower case after they are checked. No verdict on a
-- name depends on its case, so the folding never lets a name that was refused
-- stand for one that was allowed, and a request for an entity is compiled for
-- the very index that its records are written to last.
import TenantSearch.Proofs.CompiledQueries
import TenantSearch.Proofs.NormalRequests

namespace TenantSearch

open IndexTarget

/-! ## The pure model -/

/-- Two index names that every rule takes for the same. -/
structure SameStanding (c : CallerContext) (n m : String) : Prop where
  read : c.canRead (.parse n) = c.canRead (.parse m)
  configuration : entityOf n ∈ Policy.solutionOwned ↔ entityOf m ∈ Policy.solutionOwned
  secret : entityOf n = Policy.secretEntity ↔ entityOf m = Policy.secretEntity

/-- Each of the names once, in the order in which they first come. -/
structure InFirstOrder (names kept : List String) : Prop where
  mem : ∀ name, name ∈ kept ↔ name ∈ names
  nodup : kept.Nodup
  ordered : kept.Pairwise fun a b => names.idxOf a < names.idxOf b

/-- The fields of a request for an entity, with a subtype that is not blank or
with none. -/
structure AsksFor (fields : Fields) (entityName : String) (subtype : Option String) : Prop where
  entity : ∃ spelling,
    QueryRequest.entityNameField.find? fields = some (spelling, .str entityName)
  trimmed : trim entityName = entityName
  notBlank : NotBlank subtype
  given : ((QueryRequest.entityTypeField.find? fields).map (·.2)).getD .null = .ofText? subtype

/-- The index name of an entity or of one of its subtypes. -/
def ownName (entityName : String) : Option String → String
  | some subtype => entityName ++ "_" ++ subtype
  | none => entityName

/-! ## Folding -/

theorem SameStanding.of_lower {n m : String} (h : lower n = lower m) (c : CallerContext) :
    SameStanding c n m := by
  have hentity : entityOf n = entityOf m := by
    rw [← entityOf_lower n, h, entityOf_lower]
  refine ⟨?_, by rw [hentity], by rw [hentity]⟩
  have hread : Policy.mayRead c n = Policy.mayRead c m := by
    rw [← mayRead_lower c n, h, mayRead_lower]
  exact hread

theorem InFirstOrder.nil : InFirstOrder [] [] :=
  ⟨fun _ => Iff.rfl, List.nodup_nil, List.Pairwise.nil⟩

/-- One more name takes its place at the end, unless it is there already. -/
theorem InFirstOrder.snoc {names kept : List String} (h : InFirstOrder names kept)
    (name : String) :
    InFirstOrder (names ++ [name]) (if name ∈ names then kept else kept ++ [name]) := by
  have hplace {a : String} (ha : a ∈ kept) : (names ++ [name]).idxOf a = names.idxOf a :=
    List.idxOf_append_of_mem ((h.mem a).mp ha)
  have hordered : kept.Pairwise fun a b =>
      (names ++ [name]).idxOf a < (names ++ [name]).idxOf b := by
    refine h.ordered.imp_of_mem ?_
    intro a b ha hb hab
    rwa [hplace ha, hplace hb]
  by_cases hin : name ∈ names
  · rw [if_pos hin]
    refine ⟨?_, h.nodup, hordered⟩
    intro a
    rw [h.mem, List.mem_append, List.mem_singleton]
    constructor
    · exact Or.inl
    · rintro (ha | rfl)
      · exact ha
      · exact hin
  · rw [if_neg hin]
    have hnew : name ∉ kept := mt (h.mem name).mp hin
    refine ⟨?_, ?_, ?_⟩
    · intro a
      rw [List.mem_append, List.mem_append, h.mem]
    · rw [List.nodup_append]
      refine ⟨h.nodup, by simp, ?_⟩
      intro a ha b hb hab
      rw [List.mem_singleton] at hb
      exact hnew (hb ▸ hab ▸ ha)
    · rw [List.pairwise_append]
      refine ⟨hordered, List.pairwise_singleton _ _, ?_⟩
      intro a ha b hb
      rw [List.mem_singleton] at hb
      rw [hplace ha, hb, List.idxOf_append, if_neg hin]
      have hlt := List.idxOf_lt_length_of_mem ((h.mem a).mp ha)
      omega

theorem inFirstOrder_eraseDups (names : List String) : InFirstOrder names names.eraseDups := by
  induction names using List.reverseRecOn with
  | nil => exact InFirstOrder.nil
  | append_singleton names name ih =>
    have hsnoc := ih.snoc name
    rw [List.eraseDups_append]
    by_cases hin : name ∈ names
    · simpa [List.removeAll, hin] using hsnoc
    · simpa [List.removeAll, List.eraseDups_cons, hin] using hsnoc

/-- A readable name and no other is among the expressions of a compiled
query: a name of the same spelling but for case has the same verdict. -/
theorem lower_mem_indicesOf_iff {c : CallerContext} {r : QueryRequest} {name : String}
    (h : name ∈ Policy.indexTargets r) :
    lower name ∈ QueryRequest.indicesOf (readableNames c r) ↔ c.canRead (.parse name) = true := by
  rw [mem_indicesOf]
  constructor
  · rintro ⟨other, hother, hlower⟩
    rw [(SameStanding.of_lower hlower c).read]
    exact ((mem_readableNames c r other).mp hother).2
  · intro hread
    exact ⟨name, (mem_readableNames c r name).mpr ⟨h, hread⟩, rfl⟩

/-! ## The index of a request -/

theorem getLast?_indexTargets (r : QueryRequest) :
    (Policy.indexTargets r).getLast? = some (ownName r.entityName r.entityType) := by
  unfold Policy.indexTargets
  rw [List.getLast?_append]
  rfl

/-- The index of an entity or of a subtype that is not blank. -/
theorem getLast?_writeTargets (entityName : String) {subtype : Option String}
    (h : NotBlank subtype) :
    (writeTargets entityName (.ofText? subtype)).getLast?.map name =
      some (lower (ownName entityName subtype)) := by
  cases subtype with
  | none => rfl
  | some s =>
    have hgiven : (Json.ofText? (some s)).given = true := by
      have hne : s ≠ "" := ne_empty_of_not_blank h
      simpa [Json.ofText?, Json.given, String.isEmpty_iff] using hne
    unfold writeTargets
    rw [if_pos hgiven]
    simp only [List.getLast?_cons_cons, List.getLast?_singleton, Option.map_some, name, hgiven,
      if_true]
    rfl

theorem AsksFor.accepted {fields : Fields} {entityName : String} {subtype : Option String}
    (h : AsksFor fields entityName subtype) {defaults : Settings.FormDefaults}
    {settings : Settings} {g : GuidSupply} {r : QueryRequest}
    (hr : r.AcceptedFrom defaults settings fields g) :
    r.entityName = entityName ∧ r.entityType = subtype := by
  obtain ⟨spelling, hentity⟩ := h.entity
  constructor
  · rcases FieldName.check_eq_accepted.mp hr.entityName with ⟨_, v, hv, hgiven⟩ | ⟨hnone, -⟩
    · rw [hentity] at hv
      cases hv
      obtain ⟨s, hs, -, -, htrim⟩ := QueryRequest.checkEntityName_eq_accepted.mp hgiven
      cases hs
      rw [← htrim, h.trimmed]
    · rw [hentity] at hnone
      cases hnone
  · have hsubtype := h.given
    rcases FieldName.check_eq_accepted.mp hr.entityType with ⟨_, v, hv, hgiven⟩ | ⟨hnone, habsent⟩
    · rw [hv] at hsubtype
      obtain rfl : v = .ofText? subtype := hsubtype
      rw [QueryRequest.checkOptional_written h.notBlank] at hgiven
      exact (Checked.accepted.inj hgiven).symm
    · rw [hnone] at hsubtype
      rw [← Option.some.inj habsent]
      cases subtype with
      | none => rfl
      | some s => cases hsubtype

/-- Index names that differ in case only have the same standing with every
caller. So a compiled query has the lower case of a name exactly when that very
name may be read, and its expressions are the readable names in lower case,
each once and in their order. A request for an entity, or for a subtype of it,
stands for the last of the indices that its records are written to. -/
theorem names_fold_with_their_standing (settings : Settings) (c : CallerContext) :
    (∀ n m, lower n = lower m → SameStanding c n m) ∧
    (∀ r q, r.compile settings c = .ok q →
      (∀ name ∈ Policy.indexTargets r,
        lower name ∈ q.indices ↔ c.canRead (.parse name) = true) ∧
      InFirstOrder ((readableNames c r).map lower) q.indices) ∧
    ∀ defaults fields g r entityName subtype,
      (QueryRequest.check defaults settings (.obj fields) g).1 = .ok (.accepted r) →
      AsksFor fields entityName subtype →
      (Policy.indexTargets r).getLast?.map lower =
        (writeTargets entityName (.ofText? subtype)).getLast?.map name := by
  refine ⟨fun n m h => SameStanding.of_lower h c, ?_, ?_⟩
  · intro r q hq
    obtain ⟨-, rfl⟩ := compile_enforced_iff.mp hq
    exact ⟨fun name hname => lower_mem_indicesOf_iff hname, inFirstOrder_eraseDups _⟩
  · intro defaults fields g r entityName subtype hcheck hasks
    obtain ⟨hname, htype⟩ := hasks.accepted (QueryRequest.check_eq_accepted.mp hcheck)
    rw [getLast?_indexTargets, getLast?_writeTargets entityName hasks.notBlank, hname, htype]
    rfl

/-- A request for concerts that names them in another spelling, and secrets. -/
def loudRequest : Fields :=
  [("entityName", .str "EVENT"), ("entityType", .str "Concert"),
    ("indexNames", .arr [.str "event_CONCERT", .str "Secret"])]

/-- What the request is brought to. -/
def loudConcerts : QueryRequest :=
  { requestFor "EVENT" with
    entityType := some "Concert"
    indexNames := ["event_CONCERT", "Secret"]
    highlightPreTag := "<span class=\"search-highlight\">"
    highlightPostTag := "</span>" }

/-- A reader of events gets both spellings as one index, and no secrets. -/
theorem loud_names_fold_into_one :
    SameStanding (callerWith [("Event", ["read"])]) "event_CONCERT" "EVENT_Concert" ∧
      (∃ q, loudConcerts.compile {} (callerWith [("Event", ["read"])]) = .ok q ∧
        q.indices = ["event_concert"] ∧ "secret" ∉ q.indices ∧
        InFirstOrder ["event_concert", "event_concert"] q.indices) ∧
      (Policy.indexTargets loudConcerts).getLast?.map lower =
        (writeTargets "EVENT" (.str "Concert")).getLast?.map name := by
  have hcheck : (QueryRequest.check {} {} (.obj loudRequest) .fresh).1 =
    .ok (.accepted loudConcerts) := rfl
  have hasks : AsksFor loudRequest "EVENT" (some "Concert") :=
    ⟨⟨"entityName", rfl⟩, by decide, rfl, rfl⟩
  obtain ⟨hfold, hcompile, hlast⟩ :=
    names_fold_with_their_standing {} (callerWith [("Event", ["read"])])
  refine ⟨hfold _ _ (by decide +kernel), ⟨_, rfl, by decide +kernel, ?_, ?_⟩, ?_⟩
  · have hsecret := (hcompile loudConcerts _ rfl).1 "Secret" (by decide)
    exact fun h => absurd (hsecret.mp h) (by decide +kernel)
  · exact (hcompile loudConcerts _ rfl).2
  · exact hlast _ _ _ _ _ _ hcheck hasks

end TenantSearch
