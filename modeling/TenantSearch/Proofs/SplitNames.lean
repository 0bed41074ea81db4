-- What it takes to search the indices of a record. The name of an index is
-- taken apart at its first underscore, so an entity with an underscore in its
-- name is searched with the rights on another entity.
import TenantSearch.Proofs.LaterPrivileges
import TenantSearch.Proofs.ReservedIndices
import TenantSearch.Proofs.WrittenCopies

namespace TenantSearch

/-! ## The pure model -/

/-- A caller gets an index searched: among the names of some request is one of
this index that it may read. -/
def Searches (c : CallerContext) (index : String) : Prop :=
  ∃ names kept name, Policy.readableTargets c names = .ok kept ∧ name ∈ kept ∧ lower name = index

/-- What a document is about: its entity with its subtype. -/
def Fields.about (fields : Fields) (entityName : String) : IndexTarget :=
  ⟨entityName, (fields.look "entityType").orNull⟩

/-! ## Names that are kept -/

theorem mem_readableTargets {c : CallerContext} {names kept : List String} {name : String}
    (h : Policy.readableTargets c names = .ok kept) (hname : name ∈ kept) :
    Policy.mayRead c name = true := by
  unfold Policy.readableTargets at h
  dsimp only at h
  split at h
  · cases h
  · cases h
    exact (List.mem_filter.mp hname).2

theorem readableTargets_singleton {c : CallerContext} {name : String}
    (h : Policy.mayRead c name = true) : Policy.readableTargets c [name] = .ok [name] := by
  unfold Policy.readableTargets
  rw [List.filter_cons_of_pos h]
  rfl

theorem searches_iff {c : CallerContext} {name : String} :
    Searches c (lower name) ↔ Policy.mayRead c name = true := by
  constructor
  · rintro ⟨names, kept, other, hkept, hother, hlower⟩
    rw [← mayRead_lower, ← hlower, mayRead_lower]
    exact mem_readableTargets hkept hother
  · intro h
    exact ⟨[name], [name], name, readableTargets_singleton h, List.mem_singleton.mpr rfl, rfl⟩

/-! ## Names that are taken apart -/

theorem entityOf_eq_lower_iff (name : String) :
    IndexTarget.entityOf name = lower name ↔ '_' ∉ name.toList := by
  rw [← String.toList_inj, IndexTarget.toList_entityOf, toList_lower]
  constructor
  · intro h hmem
    have hlower : '_' ∈ lowerChars name.toList := isDivider_underscore.mem_lowerChars.mpr hmem
    rw [← h, isDivider_underscore.mem_lowerChars] at hlower
    exact absurd (List.mem_takeWhile_imp hlower) (by decide)
  · intro h
    unfold IndexTarget.entityPart
    rw [takeWhile_ne_of_not_mem h]

theorem underscore_not_mem_entityOf (name : String) :
    '_' ∉ (IndexTarget.entityOf name).toList := by
  rw [IndexTarget.toList_entityOf, isDivider_underscore.mem_lowerChars]
  intro hmem
  exact absurd (List.mem_takeWhile_imp hmem) (by decide)

theorem underscore_mem_name {t : IndexTarget} (h : '_' ∈ t.entityName.toList) :
    '_' ∈ t.name.toList := by
  unfold IndexTarget.name
  split
  · rw [toList_lower, isDivider_underscore.mem_lowerChars]
    simp
  · rwa [toList_lower, isDivider_underscore.mem_lowerChars]

theorem lower_name (t : IndexTarget) : lower t.name = t.name := by
  unfold IndexTarget.name
  split
  · exact lower_lower _
  · exact lower_lower _

/-! ## The indices of an entity -/

section

variable {c : CallerContext} {entityName : String} {entityType : Json} {t : IndexTarget}

theorem name_writeTarget (h : t ∈ IndexTarget.writeTargets entityName entityType) :
    t.name = lower entityName ∨ t.name = IndexTarget.name ⟨entityName, entityType⟩ := by
  unfold IndexTarget.writeTargets at h
  split at h
  · rw [List.mem_cons, List.mem_singleton] at h
    rcases h with rfl | rfl
    · exact Or.inl rfl
    · exact Or.inr rfl
  · rw [List.mem_singleton.mp h]
    exact Or.inl rfl

/-- Who may not read an entity gets its indices searched all the same with a
right on the part of its name before the first underscore. -/
theorem searches_of_no_right (h : t ∈ IndexTarget.writeTargets entityName entityType)
    (hno : c.canRead ⟨entityName, entityType⟩ = false) :
    Searches c t.name ↔ c.reads (IndexTarget.entityOf entityName) = true := by
  rw [canRead_eq] at hno
  simp only [Bool.or_eq_false_iff] at hno
  obtain ⟨howner, hname, hentity, hall⟩ := hno
  have hreadsAll : c.readsAll = false := by
    unfold CallerContext.readsAll
    rw [howner, hall]
    rfl
  have hwhole : c.reads t.name = false := by
    rcases name_writeTarget h with heq | heq
    · rw [heq, hentity]
    · rw [heq, hname]
  rw [← lower_name t, searches_iff, mayRead_iff, entityOf_writeTarget h, lower_name, hwhole,
    hreadsAll]
  simp

theorem isSolutionOwner_callerWith (privileges : List (String × List String)) :
    (callerWith privileges).isSolutionOwner = false := by
  change (!"owner-1".isEmpty && lower "owner-1" == lower "user-1") = false
  decide

/-- A caller with one privilege to read reads under its name only. -/
theorem reads_callerWith (name other : String) :
    (callerWith [(name, ["read"])]).reads other = true ↔ lower name = other := by
  have hright : HasRight (name, ["read"]) readRights :=
    ⟨"read", List.mem_singleton.mpr rfl, by decide⟩
  rw [reads_iff]
  constructor
  · rintro ⟨p, hp, hname, -⟩
    obtain rfl := counts_singleton_iff.mp hp
    exact hname
  · intro hname
    exact ⟨_, counts_singleton_iff.mpr rfl, hname, hright⟩

/-- No more is needed to read an entity than to search its indices exactly
where its name holds no underscore, or where the part before it stands for
everything. -/
theorem canRead_of_searches_iff (h : t ∈ IndexTarget.writeTargets entityName entityType) :
    (∀ c, Searches c t.name → c.canRead ⟨entityName, entityType⟩ = true) ↔
      '_' ∉ entityName.toList ∨ IndexTarget.entityOf entityName = anyEntity := by
  constructor
  · intro hall
    by_contra hcon
    rw [not_or, not_not] at hcon
    obtain ⟨hunderscore, hany⟩ := hcon
    let c := callerWith [(IndexTarget.entityOf entityName, ["read"])]
    have howner : c.isSolutionOwner = false := isSolutionOwner_callerWith _
    have hreads (name : String) : c.reads name = true ↔ IndexTarget.entityOf entityName = name := by
      rw [reads_callerWith]
      exact Eq.congr_left (lower_lower _)
    have hother (t : IndexTarget) (ht : t.entityName = entityName) : c.reads t.name = false := by
      rw [← Bool.not_eq_true, hreads]
      intro heq
      apply underscore_not_mem_entityOf entityName
      rw [heq]
      exact underscore_mem_name (ht ▸ hunderscore)
    have hno : c.canRead ⟨entityName, entityType⟩ = false := by
      have hentity : c.reads (lower entityName) = false := hother ⟨entityName, .null⟩ rfl
      have hall : c.reads anyEntity = false := by
        rw [← Bool.not_eq_true, hreads]
        exact hany
      rw [canRead_eq, howner, hother _ rfl, hentity, hall]
      rfl
    have hsearches : Searches c t.name := (searches_of_no_right h hno).mpr ((hreads _).mpr rfl)
    rw [hall c hsearches] at hno
    cases hno
  · intro hname c hsearches
    by_contra hno
    rw [Bool.not_eq_true] at hno
    have hreads := (searches_of_no_right h hno).mp hsearches
    rw [canRead_eq] at hno
    rcases hname with hname | hname
    · rw [(entityOf_eq_lower_iff entityName).mpr hname] at hreads
      simp [hreads] at hno
    · rw [hname] at hreads
      simp [hreads] at hno

end

/-- A document that is put is a projection of the one handed in, at its place. -/
theorem isPlaced_of_put {w : World} {document : Fields} {index : String} {id : Json}
    {fields : Fields} (h : Call.engine (.put index id fields) ∈
      w.callsSince ((Indexing.upsert document).runIn w).2) : IsPlaced document index id fields := by
  have hwithin : (Indexing.upsert document).Within (placing document) :=
    upsert_within (placing_frees document) fun _ _ _ hplaced => hplaced
  have hmade : World.Made (placing document).allows w ((Indexing.upsert document).runIn w).2 :=
    (hwithin.leads (World.made_upheld _ w) (World.Made.refl _ w)).2
  exact hmade.all _ h

theorem exists_put {calls : List Call} {index : String}
    (h : index ∈ calls.filterMap Call.putIndex?) :
    ∃ id fields, Call.engine (.put index id fields) ∈ calls := by
  obtain ⟨c, hc, hindex⟩ := List.mem_filterMap.mp h
  obtain ⟨id, fields, rfl⟩ := Call.putIndex?_eq_some.mp hindex
  exact ⟨id, fields, hc⟩

theorem about_of_put {w : World} {document : Fields} {index : String} {id : Json}
    {fields : Fields} (h : Call.engine (.put index id fields) ∈
      w.callsSince ((Indexing.upsert document).runIn w).2) :
    fields.look "entityName" = document.look "entityName" ∧ fields.about = document.about := by
  have hprojection := (isPlaced_of_put h).projection
  refine ⟨hprojection.look (by decide), ?_⟩
  unfold Fields.about
  rw [hprojection.look (by decide)]

/-- Of every document that indexing puts into an index, whatever the outside
world answers: whoever gets the index searched may read the document's own
entity, for all callers exactly when the name of that entity holds no
underscore or the part before it stands for everything. A caller that may not
read the entity gets the index searched exactly when it holds a right to read
under the part of the name before the first underscore. -/
theorem a_search_takes_the_right_to_read_iff (w : World) (document : Fields) (index : String)
    (id : Json) (fields : Fields) (hput : Call.engine (.put index id fields) ∈
      w.callsSince ((Indexing.upsert document).runIn w).2) :
    ∃ entityName, fields.look "entityName" = .str entityName ∧
      ((∀ c, Searches c index → c.canRead (fields.about entityName) = true) ↔
        '_' ∉ entityName.toList ∨ IndexTarget.entityOf entityName = anyEntity) ∧
      ∀ c : CallerContext, c.canRead (fields.about entityName) = false →
        (Searches c index ↔ c.reads (IndexTarget.entityOf entityName) = true) := by
  obtain ⟨hlook, habout⟩ := about_of_put hput
  obtain ⟨entityName, hname, -, t, ht, rfl⟩ := (isPlaced_of_put hput).target
  rw [hlook, habout]
  exact ⟨entityName, hname, canRead_of_searches_iff ht, fun c hno => searches_of_no_right ht hno⟩

/-- Nobody gets concerts searched without the right to read them. -/
theorem concerts_take_the_right_to_read_them :
    ∃ id fields, Call.engine (.put "event_concert" id fields) ∈ (World.empty morning).callsSince
        ((Indexing.upsert concert).runIn (.empty morning)).2 ∧
      ∀ c, Searches c "event_concert" → c.canRead (fields.about "Event") = true := by
  have hindex : "event_concert" ∈ ((World.empty morning).callsSince
      ((Indexing.upsert concert).runIn (.empty morning)).2).filterMap Call.putIndex? := by
    decide +kernel
  obtain ⟨id, fields, hput⟩ := exists_put hindex
  obtain ⟨entityName, hname, hsafe, -⟩ := a_search_takes_the_right_to_read_iff _ _ _ _ _ hput
  rw [(about_of_put hput).1] at hname
  obtain rfl : "Event" = entityName := Json.str.inj hname
  exact ⟨id, fields, hput, hsafe.mpr (Or.inl (by decide))⟩

/-- An event whose entity has an underscore in its name. -/
def underscoredEvent : Fields := [("id", .str "e-1"), ("entityName", .str "Event_Concert")]

/-- The right to read events gets the other entity searched. -/
theorem an_underscored_entity_is_searched_with_another_right :
    ∃ id fields, Call.engine (.put "event_concert" id fields) ∈ (World.empty morning).callsSince
        ((Indexing.upsert underscoredEvent).runIn (.empty morning)).2 ∧
      fields.look "entityName" = .str "Event_Concert" ∧
      Searches (callerWith [("Event", ["read"])]) "event_concert" ∧
      (callerWith [("Event", ["read"])]).canRead (fields.about "Event_Concert") = false := by
  have hindex : "event_concert" ∈ ((World.empty morning).callsSince
      ((Indexing.upsert underscoredEvent).runIn (.empty morning)).2).filterMap Call.putIndex? := by
    decide +kernel
  obtain ⟨id, fields, hput⟩ := exists_put hindex
  obtain ⟨hlook, habout⟩ := about_of_put hput
  have hsearches : Searches (callerWith [("Event", ["read"])]) (lower "Event_Concert") :=
    searches_iff.mpr (by decide)
  refine ⟨id, fields, hput, hlook, hsearches, ?_⟩
  rw [habout]
  decide

end TenantSearch
