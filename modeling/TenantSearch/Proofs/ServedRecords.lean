-- Which records a secured query serves. Its filters are put to the copies in
-- the search engine, while the records come from the table by identifier; so
-- a record is served by what its copies say, and they may be of a version that
-- belonged to another tenant.
import TenantSearch.Http.Gateway
import TenantSearch.Proofs.Addressing
import TenantSearch.Proofs.CompiledQueries
import TenantSearch.Proofs.Narrowing
import TenantSearch.Proofs.WrittenCopies

namespace TenantSearch

open Service

/-! ## Tenant clauses -/

/-- The fields that say whose a document is. -/
def tenantFields : List String := ["organizationId", "ownedBy", "ownerId", "isGlobal"]

namespace Clause

/-- A clause that asks for a value of a tenant field. -/
def isTenantTerm : Clause → Bool
  | .term field _ => tenantFields.contains field
  | _ => false

/-- A clause that asks for a value of a tenant field, or for one of several. -/
def isTenant : Clause → Bool
  | .anyOf clauses => clauses.all isTenantTerm
  | clause => clause.isTenantTerm

end Clause

/-- The tenant clauses of a compiled query. -/
def tenantClauses (q : SecuredQuery) : List Clause := q.filters.filter (·.isTenant)

/-- Two documents say the same about whose they are. -/
def SameTenant (d d' : Fields) : Prop := ∀ name ∈ tenantFields, d'.look name = d.look name

/-- A reading of clauses in which tenant clauses depend on the tenant fields
alone. -/
def ReadsTenants (holds : Clause → Fields → Prop) : Prop :=
  ∀ clause : Clause, clause.isTenant = true → ∀ d d', SameTenant d d' → holds clause d →
    holds clause d'

/-! ## Honest answers -/

/-- A hit of a copy: some of its fields, under its identifier or under the text
of that, by which the engine goes. -/
structure IsHitOf (copy : Fields) (hit : SearchHit) : Prop where
  id : hit.id = copy.look "id" ∨ hit.id = .str (copy.look "id").text
  source : ∀ field ∈ hit.source, field ∈ copy

/-- A copy that a query finds: it is held in an index that the query addresses,
and it passes the filters. -/
def Finds (holds : Clause → Fields → Prop) (q : SecuredQuery) (e : SearchEngine)
    (copy : Fields) : Prop :=
  Passes holds q.filters copy ∧
    ∃ index key, Addressed q.indices index ∧ e.copy? index key = some copy

/-- The engine's next response has hits of copies that the query finds and no
others. -/
def Honest (holds : Clause → Fields → Prop) (q : SecuredQuery) (w : World) : Prop :=
  ∀ result, SearchResult.read (w.responses.headD World.emptyResponse) = .ok result →
    ∀ hit ∈ result.hits, ∃ copy, Finds holds q w.engine copy ∧ IsHitOf copy hit

/-- A document of a response that shows a record: the attributes asked for, with
what a hit brings. -/
def Shows (attributes : Json) (record : Record) (d : Fields) : Prop :=
  ∃ shown hit, project (.obj record.document) attributes = .ok shown ∧ d = Fusion.fuse shown hit

/-- As long as the engine is honest, whatever it answers and whatever fails, a
list serves only records that satisfy its tenant clauses as they are stored. -/
def ServesWithin (holds : Clause → Fields → Prop) (w : World) (c : CallerContext)
    (r : QueryRequest) (q : SecuredQuery) : Prop :=
  ∀ responses plans attributes response, Honest holds q { w with responses, plans } →
    ((Fusion.query Http.fetchRecords c r false true attributes).runIn
      { w with responses, plans }).1 = .ok response →
    ∀ d ∈ response.data, ∃ record ∈ w.records, Shows attributes record d ∧
      Passes holds (tenantClauses q) record.document

/-- Every record satisfies the tenant clauses of a query of which a copy under
its identifier is found. -/
def CopiesTellTenants (holds : Clause → Fields → Prop) (w : World) (q : SecuredQuery) : Prop :=
  ∀ record ∈ w.records, ∀ copy, Finds holds q w.engine copy → (copy.look "id").text = record.id →
    Passes holds (tenantClauses q) record.document

/-! ## Documents of a response -/

theorem look_fuse {shown : Json} {hit : SearchHit} {name : String} (hscore : name ≠ "score")
    (hhighlight : name ≠ "highlight") :
    (Fusion.fuse shown hit).look name = (shown.fields?.getD []).look name := by
  unfold Fusion.fuse
  rw [Fields.look_set, if_neg hscore, Fields.look_set, if_neg hhighlight]

theorem look_only {fields : Fields} {names : List String} {name : String} (h : name ∈ names) :
    (fields.only names).look name = fields.look name := by
  refine Fields.look_eq_of_get? ?_
  have hfilter := valueUnder_filter names.contains fields name
  rw [if_pos (List.contains_iff_mem.mpr h)] at hfilter
  exact hfilter

/-- Whatever is asked for, a record is shown with its identifier. -/
theorem look_id_of_project {document : Fields} {attributes shown : Json}
    (h : project (.obj document) attributes = .ok shown) :
    (shown.fields?.getD []).look "id" = document.look "id" := by
  unfold project at h
  split at h
  · cases h
    rfl
  · obtain ⟨names, hnames, h⟩ := bind_eq_ok.mp h
    cases h
    unfold keptNames at hnames
    obtain ⟨_, -, hnames⟩ := bind_eq_ok.mp hnames
    obtain ⟨_, -, hnames⟩ := bind_eq_ok.mp hnames
    cases hnames
    exact look_only List.mem_cons_self

theorem Shows.look_id {attributes : Json} {record : Record} {d : Fields}
    (h : Shows attributes record d) : d.look "id" = .str record.id := by
  obtain ⟨shown, hit, hshown, rfl⟩ := h
  rw [look_fuse (by decide) (by decide), look_id_of_project hshown]
  exact look_document_column record (by simp [Record.columns])

theorem key?_eq_text_iff {v : Json} {s : String} : v.key? = some (.text s) ↔ v = .str s := by
  cases v with
  | float d =>
    simp only [Json.key?, Option.some_inj, reduceCtorEq, iff_false]
    split
    · simp
    · simp
  | _ => simp [Json.key?]

/-! ## Hits and records -/

theorem mem_of_mapM_eq_ok {ε α β : Type} {f : α → Except ε β} {xs : List α} {ys : List β}
    (h : xs.mapM f = .ok ys) {y : β} (hy : y ∈ ys) : ∃ x ∈ xs, f x = .ok y := by
  induction xs generalizing ys with
  | nil =>
    cases h
    cases hy
  | cons x rest ih =>
    rw [List.mapM_cons] at h
    obtain ⟨y', hy', h⟩ := bind_eq_ok.mp h
    obtain ⟨ys', hys', h⟩ := bind_eq_ok.mp h
    cases h
    rcases List.mem_cons.mp hy with rfl | hy
    · exact ⟨x, List.mem_cons_self, hy'⟩
    · obtain ⟨x', hx', heq⟩ := ih hys' hy
      exact ⟨x', List.mem_cons_of_mem _ hx', heq⟩

namespace Fusion

theorem mem_of_hitsByKey {hits : List SearchHit} {keyed : List (Json.Key × SearchHit)}
    (h : hitsByKey hits = .ok keyed) {p : Json.Key × SearchHit} (hp : p ∈ keyed) :
    p.2 ∈ hits ∧ p.2.id.key? = some p.1 := by
  unfold hitsByKey at h
  obtain ⟨pairs, hpairs, h⟩ := bind_eq_ok.mp h
  cases h
  obtain ⟨hit, hhit, heq⟩ := mem_of_mapM_eq_ok hpairs (List.mem_reverse.mp hp)
  split at heq
  · next key hkey =>
    cases heq
    exact ⟨hhit, hkey⟩
  · cases heq

/-- A record takes a hit of its own identifier. -/
theorem hitOf_eq_ok {keyed : List (Json.Key × SearchHit)} {record : Json} {hit : SearchHit}
    (h : hitOf keyed record = .ok (some hit)) :
    ∃ id key, record.field "id" .null = .ok id ∧ id.key? = some key ∧ (key, hit) ∈ keyed := by
  unfold hitOf at h
  obtain ⟨id, hid, h⟩ := bind_eq_ok.mp h
  split at h
  · next key hkey =>
    obtain ⟨p, hp, rfl⟩ := Option.map_eq_some_iff.mp (Except.ok.inj h)
    have hsame : p.1 = key := by simpa using List.find?_some hp
    exact ⟨id, key, hid, hkey, hsame ▸ List.mem_of_find?_eq_some hp⟩
  · cases h

theorem mem_of_fuseAll {keyed : List (Json.Key × SearchHit)} {records : List Json}
    {fused : List Fields} (h : fuseAll keyed records = .ok fused) {d : Fields} (hd : d ∈ fused) :
    ∃ record ∈ records, ∃ hit, hitOf keyed record = .ok (some hit) ∧ d = fuse record hit := by
  induction records generalizing fused with
  | nil =>
    cases h
    cases hd
  | cons record rest ih =>
    unfold fuseAll at h
    obtain ⟨found, hfound, h⟩ := bind_eq_ok.mp h
    obtain ⟨others, hothers, h⟩ := bind_eq_ok.mp h
    have hlater (hd : d ∈ others) : ∃ record' ∈ record :: rest, ∃ hit,
        hitOf keyed record' = .ok (some hit) ∧ d = fuse record' hit := by
      obtain ⟨record', hrecord', hit, heq⟩ := ih hothers hd
      exact ⟨record', List.mem_cons_of_mem _ hrecord', hit, heq⟩
    cases found with
    | none =>
      cases h
      exact hlater hd
    | some hit =>
      cases h
      rcases List.mem_cons.mp hd with rfl | hd
      · exact ⟨record, List.mem_cons_self, hit, hfound, rfl⟩
      · exact hlater hd

/-- Ranking only changes the order. -/
theorem mem_of_ranked {documents sorted : List Fields} (h : ranked documents = .ok sorted)
    {d : Fields} (hd : d ∈ sorted) : d ∈ documents := by
  unfold ranked at h
  obtain ⟨keyed, hkeyed, h⟩ := bind_eq_ok.mp h
  cases h
  obtain ⟨p, hp, rfl⟩ := List.mem_map.mp hd
  obtain ⟨d', hd', heq⟩ := mem_of_mapM_eq_ok hkeyed (List.mem_mergeSort.mp hp)
  rcases hrank : rankOf d' with b | rank
  · rw [hrank] at heq
    cases heq
  · rw [hrank] at heq
    cases heq
    exact hd'

theorem of_eq_ok {total : Json} {data : List Fields} {response : QueryResponse}
    (h : QueryResponse.of total data = .ok response) : response.data = data := by
  unfold QueryResponse.of at h
  generalize (Check.whole [.field "total"] total).orInvalid = checked at h
  cases checked with
  | error f => cases h
  | ok n =>
    cases h
    rfl

/-- Every document of a merged response is a record that was fetched, with a
hit of its own identifier. -/
theorem merge_eq_ok {result : SearchResult} {records : List Json} {response : QueryResponse}
    (h : merge result records = .ok response) {d : Fields} (hd : d ∈ response.data) :
    ∃ record ∈ records, ∃ hit ∈ result.hits, d = fuse record hit ∧
      ∃ id, record.field "id" .null = .ok id ∧ id.key? = hit.id.key? := by
  unfold merge at h
  split at h
  · next data hdata =>
    rw [of_eq_ok h] at hd
    obtain ⟨keyed, hkeyed, hdata⟩ := bind_eq_ok.mp hdata
    obtain ⟨fused, hfused, hranked⟩ := bind_eq_ok.mp hdata
    obtain ⟨record, hrecord, hit, hfound, rfl⟩ := mem_of_fuseAll hfused (mem_of_ranked hranked hd)
    obtain ⟨id, key, hid, hkey, hmem⟩ := hitOf_eq_ok hfound
    obtain ⟨hhit, hhitKey⟩ := mem_of_hitsByKey hkeyed hmem
    exact ⟨record, hrecord, hit, hhit, rfl, id, hid, hkey.trans hhitKey.symm⟩
  · cases h

end Fusion

/-! ## The parts of a query -/

theorem search_leads (q : EngineQuery) (w : World) :
    (Engine.search q).Leads w fun r w' => w'.records = w.records ∧ ∀ result, r = .ok result →
      SearchResult.read (w.responses.headD World.emptyResponse) = .ok result := by
  unfold Engine.search
  rw [leads_bind]
  refine (leads_call _ _ _ _).mpr ?_
  rcases World.answerCall_cases w (.engine (.search q.indices q.arguments)) with ⟨o, h⟩ | h
  · rw [h]
    exact ⟨rfl, fun _ hresult => (by cases hresult)⟩
  · have heffect : (w.noted (.engine (.search q.indices q.arguments))).effect
        (.engine (.search q.indices q.arguments)) =
          (.ok (w.responses.headD World.emptyResponse),
            { w.noted (.engine (.search q.indices q.arguments)) with
              responses := w.responses.drop 1 }) := rfl
    rw [h, heffect]
    refine ⟨rfl, fun result hresult => ?_⟩
    rcases hread : SearchResult.read (w.responses.headD World.emptyResponse) with b | result'
    · rw [hread] at hresult
      cases hresult
    · rw [hread] at hresult
      cases hresult
      rfl

theorem mem_of_among {table : RecordTable} {ids : Json} {rows : List Record}
    (h : table.among ids = .ok rows) {r : Record} (hr : r ∈ rows) : r ∈ table := by
  unfold RecordTable.among at h
  obtain ⟨_, -, h⟩ := bind_eq_ok.mp h
  obtain ⟨_, -, h⟩ := bind_eq_ok.mp h
  cases h
  exact (List.mem_filter.mp hr).1

/-- What is fetched are rows of the table, each with the attributes asked for. -/
theorem fetch_leads (ids attributes : Json) (w : World) :
    (Store.fetch ids attributes).Leads w fun r _ => ∀ shown, r = .ok shown → ∀ s ∈ shown,
      ∃ record ∈ w.records, project (.obj record.document) attributes = .ok s := by
  unfold Store.fetch
  split
  · intro shown hshown s hs
    cases hshown
    cases hs
  · rw [leads_bind]
    refine (leads_call _ _ _ _).mpr ?_
    rcases World.answerCall_cases w (.database (.among ids)) with ⟨o, h⟩ | h
    · rw [h]
      exact fun _ hshown => (by cases hshown)
    · have heffect : (w.noted (.database (.among ids))).effect (.database (.among ids)) =
          (w.records.among ids, w.noted (.database (.among ids))) := rfl
      rw [h, heffect]
      rcases hrows : w.records.among ids with o | rows
      · exact fun _ hshown => (by cases hshown)
      · intro shown hshown s hs
        rcases hmap : rows.mapM fun r => project (.obj r.document) attributes with b | values
        · rw [hmap] at hshown
          cases hshown
        · rw [hmap] at hshown
          cases hshown
          obtain ⟨record, hrecord, hproject⟩ := mem_of_mapM_eq_ok hmap hs
          exact ⟨record, mem_of_among hrows hrecord, hproject⟩

theorem look_of_field {v value : Json} {name : String} (h : v.field name .null = .ok value) :
    (v.fields?.getD []).look name = value := by
  cases v with
  | obj fields => exact Except.ok.inj h
  | _ => cases h

/-- A list shows records, each of them with a hit of its own identifier. -/
theorem query_leads {w : World} {c : CallerContext} {r : QueryRequest} {q : SecuredQuery}
    (hq : r.compile w.circumstances.settings c = .ok q)
    (hlist : q.engineQuery.isAggregation = false) (attributes : Json) :
    (Fusion.query Http.fetchRecords c r false true attributes).Leads w fun answer _ =>
      ∀ response, answer = .ok response → ∀ d ∈ response.data, ∃ record ∈ w.records,
        Shows attributes record d ∧ ∃ result,
          SearchResult.read (w.responses.headD World.emptyResponse) = .ok result ∧
          ∃ hit ∈ result.hits, hit.id = .str record.id := by
  unfold Fusion.query
  rw [leads_bind, leads_circumstances]
  dsimp only
  rw [leads_bind, leads_orFail, hq]
  dsimp only
  rw [leads_bind]
  refine (search_leads q.engineQuery w).mono ?_
  rintro answer w₁ ⟨hrecords, hresult⟩
  rcases answer with f | result
  · exact fun _ h => (by cases h)
  · dsimp only
    rw [leads_bind, leads_orBroken, hlist]
    by_cases hempty : result.hits.isEmpty = true
    · have hplan : Fusion.plan false true result = .ok (.respond result.total []) := by
        unfold Fusion.plan
        rw [if_neg (by simp), if_pos (by simp [hempty]), List.isEmpty_iff.mp hempty]
        rfl
      rw [hplan]
      intro response hresponse d hd
      rw [Fusion.of_eq_ok hresponse] at hd
      cases hd
    · have hplan : Fusion.plan false true result = .ok (.fetch (Fusion.idsOf result.hits)) := by
        unfold Fusion.plan
        rw [if_neg (by simp), if_neg (by simp [hempty])]
        rfl
      rw [hplan]
      dsimp only [Except.mapError]
      rw [leads_bind]
      refine (fetch_leads _ attributes w₁).mono ?_
      intro fetched w₂ hfetched
      rcases fetched with f | shown
      · exact fun _ h => (by cases h)
      · intro response hresponse d hd
        obtain ⟨s, hs, hit, hhit, rfl, id, hid, hkey⟩ := Fusion.merge_eq_ok hresponse hd
        obtain ⟨record, hrecord, hproject⟩ := hfetched shown rfl s hs
        have hshows : Shows attributes record (Fusion.fuse s hit) := ⟨s, hit, hproject, rfl⟩
        have hidentifier := hshows.look_id
        rw [look_fuse (by decide) (by decide), look_of_field hid] at hidentifier
        rw [hidentifier] at hkey
        exact ⟨record, hrecords ▸ hrecord, hshows, result, hresult result rfl, hit, hhit,
          key?_eq_text_iff.mp hkey.symm⟩

/-! ## A query for a single record -/

/-- A response with a single hit that bears nothing but an identifier. -/
def oneHit (id : String) : Json :=
  .obj [("hits", .obj [("total", .obj [("value", .int 1)]),
    ("hits", .arr [.obj [("_id", .str id)]])])]

theorem among_of_mem {table : RecordTable} (h : table.Sound) {record : Record}
    (hrecord : record ∈ table) : table.among (.arr [.str record.id]) = .ok [record] := by
  have hids : ([.str record.id] : List Json).mapM Record.columnText = .ok [some record.id] := by
    rw [List.mapM_cons, (h.rows record hrecord).id]
    rfl
  have hrows : table.filter (fun r => [some record.id].contains (some r.id)) = [record] := by
    rw [← RecordTable.filter_id h.ordered hrecord]
    refine List.filter_congr fun r _ => ?_
    rw [Bool.eq_iff_iff]
    simp
  unfold RecordTable.among RecordTable.identifiers
  rw [ok_bind, hids, ok_bind, hrows]
  rfl

/-- Of a copy that is found, the engine may answer with the identifier alone. -/
theorem honest_oneHit {holds : Clause → Fields → Prop} {q : SecuredQuery} {w : World}
    {copy : Fields} (hfinds : Finds holds q w.engine copy) {id : String}
    (hid : (copy.look "id").text = id) :
    Honest holds q { w with responses := [oneHit id], plans := [] } := by
  intro result hresult hit hhit
  cases hresult
  rw [List.mem_singleton.mp hhit]
  exact ⟨copy, hfinds, Or.inr (by rw [hid]; rfl), fun _ h => (by cases h)⟩

/-- The hit that bears nothing but an identifier. -/
def bareHit (id : String) : SearchHit := ⟨.str id, .null, .null, []⟩

theorem merge_bareHit {id : String} {document : Fields} (h : document.look "id" = .str id) :
    Fusion.merge ⟨.int 1, [bareHit id], .obj []⟩ [.obj document] =
      .ok ⟨1, [Fusion.fuse (.obj document) (bareHit id)]⟩ := by
  have hfound : Fusion.hitOf [(.text id, bareHit id)] (.obj document) = .ok (some (bareHit id)) := by
    have hfield : (Json.obj document).field "id" .null = .ok (.str id) := congrArg Except.ok h
    unfold Fusion.hitOf
    rw [hfield, ok_bind]
    simp [Json.key?]
    rfl
  have hrank : Fusion.rankOf (Fusion.fuse (.obj document) (bareHit id)) =
      .ok ⟨true, (Dyadic.ofInt 0).neg⟩ := by
    have hscore : (Fusion.fuse (.obj document) (bareHit id)).look "score" = .null := by
      unfold Fusion.fuse
      rw [Fields.look_set, if_pos rfl]
      rfl
    unfold Fusion.rankOf
    rw [hscore]
    rfl
  have hfused : Fusion.fuseAll [(.text id, bareHit id)] [.obj document] =
      .ok [Fusion.fuse (.obj document) (bareHit id)] := by
    unfold Fusion.fuseAll Fusion.fuseAll
    rw [hfound]
    rfl
  have hranked : Fusion.ranked [Fusion.fuse (.obj document) (bareHit id)] =
      .ok [Fusion.fuse (.obj document) (bareHit id)] := by
    have hpaired : [Fusion.fuse (.obj document) (bareHit id)].mapM
        (fun d => (·, d) <$> Fusion.rankOf d) =
          .ok [(⟨true, (Dyadic.ofInt 0).neg⟩, Fusion.fuse (.obj document) (bareHit id))] := by
      rw [List.mapM_cons, hrank]
      rfl
    unfold Fusion.ranked
    rw [hpaired, ok_bind, List.mergeSort_singleton]
    rfl
  have hkeyed : Fusion.hitsByKey [bareHit id] = .ok [(.text id, bareHit id)] := rfl
  unfold Fusion.merge
  dsimp only
  rw [hkeyed, ok_bind, hfused, ok_bind, hranked]
  rfl

theorem search_leads_calm {w : World} (hcalm : w.Calm) (q : EngineQuery) {result : SearchResult}
    (hread : SearchResult.read (w.responses.headD World.emptyResponse) = .ok result)
    (post : Except Failure SearchResult → World → Prop) :
    (Engine.search q).Leads w post ↔ post (.ok result)
      { w.logged [.engine (.search q.indices q.arguments)] with
        responses := w.responses.drop 1 } := by
  unfold Engine.search
  rw [leads_bind]
  refine (leads_call_calm hcalm _ _ _).trans ?_
  have heffect : (w.logged [.engine (.search q.indices q.arguments)]).effect
      (.engine (.search q.indices q.arguments)) =
        (.ok (w.responses.headD World.emptyResponse),
          { w.logged [.engine (.search q.indices q.arguments)] with
            responses := w.responses.drop 1 }) := rfl
  rw [heffect]
  refine (leads_orBroken _ _ _).trans ?_
  rw [hread]
  rfl

theorem fetch_leads_calm {w : World} (hcalm : w.Calm) (hsound : w.records.Sound) {record : Record}
    (hrecord : record ∈ w.records) (post : Except Failure (List Json) → World → Prop) :
    (Store.fetch (.arr [.str record.id]) .null).Leads w post ↔
      post (.ok [.obj record.document])
        (w.logged [.database (.among (.arr [.str record.id]))]) := by
  unfold Store.fetch
  rw [if_neg (by simp [Json.given]), leads_bind]
  refine (leads_call_calm hcalm _ _ _).trans ?_
  have heffect : (w.logged [.database (.among (.arr [.str record.id]))]).effect
      (.database (.among (.arr [.str record.id]))) = (w.records.among (.arr [.str record.id]),
        w.logged [.database (.among (.arr [.str record.id]))]) := rfl
  rw [heffect, among_of_mem hsound hrecord]
  rfl

/-- A response with one hit serves the record of that identifier. -/
theorem query_oneHit {w : World} {c : CallerContext} {r : QueryRequest} {q : SecuredQuery}
    (hq : r.compile w.circumstances.settings c = .ok q)
    (hlist : q.engineQuery.isAggregation = false) (hsound : w.records.Sound) {record : Record}
    (hrecord : record ∈ w.records) :
    (Fusion.query Http.fetchRecords c r false true .null).Leads
      { w with responses := [oneHit record.id], plans := [] } fun answer _ =>
        ∃ response, answer = .ok response ∧ ∃ d ∈ response.data, Shows .null record d := by
  have hcalm : World.Calm { w with responses := [oneHit record.id], plans := [] } := rfl
  have hread : SearchResult.read (oneHit record.id) =
      .ok ⟨.int 1, [bareHit record.id], .obj []⟩ := rfl
  have hplan : Fusion.plan false true ⟨.int 1, [bareHit record.id], .obj []⟩ =
      .ok (.fetch [.str record.id]) := by
    have hgiven := given_str (hsound.rows record hrecord).hasId
    simp [Fusion.plan, Fusion.idsOf, bareHit, hgiven]
    rfl
  have hid : record.document.look "id" = .str record.id :=
    look_document_column record (by simp [Record.columns])
  unfold Fusion.query
  rw [leads_bind, leads_circumstances]
  dsimp only
  rw [leads_bind, leads_orFail, hq]
  dsimp only
  rw [leads_bind, search_leads_calm hcalm _ hread]
  dsimp only
  rw [leads_bind, leads_orBroken, hlist, hplan]
  dsimp only [Except.mapError]
  unfold Http.fetchRecords
  rw [leads_bind]
  refine (fetch_leads_calm ?_ ?_ ?_ _).mpr ?_
  · exact hcalm
  · exact hsound
  · exact hrecord
  exact ⟨_, merge_bareHit hid, _, List.mem_singleton_self _, _, _, rfl, rfl⟩

theorem isAggregation_of_list {settings : Settings} {c : CallerContext} {r : QueryRequest}
    {skipSecurity : Bool} {q : SecuredQuery} (hq : r.compile settings c skipSecurity = .ok q)
    (hlist : r.aggregate = none) : q.engineQuery.isAggregation = false := by
  obtain ⟨-, rfl⟩ := compile_eq_ok_iff.mp hq
  unfold SecuredQuery.engineQuery QueryRequest.asking
  rw [hlist]
  rfl

/-- Search is given the tenant fields of a document as they are. -/
theorem not_searchOnly_of_tenant {name : String} (h : name ∈ tenantFields) :
    name ∉ searchOnlyFields := by
  have hall : ∀ name ∈ tenantFields, name ∉ searchOnlyFields := by decide
  exact hall name h

/-! ## Served records -/

/-- Of which queries the records are served within the tenant. Every copy that
the engine holds is of a version that was saved. A list serves only records
that satisfy its tenant clauses exactly as long as every copy that it finds is
of a record that does; and so it is where no version of a record says
otherwise about whose it is than the record itself. -/
theorem records_are_served_within_the_tenant_iff {versions : List Fields} {w : World}
    (hw : Written versions w) {c : CallerContext} {r : QueryRequest} {q : SecuredQuery}
    (hq : r.compile w.circumstances.settings c = .ok q) (hlist : r.aggregate = none)
    (holds : Clause → Fields → Prop) :
    AreOf versions w.engine ∧
    (ServesWithin holds w c r q ↔ CopiesTellTenants holds w q) ∧
    (ReadsTenants holds →
      (∀ record ∈ w.records, ∀ v ∈ versions, (v.look "id").text = record.id →
        SameTenant v record.document) → ServesWithin holds w c r q) := by
  obtain ⟨hcopies, hsound⟩ := hw.spec
  have hcount := isAggregation_of_list hq hlist
  have hiff : ServesWithin holds w c r q ↔ CopiesTellTenants holds w q := by
    constructor
    · intro hserves record hrecord copy hfinds hid
      have hhonest := honest_oneHit hfinds hid
      obtain ⟨response, hresponse, d, hd, hshows⟩ := query_oneHit hq hcount hsound hrecord
      obtain ⟨record', hrecord', hshows', hpasses⟩ :=
        hserves _ _ _ _ hhonest hresponse d hd
      have hsame : record'.id = record.id :=
        Json.str.inj (hshows'.look_id.symm.trans hshows.look_id)
      rwa [hsound.eq_of_id hrecord hrecord' hsame] at hpasses
    · intro htell responses plans attributes response hhonest hresponse d hd
      have hq' : r.compile { w with responses, plans }.circumstances.settings c = .ok q := hq
      obtain ⟨record, hrecord, hshows, result, hread, hit, hhit, hid⟩ :=
        query_leads hq' hcount attributes response hresponse d hd
      obtain ⟨copy, hfinds, hhitOf⟩ := hhonest result hread hit hhit
      refine ⟨record, hrecord, hshows, htell record hrecord copy hfinds ?_⟩
      rcases hhitOf.id with hown | htext
      · rw [← hown, hid]
        rfl
      · exact Json.str.inj (htext.symm.trans hid)
  refine ⟨hcopies, hiff, fun hreads hsame => hiff.mpr ?_⟩
  intro record hrecord copy hfinds hid clause hclause
  obtain ⟨hpasses, index, key, -, hheld⟩ := hfinds
  obtain ⟨v, hv, hprojection⟩ := hcopies index key copy hheld
  obtain ⟨hmem, htenant⟩ := List.mem_filter.mp hclause
  rw [hprojection.look (by decide)] at hid
  refine hreads clause htenant copy record.document (fun name hname => ?_) (hpasses clause hmem)
  rw [hsame record hrecord v hv hid name hname, hprojection.look (not_searchOnly_of_tenant hname)]

/-! ## The sites of two solutions -/

/-- A reading of the clauses that only takes equalities, and one of several,
as they are; scalars are the same by value. -/
def readsTerm : Clause → Fields → Bool
  | .term field v, d => (d.look field).key? == v.key?
  | _, _ => true

def readsTerms : Clause → Fields → Bool
  | .anyOf clauses, d => clauses.any (readsTerm · d)
  | clause, d => readsTerm clause d

theorem readsTerm_of_sameTenant {clause : Clause} (h : clause.isTenantTerm = true) {d d' : Fields}
    (hsame : SameTenant d d') : readsTerm clause d' = readsTerm clause d := by
  cases clause with
  | term field v =>
    have hfield : field ∈ tenantFields := List.contains_iff_mem.mp h
    simp only [readsTerm, hsame field hfield]
  | _ => cases h

theorem readsTenants_readsTerms : ReadsTenants fun clause d => readsTerms clause d = true := by
  intro clause htenant d d' hsame hholds
  cases clause with
  | term field v =>
    have hterm : (Clause.term field v).isTenantTerm = true := htenant
    exact (readsTerm_of_sameTenant hterm hsame).trans hholds
  | anyOf clauses =>
    obtain ⟨clause, hclause, htrue⟩ := List.any_eq_true.mp hholds
    have hterm := List.all_eq_true.mp htenant clause hclause
    exact List.any_eq_true.mpr ⟨clause, hclause, readsTerm_of_sameTenant hterm hsame ▸ htrue⟩
  | _ => cases htenant

/-- Whether two documents say the same about whose they are, in texts. -/
def sameTenantTexts (d d' : Fields) : Bool :=
  tenantFields.all fun name => match d.look name, d'.look name with
    | .null, .null => true
    | .str s, .str s' => s == s'
    | _, _ => false

theorem sameTenant_of_texts {d d' : Fields} (h : sameTenantTexts d d' = true) : SameTenant d d' := by
  intro name hname
  have htest := List.all_eq_true.mp h name hname
  split at htest
  · next hnull hnull' => rw [hnull, hnull']
  · next s s' hs hs' => rw [hs, hs', beq_iff_eq.mp htest]
  · cases htest

/-- A public site of the first solution. -/
def publicSite : Fields :=
  [("id", .str "s-1"), ("entityName", .str "Site"), ("entityType", .str "Public"),
    ("solutionId", .str "sol-1"), ("organizationId", .str "org-1"), ("ownerId", .str "sol-1"),
    ("stateCode", .int 0)]

/-- The same site after it went to another solution, as a private one. -/
def privateSite : Fields :=
  [("id", .str "s-1"), ("entityName", .str "Site"), ("entityType", .str "Private"),
    ("solutionId", .str "sol-2"), ("organizationId", .str "org-2"), ("ownerId", .str "sol-2"),
    ("stateCode", .int 0)]

/-- The world after a site was written. -/
def afterWriting (w : World) (site : Fields) : World := ((Store.write site).runIn w).2

/-- A caller of the first solution that may read sites. -/
def siteReader : CallerContext := callerWith [("Site", ["read"])]

/-- A list of public sites. -/
def listedSites : QueryRequest := { requestFor "Site" with entityType := some "Public" }

/-- The list as it is compiled. -/
def siteQuery : SecuredQuery :=
  ⟨["site_public"], listedSites.filters siteReader ["Site_Public"] true, listedSites.asking {}⟩

/-- A list is compiled alike under all settings. -/
theorem compile_listedSites (settings : Settings) :
    listedSites.compile settings siteReader = .ok siteQuery := rfl

/-- The world after the public site was written. -/
def siteWorld : World := afterWriting (.empty morning) publicSite

/-- The world after the site went to the other solution. -/
def movedWorld : World := afterWriting siteWorld privateSite

theorem a_public_site_is_served_to_its_own_solution :
    ∃ version, Written [version] siteWorld ∧
      listedSites.compile siteWorld.circumstances.settings siteReader = .ok siteQuery ∧
      listedSites.aggregate = none ∧
      ((Fusion.query Http.fetchRecords siteReader listedSites false true .null).runIn
        { siteWorld with responses := [oneHit "s-1"] }).1.toOption.map (·.data.length) = some 1 ∧
      ServesWithin (fun clause d => readsTerms clause d = true) siteWorld siteReader listedSites
        siteQuery := by
  have hruns : ((Store.write publicSite).runIn (.empty morning)).1.isOk = true ∧
      ((Store.write publicSite).runIn (.empty morning)).1.toOption.map (fun version =>
        siteWorld.records.all fun r => sameTenantTexts version r.document) = some true ∧
      ((Fusion.query Http.fetchRecords siteReader listedSites false true .null).runIn
        { siteWorld with responses := [oneHit "s-1"] }).1.toOption.map (·.data.length) =
          some 1 := by decide +kernel
  obtain ⟨hok, htexts, hserved⟩ := hruns
  obtain ⟨version, hversion⟩ := isOk_iff.mp hok
  rw [hversion] at htexts
  have htenant := Option.some.inj htexts
  have hwritten : Written [version] siteWorld := .saved (.start rfl rfl) hversion
  have hcompile := compile_listedSites siteWorld.circumstances.settings
  obtain ⟨-, -, hserves⟩ := records_are_served_within_the_tenant_iff hwritten hcompile rfl
    fun clause d => readsTerms clause d = true
  refine ⟨version, hwritten, hcompile, rfl, hserved, ?_⟩
  refine hserves readsTenants_readsTerms fun record hrecord v hv _ => ?_
  rw [List.mem_singleton.mp hv]
  exact sameTenant_of_texts (List.all_eq_true.mp htenant record hrecord)

/-- The copy of the public site is left where it was, and by it the record of
the other solution is served. -/
theorem a_moved_site_is_served_to_its_former_solution :
    (∃ versions, Written versions movedWorld) ∧
      listedSites.compile movedWorld.circumstances.settings siteReader = .ok siteQuery ∧
      ¬ ServesWithin (fun clause d => readsTerms clause d = true) movedWorld siteReader listedSites
        siteQuery := by
  have hruns : ((Store.write publicSite).runIn (.empty morning)).1.isOk = true ∧
      ((Store.write privateSite).runIn siteWorld).1.isOk = true ∧
      (movedWorld.engine.copy? "site_public" (.text "s-1")).map (fun copy =>
        (siteQuery.filters.all (readsTerms · copy), (copy.look "id").text)) = some (true, "s-1") ∧
      (movedWorld.records.all fun r =>
        !(tenantClauses siteQuery).all (readsTerms · r.document)) = true ∧
      (match ((Fusion.query Http.fetchRecords siteReader listedSites false true .null).runIn
          { movedWorld with responses := [oneHit "s-1"], plans := [] }).1 with
        | .ok response => response.data.isEmpty
        | .error _ => true) = false := by decide +kernel
  obtain ⟨hok, hmoved, hfound, hrecords, hserved⟩ := hruns
  obtain ⟨version, hversion⟩ := isOk_iff.mp hok
  obtain ⟨other, hother⟩ := isOk_iff.mp hmoved
  refine ⟨⟨_, .saved (.saved (.start rfl rfl) hversion) hother⟩, compile_listedSites _,
    fun hserves => ?_⟩
  obtain ⟨copy, hcopy, htests⟩ := Option.map_eq_some_iff.mp hfound
  obtain ⟨hpasses, hid⟩ := Prod.mk.inj htests
  have haddressed : Addressed siteQuery.indices "site_public" :=
    ⟨⟨by decide, by decide +kernel, by decide, by decide⟩, "site_public", by decide +kernel,
      by decide +kernel⟩
  have hfinds : Finds (fun clause d => readsTerms clause d = true) siteQuery movedWorld.engine copy :=
    ⟨List.all_eq_true.mp hpasses, _, _, haddressed, hcopy⟩
  have hhonest := honest_oneHit hfinds hid
  split at hserved
  · next response hresponse =>
    obtain ⟨d, hd⟩ : ∃ d, d ∈ response.data := by
      refine List.exists_mem_of_ne_nil _ fun hnil => ?_
      rw [hnil] at hserved
      cases hserved
    obtain ⟨record, hrecord, -, hwithin⟩ := hserves _ _ _ response hhonest hresponse d hd
    have houtside := List.all_eq_true.mp hrecords record hrecord
    rw [List.all_eq_true.mpr hwithin] at houtside
    cases houtside
  · cases hserved

end TenantSearch
