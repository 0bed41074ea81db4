-- Which posted queries are answered. While the search engine and the record
-- store answer as they should, a query gets its response or is refused with a
-- service failure, unless one of its fields cannot be checked.
import TenantSearch.Proofs.ListedOrder
import TenantSearch.Proofs.ToldFlaws

namespace TenantSearch

open Service

/-! ## Proper responses -/

/-- The identifier of a document: a scalar that a text column can hold. -/
def IsIdentifier (id : Json) : Prop :=
  (∃ key, id.key? = some key) ∧ ∃ text, Record.columnText id = .ok text

/-- A hit as the engine writes it: the stored document, with the engine's own
identifier where it leaves it out, and a score that is a number or null. -/
def IsProperHit (hit : Json) : Prop :=
  ∃ fields source, hit = .obj fields ∧
    (Fields.get? fields "_source").getD (.obj []) = .obj source ∧
    IsIdentifier ((Fields.get? source "id").getD (Fields.look fields "_id")) ∧
    (Fields.look fields "_score" = .null ∨
      ∃ score, (Fields.look fields "_score").number? = some score)

/-- A total as the engine writes it: a whole number, alone or as the value of an
object, or none at all. -/
def IsTotal (total : Json) : Prop :=
  total = .null ∨ (∃ n, total = .int n) ∨
    ∃ fields n, total = .obj fields ∧ Fields.get? fields "value" = some (.int n)

/-- Groups as the engine writes them: none, or a list of buckets. -/
def AreGroups (groups : Json) : Prop :=
  groups = .null ∨ ∃ fields list buckets, groups = .obj fields ∧
    (Fields.get? fields aggregationName).getD (.obj []) = .obj list ∧
    (Fields.get? list "buckets").getD (.arr []) = .arr buckets ∧
    ∀ bucket ∈ buckets, ∃ fields, bucket = .obj fields

/-- A response as the engine writes it. -/
def IsProperResponse (response : Json) : Prop :=
  ∃ fields hits items, response = .obj fields ∧ Fields.get? fields "hits" = some (.obj hits) ∧
    IsTotal (Fields.look hits "total") ∧ (Fields.get? hits "hits").getD (.arr []) = .arr items ∧
    (∀ hit ∈ items, IsProperHit hit) ∧ AreGroups (Fields.look fields "aggregations")

/-- The search engine and the store answer as they should. -/
structure World.AnswersQueries (w : World) : Prop where
  calm : w.Calm
  proper : IsProperResponse (w.responses.headD emptyResponse)

/-- An outcome that is an answer or a service failure. -/
def IsAnswered {α : Type} : Except Failure α → Prop
  | .ok _ => True
  | .error (.service _) => True
  | .error _ => False

theorem IsAnswered.error {α β : Type} {f : Failure}
    (h : IsAnswered (.error f : Except Failure α)) : IsAnswered (.error f : Except Failure β) := by
  cases f with
  | service e => trivial
  | _ => exact h

/-! ## Values that are given -/

section

variable {ε α β : Type}

/-- A value of which this holds is given, and no failure. -/
def Yields (x : Except ε α) (post : α → Prop) : Prop := ∃ a, x = .ok a ∧ post a

theorem yields_ok {a : α} {post : α → Prop} (h : post a) : Yields (.ok a : Except ε α) post :=
  ⟨a, rfl, h⟩

theorem Yields.mono {x : Except ε α} {post post' : α → Prop} (h : Yields x post)
    (himp : ∀ a, post a → post' a) : Yields x post' := by
  obtain ⟨a, ha, hpost⟩ := h
  exact ⟨a, ha, himp a hpost⟩

theorem Yields.bind {x : Except ε α} {f : α → Except ε β} {post : α → Prop} {post' : β → Prop}
    (hx : Yields x post) (hf : ∀ a, post a → Yields (f a) post') : Yields (x >>= f) post' := by
  obtain ⟨a, rfl, ha⟩ := hx
  exact hf a ha

/-- What is given for each item is given for all. -/
theorem yields_mapM {f : α → Except ε β} {post : β → Prop} {l : List α}
    (h : ∀ x ∈ l, Yields (f x) post) : Yields (l.mapM f) fun ys => ∀ y ∈ ys, post y := by
  induction l with
  | nil => exact yields_ok (by simp)
  | cons x rest ih =>
    rw [List.mapM_cons]
    refine (h x List.mem_cons_self).bind fun y hy => ?_
    refine (ih fun x hx => h x (List.mem_cons_of_mem _ hx)).bind fun ys hys => yields_ok ?_
    intro z hz
    rcases List.mem_cons.mp hz with rfl | hz
    · exact hy
    · exact hys z hz

theorem yields_mapM_of_yields {f : α → Except ε β} {l : List α}
    (h : ∀ x ∈ l, Yields (f x) fun _ => True) : Yields (l.mapM f) fun _ => True :=
  (yields_mapM h).mono fun _ _ => trivial

end

/-! ## Reading a proper response -/

theorem yields_field (fields : Fields) (name : String) (absent : Json) :
    Yields ((Json.obj fields).field name absent)
      (· = (Fields.get? fields name).getD absent) := yields_ok rfl

theorem yields_parts (items : List Json) : Yields (Json.arr items).parts (· = items) :=
  yields_ok rfl

/-- A proper hit can be read, looked up and ranked. -/
theorem yields_readHit {hit : Json} (h : IsProperHit hit) : Yields (SearchHit.read hit) fun read =>
    IsIdentifier read.id ∧ ∃ rank, Fusion.rankOf read.document = .ok rank := by
  obtain ⟨fields, source, rfl, hsource, hid, hscore⟩ := h
  unfold SearchHit.read
  refine (yields_field _ _ _).bind fun v hv => ?_
  rw [hsource] at hv
  subst hv
  refine (yields_field _ _ _).bind fun ownId hownId => ?_
  refine (yields_field _ _ _).bind fun id hid' => ?_
  refine (yields_field _ _ _).bind fun score hscore' => ?_
  refine (yields_field _ _ _).bind fun highlight _ => yields_ok ⟨?_, ?_⟩
  · rw [hid', hownId]
    exact hid
  · have hlook (read : SearchHit) : read.document.look "score" = read.score := by
      unfold SearchHit.document
      rw [Fields.look_set, if_pos rfl]
    have hown : Fields.look fields "_score" = score := hscore'.symm
    rw [hown] at hscore
    unfold Fusion.rankOf
    rw [hlook]
    dsimp only
    rcases hscore with rfl | ⟨number, hnumber⟩
    · exact ⟨_, rfl⟩
    · rw [hnumber]
      cases score.given with
      | true => exact ⟨_, rfl⟩
      | false => exact ⟨_, rfl⟩

theorem yields_readTotal {total : Json} (h : IsTotal total) :
    Yields (SearchResult.readTotal total) fun read => ∃ n, read = .int n := by
  rcases h with rfl | ⟨n, rfl⟩ | ⟨fields, n, rfl, hvalue⟩
  · exact yields_ok ⟨0, rfl⟩
  · unfold SearchResult.readTotal
    dsimp only
    split
    · exact yields_ok ⟨n, rfl⟩
    · exact yields_ok ⟨0, rfl⟩
  · refine yields_ok ⟨n, ?_⟩
    rw [hvalue]
    rfl

theorem yields_readBucket (fields : Fields) :
    Yields (SearchResult.readBucket (.obj fields)) fun _ => True := by
  unfold SearchResult.readBucket
  refine (yields_field _ _ _).bind fun key _ => ?_
  exact (yields_field _ _ _).bind fun count _ => yields_ok trivial

/-- The buckets of proper groups can be read. -/
theorem yields_buckets {groups : Json} (h : AreGroups groups) (total : Json)
    (hits : List SearchHit) : Yields (SearchResult.buckets
      ⟨total, hits, if groups.given then groups else .obj []⟩) fun _ => True := by
  have hnone : Yields (SearchResult.buckets ⟨total, hits, .obj []⟩) fun _ => True :=
    yields_ok (a := []) trivial
  rcases h with rfl | ⟨fields, list, buckets, rfl, hlist, hbuckets, hall⟩
  · exact hnone
  · cases fields with
    | nil => exact hnone
    | cons field fields =>
      have hgiven : (Json.obj (field :: fields)).given = true := rfl
      rw [if_pos hgiven]
      unfold SearchResult.buckets
      refine (yields_field _ _ _).bind fun v hv => ?_
      rw [hlist] at hv
      subst hv
      refine (yields_field _ _ _).bind fun v hv => ?_
      rw [hbuckets] at hv
      subst hv
      refine (yields_parts buckets).bind fun items hitems => ?_
      subst hitems
      refine yields_mapM_of_yields fun bucket hbucket => ?_
      obtain ⟨fields, rfl⟩ := hall bucket hbucket
      exact yields_readBucket fields

/-- A proper response can be read, its hits can be ranked and looked up, and its
groups can be counted. -/
theorem yields_read {response : Json} (h : IsProperResponse response) :
    Yields (SearchResult.read response) fun result => Fusion.WellFormed result ∧
      (Yields result.buckets fun _ => True) ∧ ∀ hit ∈ result.hits, IsIdentifier hit.id := by
  obtain ⟨fields, hits, items, rfl, hhits, htotal, hitems, hproper, hgroups⟩ := h
  unfold SearchResult.read
  dsimp only
  rw [hhits]
  refine Yields.bind (yields_ok (a := Json.obj hits) rfl) fun v hv => ?_
  subst hv
  refine (yields_field _ _ _).bind fun total htotal' => ?_
  refine (yields_field _ _ _).bind fun v hv => ?_
  rw [hitems] at hv
  subst hv
  refine (yields_parts items).bind fun v hv => ?_
  subst hv
  refine (yields_mapM fun hit hhit => yields_readHit (hproper hit hhit)).bind fun read hread => ?_
  have htotal : IsTotal total := htotal'.symm ▸ htotal
  refine (yields_readTotal htotal).bind fun counted hcounted => ?_
  refine (yields_field _ _ _).bind fun groups hgroups' => yields_ok ⟨⟨?_, ?_, ?_⟩, ?_, ?_⟩
  · exact fun hit hhit => (hread hit hhit).1.1
  · exact fun hit hhit => (hread hit hhit).2
  · obtain ⟨n, rfl⟩ := hcounted
    exact ⟨n, rfl⟩
  · have hgroups : AreGroups groups := hgroups'.symm ▸ hgroups
    exact yields_buckets hgroups _ _
  · exact fun hit hhit => (hread hit hhit).1

/-! ## Fetching the records -/

theorem yields_keptNames (names : List String) :
    Yields (keptNames (.texts names)) fun _ => True := by
  unfold keptNames
  refine (yields_parts _).bind fun items hitems => ?_
  subst hitems
  refine (yields_mapM_of_yields fun item hitem => ?_).bind fun _ _ => yields_ok trivial
  obtain ⟨name, -, rfl⟩ := List.mem_map.mp hitem
  exact yields_ok trivial

/-- Attributes of the interface keep what they name of every row, and its
identifier. -/
theorem yields_project (r : Record) (attributes : Option String) :
    Yields (project (.obj r.document) (Http.splitAttributes attributes)) fun shown =>
      ∃ fields, shown = .obj fields ∧ ∃ key, Fusion.keyOf fields = some key := by
  have hshown : Yields (project (.obj r.document) (Http.splitAttributes attributes)) fun shown =>
      ∃ fields, shown = .obj fields := by
    unfold project
    split
    · exact yields_ok ⟨r.document, rfl⟩
    · next hgiven =>
      unfold Http.splitAttributes at hgiven ⊢
      dsimp only at hgiven ⊢
      split at hgiven
      · exact absurd rfl hgiven
      · next hnames =>
        rw [if_neg hnames]
        exact (yields_keptNames _).bind fun names _ => yields_ok ⟨_, rfl⟩
  obtain ⟨shown, hshown, fields, rfl⟩ := hshown
  have hid : Fields.look fields "id" = .str r.id :=
    (look_id_of_project hshown).trans (look_document_column r (by simp [Record.columns]))
  refine ⟨_, hshown, fields, rfl, .text r.id, ?_⟩
  unfold Fusion.keyOf
  rw [hid]
  rfl

theorem yields_among {ids : List Json} (h : ∀ id ∈ ids, IsIdentifier id) (table : RecordTable) :
    Yields (table.among (.arr ids)) fun _ => True := by
  have hids : Yields (RecordTable.identifiers (.arr ids)) (· = ids) := by
    cases ids with
    | nil => exact yields_ok rfl
    | cons first rest =>
      cases first with
      | arr items =>
        obtain ⟨⟨key, hkey⟩, -⟩ := h (.arr items) List.mem_cons_self
        cases hkey
      | _ => exact yields_ok rfl
  unfold RecordTable.among
  refine hids.bind fun v hv => ?_
  subst hv
  refine (yields_mapM_of_yields fun id hid => ?_).bind fun _ _ => yields_ok trivial
  obtain ⟨text, htext⟩ := (h id hid).2
  exact ⟨text, htext, trivial⟩

theorem exists_map_obj {shown : List Json} {post : Fields → Prop}
    (h : ∀ v ∈ shown, ∃ fields, v = .obj fields ∧ post fields) :
    ∃ documents, shown = List.map Json.obj documents ∧ ∀ d ∈ documents, post d := by
  induction shown with
  | nil => exact ⟨[], rfl, by simp⟩
  | cons v rest ih =>
    obtain ⟨fields, rfl, hfields⟩ := h v List.mem_cons_self
    obtain ⟨documents, rfl, hall⟩ := ih fun v hv => h v (List.mem_cons_of_mem _ hv)
    refine ⟨fields :: documents, rfl, fun d hd => ?_⟩
    rcases List.mem_cons.mp hd with rfl | hd
    · exact hfields
    · exact hall d hd

/-- In a calm world the records behind proper hits are fetched, each under its
identifier. -/
theorem fetch_answered {w : World} (hcalm : w.Calm) {ids : List Json}
    (hids : ∀ id ∈ ids, IsIdentifier id) (attributes : Option String) :
    (Store.fetch (.arr ids) (Http.splitAttributes attributes)).Leads w fun r _ =>
      ∃ documents, r = .ok (List.map Json.obj documents) ∧
        ∀ d ∈ documents, ∃ key, Fusion.keyOf d = some key := by
  unfold Store.fetch
  split
  · exact ⟨[], rfl, by simp⟩
  · rw [leads_bind]
    refine (leads_call_calm hcalm _ _ _).mpr ?_
    have heffect : (w.logged [.database (.among (.arr ids))]).effect
        (.database (.among (.arr ids))) =
          (w.records.among (.arr ids), w.logged [.database (.among (.arr ids))]) := rfl
    obtain ⟨rows, hrows, -⟩ := yields_among hids w.records
    rw [heffect, hrows]
    dsimp only [Except.mapError]
    rw [leads_orBroken]
    obtain ⟨shown, hshown, hall⟩ := yields_mapM (l := rows)
      (f := fun r : Record => project (.obj r.document) (Http.splitAttributes attributes))
      fun r _ => yields_project r attributes
    obtain ⟨documents, rfl, hkeys⟩ := exists_map_obj hall
    rw [hshown]
    exact ⟨documents, rfl, hkeys⟩

/-! ## Running a query -/

/-- Whatever is planned for a result that can be read ends in an answer. -/
theorem plan_cases {result : SearchResult} (hresult : Fusion.WellFormed result)
    (hbuckets : Yields result.buckets fun _ => True) (counting raw : Bool) :
    (∃ total data n, Fusion.plan counting raw result = .ok (.respond total data) ∧
        (Check.whole [.field "total"] total).orInvalid = .ok n) ∨
      Fusion.plan counting raw result = .ok (.fetch (Fusion.idsOf result.hits)) := by
  unfold Fusion.plan
  cases counting with
  | true =>
    obtain ⟨buckets, hbuckets, -⟩ := hbuckets
    rw [if_pos rfl, hbuckets]
    exact Or.inl ⟨_, _, _, rfl, rfl⟩
  | false =>
    rw [if_neg Bool.false_ne_true]
    split
    · obtain ⟨n, hn⟩ := hresult.counted
      exact Or.inl ⟨_, _, n, rfl, hn⟩
    · exact Or.inr rfl

theorem compile_isAnswered (settings : Settings) (c : CallerContext) (r : QueryRequest)
    (skipSecurity : Bool) : IsAnswered (r.compile settings c skipSecurity) := by
  rw [compile_eq]
  split
  · trivial
  · trivial

/-- Every request is answered or refused while engine and store answer. -/
theorem query_answered {w : World} (h : w.AnswersQueries) (c : CallerContext) (r : QueryRequest)
    (raw : Bool) (attributes : Option String) :
    (Fusion.query Http.fetchRecords c r false raw (Http.splitAttributes attributes)).Leads w
      fun answer _ => IsAnswered answer := by
  have hcompile := compile_isAnswered w.circumstances.settings c r false
  obtain ⟨result, hread, hresult, hbuckets, hids⟩ := yields_read h.proper
  unfold Fusion.query
  rw [leads_bind, leads_circumstances]
  dsimp only
  rw [leads_bind, leads_orFail]
  generalize r.compile w.circumstances.settings c false = compiled at hcompile ⊢
  rcases compiled with f | q
  · exact hcompile.error
  · dsimp only
    rw [leads_bind, search_leads_calm h.calm _ hread]
    dsimp only
    rw [leads_bind, leads_orBroken]
    rcases plan_cases hresult hbuckets q.engineQuery.isAggregation raw with
      ⟨total, data, n, hplan, htotal⟩ | hplan
    · rw [hplan]
      dsimp only [Except.mapError]
      rw [leads_orFail]
      unfold QueryResponse.of
      rw [htotal]
      trivial
    · rw [hplan]
      dsimp only [Except.mapError]
      rw [leads_bind]
      have hidentifiers : ∀ id ∈ Fusion.idsOf result.hits, IsIdentifier id := by
        intro id hid
        obtain ⟨hit, hhit, rfl⟩ := List.mem_map.mp (List.mem_filter.mp hid).1
        exact hids hit hhit
      refine (fetch_answered ?_ hidentifiers attributes).mono ?_
      · exact h.calm
      · rintro answer w' ⟨documents, rfl, hkeys⟩
        dsimp only
        rw [leads_orFail]
        obtain ⟨n, hmerge⟩ := Fusion.merge_eq hresult hkeys
        rw [hmerge]
        trivial

/-- A request is read, refused with its first flaw, or broken by a field that
cannot be checked. -/
theorem requestOf_leads (fields : Fields) (w : World) :
    (Http.requestOf fields).Leads w fun r w' => (∃ supply, w' = { w with supply }) ∧
      match r with
      | .ok _ => ¬ CannotBeChecked w.circumstances.settings.largestPage fields
      | .error (.service _) => ¬ CannotBeChecked w.circumstances.settings.largestPage fields
      | .error _ => CannotBeChecked w.circumstances.settings.largestPage fields := by
  have hbreaks := QueryRequest.check_breaksIff w.circumstances.defaults w.circumstances.settings
    fields w.supply
  unfold Http.requestOf
  rw [leads_bind, leads_circumstances]
  dsimp only
  refine (leads_bind (ask .guids) _ w _).mpr ((leads_ask _ _ _).mpr ?_)
  simp only [World.answer]
  generalize QueryRequest.check w.circumstances.defaults w.circumstances.settings (.obj fields)
    w.supply = outcome at hbreaks ⊢
  obtain ⟨outcome, supply⟩ := outcome
  dsimp only at hbreaks ⊢
  refine (leads_bind (ask (.keepGuids supply)) _ w _).mpr ((leads_ask _ _ _).mpr ?_)
  simp only [World.answer]
  rcases outcome with b | request | errors
  · exact ⟨⟨supply, rfl⟩, hbreaks⟩
  · exact ⟨⟨supply, rfl⟩, hbreaks.2⟩
  · cases errors with
    | nil => exact absurd rfl hbreaks.1
    | cons first rest => exact ⟨⟨supply, rfl⟩, hbreaks.2⟩

theorem World.AnswersQueries.withSupply {w : World} (h : w.AnswersQueries) (supply : GuidSupply) :
    World.AnswersQueries { w with supply } := ⟨h.calm, h.proper⟩

/-- Where checking breaks, no outcome of a check comes out. -/
theorem exists_ok_iff {α : Type} {x : Except Breakage (Checked α)} {condition : Prop}
    (h : BreaksIff x condition) : (∃ checked, x = .ok checked) ↔ ¬ condition := by
  rcases x with b | checked
  · exact iff_of_false not_exists_ok (not_not.mpr h)
  · exact iff_of_true ⟨checked, rfl⟩ h.2

/-- Checking a query request breaks for none but those whose order has no items
or whose size cannot be brought under the largest page. And while the search
engine and the store answer as they should, a posted query is answered or
refused with a service failure exactly when checking it does not break. -/
theorem a_posted_query_is_answered_iff (w : World) (h : w.AnswersQueries) (c : CallerContext)
    (fields : Fields) (raw : Bool) (attributes : Option String) :
    (∀ defaults settings g,
      (∃ checked, (QueryRequest.check defaults settings (.obj fields) g).1 = .ok checked) ↔
        ¬ CannotBeChecked settings.largestPage fields) ∧
    (IsAnswered ((Http.answerQuery c ⟨some fields, raw, attributes⟩).runIn w).1 ↔
      ¬ CannotBeChecked w.circumstances.settings.largestPage fields) := by
  have hleads : (Http.answerQuery c ⟨some fields, raw, attributes⟩).Leads w fun r _ =>
      IsAnswered r ↔ ¬ CannotBeChecked w.circumstances.settings.largestPage fields := by
    unfold Http.answerQuery
    dsimp only
    rw [leads_bind]
    refine (requestOf_leads fields w).mono ?_
    rintro outcome w' ⟨⟨supply, rfl⟩, hcase⟩
    rcases outcome with f | request
    · cases f with
      | service e => exact iff_of_true trivial hcase
      | _ => exact iff_of_false id (not_not.mpr hcase)
    · dsimp only
      rw [leads_bind]
      refine (query_answered (h.withSupply supply) c request raw attributes).mono ?_
      intro answer w' hanswer
      rcases answer with f | response
      · exact iff_of_true hanswer.error hcase
      · exact iff_of_true trivial hcase
  refine ⟨fun defaults settings g => ?_, hleads⟩
  exact exists_ok_iff (QueryRequest.check_breaksIff defaults settings fields g)

/-- A morning on which the engine finds one event. -/
def oneEventFound : World := { World.empty morning with responses := [oneHit "e-1"] }

theorem oneEventFound_answersQueries : oneEventFound.AnswersQueries where
  calm := rfl
  proper := by
    refine ⟨_, _, _, rfl, rfl, Or.inr (Or.inr ⟨_, 1, rfl, rfl⟩), rfl, ?_, Or.inl rfl⟩
    intro hit hhit
    rw [List.mem_singleton.mp hhit]
    exact ⟨_, [], rfl, rfl, ⟨⟨_, rfl⟩, _, rfl⟩, Or.inl rfl⟩

/-- A query for events with a size and an order is answered. -/
theorem a_sorted_query_is_answered :
    oneEventFound.AnswersQueries ∧
      IsAnswered ((Http.answerQuery (callerWith [("Event", ["read"])]) ⟨some
        [("entityName", .str "Event"), ("pageSize", .int 500), ("orderBy", .str "name desc")],
        true, none⟩).runIn oneEventFound).1 := by
  refine ⟨oneEventFound_answersQueries, ?_⟩
  refine (a_posted_query_is_answered_iff _ oneEventFound_answersQueries _ _ _ _).2.mpr ?_
  rintro (⟨given, hgiven, hitems⟩ | ⟨given, hgiven, hsize⟩)
  · obtain rfl : ("orderBy", Json.str "name desc") = given := Option.some.inj hgiven
    exact hitems
  · obtain rfl : ("pageSize", Json.int 500) = given := Option.some.inj hgiven
    cases hsize

/-- A number in place of an order breaks the query. -/
theorem a_number_is_no_order :
    oneEventFound.AnswersQueries ∧
      ¬ IsAnswered ((Http.answerQuery (callerWith [("Event", ["read"])]) ⟨some
        [("entityName", .str "Event"), ("orderBy", .int 5)], true, none⟩).runIn oneEventFound).1 :=
  ⟨oneEventFound_answersQueries, id⟩

end TenantSearch
