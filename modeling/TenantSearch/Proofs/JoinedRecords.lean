-- What a query answers with, in full. Records are fetched once, by the
-- identifiers of the hits; each that was hit comes back with the highlight and
-- score of its hit, and they go by falling score. Without records, the hits
-- themselves come back, and a counting query answers with its buckets.
import Mathlib.Data.List.Forall2
import TenantSearch.Proofs.ListedOrder

namespace TenantSearch

/-! ## The pure model -/

namespace Fusion

/-- A score: a number, or none. -/
def IsScore (score : Json) : Prop :=
  score = .null ∨ (score.isNaN = false ∧ ∃ x, score.number? = some x)

/-- A hit whose identifier is a text or missing, and whose score is a number or
missing. -/
structure IsHit (hit : SearchHit) : Prop where
  id : hit.id = .null ∨ ∃ s, hit.id = .str s
  score : IsScore hit.score

/-- The identifiers of the hits that are not empty. -/
def hitIds (hits : List SearchHit) : List String :=
  (hits.filterMap (·.id.text?)).filter (!·.isEmpty)

/-- Whether some hit bears the identifier of a record. -/
def wasHit (hits : List SearchHit) (record : Fields) : Bool :=
  hits.any fun hit => hit.id.text? == (record.look "id").text?

/-- A document with the highlight and score of a hit in place of its own. -/
structure Overlaid (document : Fields) (hit : SearchHit) (item : Fields) : Prop where
  highlight : item.get? "highlight" = some hit.highlight
  score : item.get? "score" = some hit.score
  others : ∀ name, name ≠ "highlight" → name ≠ "score" → item.get? name = document.get? name

/-- A score that may stand before another: a number before no score, and of two
numbers one that is not the lower. -/
def NotBelow (a b : Json) : Prop :=
  b = .null ∨ ∃ x y, a.number? = some x ∧ b.number? = some y ∧ x.lt y = false

/-- Scores that are alike: both missing, or numbers of which none is lower. -/
def SameScore (a b : Json) : Prop :=
  (a = .null ∧ b = .null) ∨
    ∃ x y, a.number? = some x ∧ b.number? = some y ∧ x.lt y = false ∧ y.lt x = false

/-- The data of an answer with records. There is one item for each record that
was hit, listed here as the store gives them; the data are these items by
falling score, those without a score last, and alike scores stay as listed. -/
structure JoinedAs (hits : List SearchHit) (records items data : List Fields) : Prop where
  joined : List.Forall₂ (fun record item => ∃ hit ∈ hits, hit.id = record.look "id" ∧
    Overlaid record hit item) (records.filter (wasHit hits)) items
  perm : data.Perm items
  falling : data.Pairwise fun d e => NotBelow (d.look "score") (e.look "score")
  stable : ∀ d e, [d, e].Sublist items → SameScore (d.look "score") (e.look "score") →
    [d, e].Sublist data

end Fusion

/-! ## Scores and ranks -/

namespace Dyadic

theorem scaledTo_neg (x : Dyadic) (power : Int) : x.neg.scaledTo power = -x.scaledTo power :=
  Int.neg_mul ..

/-- Negation turns the order around. -/
theorem lt_neg {x y : Dyadic} : x.neg.lt y.neg = y.lt x := by
  obtain ⟨power, hx, hy⟩ : ∃ power, power ≤ x.power ∧ power ≤ y.power :=
    ⟨min x.power y.power, by omega, by omega⟩
  have hx' : power ≤ x.neg.power := hx
  have hy' : power ≤ y.neg.power := hy
  rw [Bool.eq_iff_iff, lt_iff hx' hy', lt_iff hy hx, scaledTo_neg, scaledTo_neg]
  omega

theorem lt_irrefl (x : Dyadic) : x.lt x = false := by
  by_contra h
  rw [Bool.not_eq_false] at h
  rw [lt_asymm h] at h
  cases h

/-- Numbers of one value compare alike. -/
theorem lt_congr {x x' y y' : Dyadic} (hx : x.lt x' = false ∧ x'.lt x = false)
    (hy : y.lt y' = false ∧ y'.lt y = false) : x.lt y = x'.lt y' := by
  obtain ⟨power, hpx, hpx', hpy, hpy'⟩ : ∃ power, power ≤ x.power ∧ power ≤ x'.power ∧
      power ≤ y.power ∧ power ≤ y'.power :=
    ⟨min (min x.power x'.power) (min y.power y'.power), by omega, by omega, by omega, by omega⟩
  simp only [← Bool.not_eq_true, lt_iff hpx hpx', lt_iff hpx' hpx, lt_iff hpy hpy',
    lt_iff hpy' hpy] at hx hy
  rw [Bool.eq_iff_iff, lt_iff hpx hpy, lt_iff hpx' hpy']
  omega

/-- All noughts have one value, whatever their power. -/
theorem not_lt_of_zero {x y : Dyadic} (hx : x.mantissa = 0) (hy : y.mantissa = 0) :
    x.lt y = false := by
  unfold lt scaledTo
  simp [hx, hy]

end Dyadic

namespace Fusion

theorem idsOf_eq {hits : List SearchHit}
    (h : ∀ hit ∈ hits, hit.id = .null ∨ ∃ s, hit.id = .str s) :
    idsOf hits = (hitIds hits).map .str := by
  induction hits with
  | nil => rfl
  | cons hit rest ih =>
    have hrest := ih fun x hx => h x (List.mem_cons_of_mem _ hx)
    unfold idsOf hitIds at *
    rw [List.map_cons, List.filter_cons, List.filterMap_cons, hrest]
    rcases h hit List.mem_cons_self with hnull | ⟨s, hs⟩
    · rw [hnull]
      rfl
    · rw [hs]
      by_cases hempty : s.isEmpty = true
      · simp [Json.given, Json.text?, hempty]
      · simp [Json.given, Json.text?, hempty]

theorem key?_eq_text {v : Json} {s : String} : v.key? = some (.text s) ↔ v = .str s := by
  cases v with
  | float d =>
    by_cases hwhole : d.isWhole = true
    · simp [Json.key?, hwhole]
    · simp [Json.key?, hwhole]
  | _ => simp [Json.key?]

/-- A number that does not count as given is nought. -/
theorem mantissa_of_not_given {v : Json} {x : Dyadic} (hx : v.number? = some x)
    (h : v.given = false) : x.mantissa = 0 := by
  cases v with
  | bool b =>
    cases hx
    rw [show b = false from h]
    rfl
  | int n =>
    cases hx
    change n = 0
    simpa [Json.given] using h
  | float d =>
    cases hx
    have hzero : d.mantissa = 0 := by
      simp only [Json.given, Double.isZero, Bool.not_eq_false', Bool.and_eq_true,
        beq_iff_eq] at h
      exact h.2
    simp [Dyadic.ofDouble, hzero]
  | _ => cases hx

theorem rankOrLast_null {d : Fields} (h : d.look "score" = .null) :
    rankOrLast d = ⟨true, (Dyadic.ofInt 0).neg⟩ := by
  simp [rankOrLast, rankOf, h, Json.given, Json.isNull]

/-- A document with a score ranks by a number of the value of its score. -/
theorem rankOrLast_number {d : Fields} {x : Dyadic} (h : (d.look "score").number? = some x) :
    ∃ value, rankOrLast d = ⟨false, value.neg⟩ ∧ x.lt value = false ∧ value.lt x = false := by
  have hnull : (d.look "score").isNull = false := by
    cases hscore : d.look "score" with
    | null =>
      rw [hscore] at h
      cases h
    | _ => rfl
  by_cases hgiven : (d.look "score").given = true
  · refine ⟨x, ?_, Dyadic.lt_irrefl x, Dyadic.lt_irrefl x⟩
    simp [rankOrLast, rankOf, hgiven, h, hnull]
  · rw [Bool.not_eq_true] at hgiven
    have hzero := mantissa_of_not_given h hgiven
    refine ⟨.ofInt 0, ?_, Dyadic.not_lt_of_zero hzero rfl, Dyadic.not_lt_of_zero rfl hzero⟩
    simp [rankOrLast, rankOf, hgiven, hnull]

/-- A document is not ranked behind one whose score may not stand before its
own. -/
theorem not_before_iff {d e : Fields} (hd : IsScore (d.look "score"))
    (he : IsScore (e.look "score")) :
    (rankOrLast e).before (rankOrLast d) = false ↔ NotBelow (d.look "score") (e.look "score") := by
  rw [← Bool.not_eq_true, Rank.before_iff]
  rcases he with he | ⟨-, y, hy⟩
  · rw [rankOrLast_null he]
    have hbelow : NotBelow (d.look "score") (e.look "score") := Or.inl he
    simp only [hbelow, iff_true]
    rcases hd with hd | ⟨-, x, hx⟩
    · simp [rankOrLast_null hd, Dyadic.lt_irrefl]
    · obtain ⟨value, hrank, -⟩ := rankOrLast_number hx
      simp [hrank]
  · obtain ⟨value, hrank, hvalue⟩ := rankOrLast_number hy
    have hnull : e.look "score" ≠ .null := by
      intro hnull
      rw [hnull] at hy
      cases hy
    unfold NotBelow
    rw [hrank]
    rcases hd with hd | ⟨-, x, hx⟩
    · rw [rankOrLast_null hd]
      simp [hnull, hd, Json.number?]
    · obtain ⟨value', hrank', hvalue'⟩ := rankOrLast_number hx
      have hlt := Dyadic.lt_congr hvalue' hvalue
      rw [hrank']
      simp [hnull, hx, hy, Dyadic.lt_neg, hlt]

theorem SameScore.notBelow {a b : Json} (h : SameScore a b) : NotBelow a b := by
  rcases h with ⟨-, hb⟩ | ⟨x, y, hx, hy, hlt, -⟩
  · exact Or.inl hb
  · exact Or.inr ⟨x, y, hx, hy, hlt⟩

theorem exists_rank {d : Fields} (h : IsScore (d.look "score")) : ∃ rank, rankOf d = .ok rank := by
  unfold rankOf
  rcases h with h | ⟨-, x, hx⟩
  · rw [h]
    exact ⟨_, rfl⟩
  · dsimp only
    rw [hx]
    split
    · exact ⟨_, rfl⟩
    · next hnone => split at hnone <;> cases hnone

/-! ## Items -/

theorem overlaid_fuse (record : Fields) (hit : SearchHit) :
    Overlaid record hit (fuse (.obj record) hit) where
  highlight := by
    unfold fuse
    rw [Fields.get?_set, if_neg (by decide), Fields.get?_set, if_pos rfl]
  score := by
    unfold fuse
    rw [Fields.get?_set, if_pos rfl]
  others := by
    intro name hhighlight hscore
    unfold fuse
    rw [Fields.get?_set, if_neg hscore, Fields.get?_set, if_neg hhighlight]
    rfl

theorem overlaid_document (hit : SearchHit) : Overlaid hit.source hit hit.document :=
  overlaid_fuse hit.source hit

/-- One item for each record that was hit. -/
theorem served_joined {hits : List SearchHit} {records : List Fields}
    (hids : ∀ record ∈ records, ∃ s, record.look "id" = .str s) :
    List.Forall₂ (fun record item => ∃ hit ∈ hits, hit.id = record.look "id" ∧
      Overlaid record hit item) (records.filter (wasHit hits)) (served hits records) := by
  induction records with
  | nil => exact .nil
  | cons record rest ih =>
    have hrest := ih fun x hx => hids x (List.mem_cons_of_mem _ hx)
    obtain ⟨s, hs⟩ := hids record List.mem_cons_self
    have hkey : keyOf record = some (.text s) := key?_eq_text.mpr hs
    unfold served
    rw [List.filterMap_cons, List.filter_cons]
    rcases hlast : lastHit? hits (keyOf record) with _ | hit
    · have hnone : wasHit hits record = false := by
        unfold wasHit
        rw [List.any_eq_false]
        intro hit hhit htext
        have hnot := List.find?_eq_none.mp hlast hit (List.mem_reverse.mpr hhit)
        rw [hs] at htext
        apply hnot
        rw [hkey, beq_iff_eq, key?_eq_text]
        cases hid : hit.id with
        | str t =>
          rw [hid] at htext
          simpa [Json.text?] using htext
        | _ =>
          rw [hid] at htext
          cases htext
      rw [hnone]
      exact hrest
    · obtain ⟨hmem, hid⟩ := mem_of_lastHit? hlast
      rw [hkey, key?_eq_text] at hid
      have hsome : wasHit hits record = true := by
        unfold wasHit
        rw [List.any_eq_true]
        exact ⟨hit, hmem, by rw [hid, hs]; exact beq_self_eq_true _⟩
      rw [hsome]
      exact .cons ⟨hit, hmem, hid.trans hs.symm, overlaid_fuse record hit⟩ hrest

theorem IsHit.score_item {hits : List SearchHit} (h : ∀ hit ∈ hits, IsHit hit)
    {records : List Fields} {item : Fields} (hitem : item ∈ served hits records) :
    IsScore (item.look "score") := by
  obtain ⟨record, -, hit, hlast, rfl⟩ := mem_served.mp hitem
  have hscore : (fuse (.obj record) hit).look "score" = hit.score := by
    unfold Fields.look
    rw [(overlaid_fuse record hit).score]
    rfl
  rw [hscore]
  exact (h hit (mem_of_lastHit? hlast).1).score

theorem joinedAs_ordered {hits : List SearchHit} (h : ∀ hit ∈ hits, IsHit hit)
    {records : List Fields} (hids : ∀ record ∈ records, ∃ s, record.look "id" = .str s) :
    JoinedAs hits records (served hits records) (ordered hits records) where
  joined := served_joined hids
  perm := ordered_perm hits records
  falling := by
    have hmem {item : Fields} (hitem : item ∈ ordered hits records) :
        IsScore (item.look "score") :=
      IsHit.score_item h ((ordered_perm hits records).mem_iff.mp hitem)
    refine (ordered_pairwise hits records).imp_of_mem ?_
    intro d e hd he hbefore
    exact (not_before_iff (hmem hd) (hmem he)).mp hbefore
  stable := by
    intro d e hsublist hsame
    have hd : d ∈ served hits records := hsublist.subset (by simp)
    have he : e ∈ served hits records := hsublist.subset (by simp)
    refine ordered_stable hsublist ?_
    exact (not_before_iff (IsHit.score_item h hd) (IsHit.score_item h he)).mpr hsame.notBelow

/-- Fetched records are merged into items that are ranked by the scores of
their hits. -/
theorem merge_joined {result : SearchResult} (h : ∀ hit ∈ result.hits, IsHit hit)
    {records : List Fields} (hids : ∀ record ∈ records, ∃ s, record.look "id" = .str s) :
    merge result (records.map .obj) =
      QueryResponse.of result.total (ordered result.hits records) := by
  refine merge_eq_of ?_ ?_ ?_
  · intro hit hhit
    rcases (h hit hhit).id with hnull | ⟨s, hs⟩
    · exact ⟨.null, by rw [hnull]; rfl⟩
    · exact ⟨.text s, key?_eq_text.mpr hs⟩
  · intro hit hhit
    refine exists_rank ?_
    have hscore : hit.document.look "score" = hit.score := by
      unfold Fields.look
      rw [(overlaid_document hit).score]
      rfl
    rw [hscore]
    exact (h hit hhit).score
  · intro record hrecord
    obtain ⟨s, hs⟩ := hids record hrecord
    exact ⟨.text s, key?_eq_text.mpr hs⟩

end Fusion

/-! ## Queries -/

section Queries

variable {w w₁ : World} {c : CallerContext} {r : QueryRequest} {skipSecurity : Bool}
  {q : SecuredQuery} {result : SearchResult}

open Fusion

theorem isAggregation_of_counting {settings : Settings} {field : String}
    (hq : r.compile settings c skipSecurity = .ok q) (hcounting : r.aggregate = some field) :
    q.engineQuery.isAggregation = true := by
  obtain ⟨-, rfl⟩ := compile_eq_ok_iff.mp hq
  unfold SecuredQuery.engineQuery QueryRequest.asking
  rw [hcounting]
  rfl

/-- After its search, a query does what its plan says. -/
theorem query_runIn (hq : r.compile w.circumstances.settings c skipSecurity = .ok q)
    (hsearch : (Engine.search q.engineQuery).runIn w = (.ok result, w₁)) (fetch : Fetch)
    (raw : Bool) (attributes : Json) :
    (query fetch c r skipSecurity raw attributes).runIn w =
      match plan q.engineQuery.isAggregation raw result with
      | .error b => (.error (.broken b), w₁)
      | .ok (.respond total data) => (QueryResponse.of total data, w₁)
      | .ok (.fetch ids) =>
        match (fetch ids attributes).runIn w₁ with
        | (.error f, w₂) => (.error f, w₂)
        | (.ok records, w₂) => (merge result records, w₂) := by
  have hlook : Service.circumstances.runIn w = (.ok w.circumstances, w) := rfl
  have hcompiled : (Service.orFail (.ok q)).runIn w = (.ok q, w) := rfl
  unfold query
  rw [Service.runIn_bind, hlook]
  dsimp only
  rw [hq, Service.runIn_bind, hcompiled]
  dsimp only
  rw [Service.runIn_bind, hsearch]
  dsimp only
  rw [Service.runIn_bind]
  rcases plan q.engineQuery.isAggregation raw result with b | ⟨total, data⟩ | ids
  · rfl
  · rfl
  · have hplanned : (Service.orBroken (.ok (Plan.fetch ids))).runIn w₁ =
      (.ok (Plan.fetch ids), w₁) := rfl
    rw [hplanned]
    dsimp only
    rw [Service.runIn_bind]
    rcases (fetch ids attributes).runIn w₁ with ⟨f | records, w₂⟩
    · rfl
    · rfl

theorem plan_counting (raw : Bool) (result : SearchResult) :
    plan true raw result = result.buckets.map fun buckets =>
      .respond (.int buckets.length) buckets := by
  unfold plan
  rw [if_pos rfl]
  rcases result.buckets with b | buckets
  · rfl
  · rfl

theorem plan_listing {raw : Bool} (h : raw = false ∨ result.hits = []) :
    plan false raw result = .ok (.respond result.total (result.hits.map (·.document))) := by
  have hanswer : (!raw || result.hits.isEmpty) = true := by
    rcases h with rfl | hnil
    · rfl
    · simp [hnil]
  unfold plan
  rw [if_neg Bool.false_ne_true, hanswer]
  rfl

/-- What a query answers with, from the result of its search, whatever the
total is. A list that wants records and has hits fetches once, by the
identifiers of the hits that are not empty; a failure of the fetch is its own,
and records with texts as identifiers are joined with their hits. Otherwise
nothing is fetched: a list answers with its hits in the engine's order, and a
counting query with its buckets and their number. -/
theorem query_answers_with_joined_records
    (hq : r.compile w.circumstances.settings c skipSecurity = .ok q)
    (hsearch : (Engine.search q.engineQuery).runIn w = (.ok result, w₁))
    (hhits : ∀ hit ∈ result.hits, IsHit hit) :
    (r.aggregate = none → result.hits ≠ [] → ∀ (fetch : Fetch) attributes w₂,
      (∀ f, (fetch ((hitIds result.hits).map .str) attributes).runIn w₁ = (.error f, w₂) →
        (query fetch c r skipSecurity true attributes).runIn w = (.error f, w₂)) ∧
      ∀ records : List Fields,
        (fetch ((hitIds result.hits).map .str) attributes).runIn w₁ =
          (.ok (records.map .obj), w₂) →
        (∀ record ∈ records, ∃ id, record.look "id" = .str id) →
        ∃ items data, JoinedAs result.hits records items data ∧
          (query fetch c r skipSecurity true attributes).runIn w =
            (QueryResponse.of result.total data, w₂)) ∧
    (r.aggregate = none → ∃ data,
      List.Forall₂ (fun hit item => Overlaid hit.source hit item) result.hits data ∧
      ∀ raw, raw = false ∨ result.hits = [] → ∀ (fetch : Fetch) attributes,
        (query fetch c r skipSecurity raw attributes).runIn w =
          (QueryResponse.of result.total data, w₁)) ∧
    (∀ field, r.aggregate = some field → ∀ (fetch : Fetch) raw attributes,
      (∀ b, result.buckets = .error b →
        (query fetch c r skipSecurity raw attributes).runIn w = (.error (.broken b), w₁)) ∧
      ∀ buckets, result.buckets = .ok buckets →
        (query fetch c r skipSecurity raw attributes).runIn w =
          (.ok ⟨buckets.length, buckets⟩, w₁)) ∧
    ∀ n data, result.total = .int n → QueryResponse.of result.total data = .ok ⟨n, data⟩ := by
  refine ⟨?_, ?_, ?_, ?_⟩
  · intro hlist hne fetch attributes w₂
    have hrun := query_runIn hq hsearch fetch true attributes
    rw [isAggregation_of_list hq hlist, plan_list, if_neg (by simp [hne])] at hrun
    dsimp only at hrun
    rw [idsOf_eq fun hit hhit => (hhits hit hhit).id] at hrun
    constructor
    · intro f hfetch
      rw [hrun, hfetch]
    · intro records hfetch hids
      refine ⟨_, _, joinedAs_ordered hhits hids, ?_⟩
      rw [hrun, hfetch]
      dsimp only
      rw [merge_joined hhits hids]
  · intro hlist
    refine ⟨result.hits.map (·.document), ?_, ?_⟩
    · rw [List.forall₂_map_right_iff, List.forall₂_same]
      intro hit _
      exact overlaid_document hit
    · intro raw hraw fetch attributes
      rw [query_runIn hq hsearch, isAggregation_of_list hq hlist, plan_listing hraw]
  · intro field hcounting fetch raw attributes
    have hrun := query_runIn hq hsearch fetch raw attributes
    rw [isAggregation_of_counting hq hcounting, plan_counting] at hrun
    constructor
    · intro b hbuckets
      rw [hrun, hbuckets]
      rfl
    · intro buckets hbuckets
      rw [hrun, hbuckets]
      rfl
  · intro n data htotal
    rw [htotal]
    rfl

end Queries

/-- Two hits with rising scores are joined with their records. -/
theorem rising_scores_join_their_records :
    Fusion.hitIds [scoredHit "a" (.int 1), scoredHit "b" (.int 2)] = ["a", "b"] ∧
      ∃ items data w₂, Fusion.JoinedAs [scoredHit "a" (.int 1), scoredHit "b" (.int 2)]
          storedWays items data ∧
        (Fusion.query (returning storedWays) siteReader listedSites false true .null).runIn
          (listingWorld (.int 1) (.int 2)) = (.ok ⟨2, data⟩, w₂) := by
  have hcalm : (listingWorld (.int 1) (.int 2)).Calm := rfl
  have hcompile := compile_listedSites (listingWorld (.int 1) (.int 2)).circumstances.settings
  have hsearch : (Engine.search siteQuery.engineQuery).runIn (listingWorld (.int 1) (.int 2)) =
      (.ok ⟨.int 2, [scoredHit "a" (.int 1), scoredHit "b" (.int 2)], .obj []⟩, _) :=
    (search_leads_calm hcalm _ (read_twoHits _ _) fun r w' => (r, w') = _).mpr rfl
  have hhits : ∀ hit ∈ [scoredHit "a" (.int 1), scoredHit "b" (.int 2)], Fusion.IsHit hit := by
    intro hit hhit
    rcases List.mem_cons.mp hhit with rfl | hhit
    · exact ⟨Or.inr ⟨"a", rfl⟩, Or.inr ⟨rfl, _, rfl⟩⟩
    · cases List.mem_singleton.mp hhit
      exact ⟨Or.inr ⟨"b", rfl⟩, Or.inr ⟨rfl, _, rfl⟩⟩
  have hids : ∀ record ∈ storedWays, ∃ id, record.look "id" = .str id := by
    intro record hrecord
    rcases List.mem_cons.mp hrecord with rfl | hrecord
    · exact ⟨"b", rfl⟩
    · cases List.mem_singleton.mp hrecord
      exact ⟨"a", rfl⟩
  obtain ⟨hjoined, -, -, htotal⟩ := query_answers_with_joined_records hcompile hsearch hhits
  obtain ⟨items, data, hdata, hrun⟩ :=
    (hjoined rfl (List.cons_ne_nil _ _) (returning storedWays) .null _).2 storedWays rfl hids
  rw [htotal 2 data rfl] at hrun
  exact ⟨rfl, items, data, _, hdata, hrun⟩

end TenantSearch
