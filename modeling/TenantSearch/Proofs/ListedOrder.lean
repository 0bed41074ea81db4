-- In which order a query returns the records that it fetched. They go by the
-- score of the last hit of each, and where scores are alike by the order in which
-- the store gave them; the engine listed them by their first hits.
import TenantSearch.Proofs.ServedRecords

namespace TenantSearch

/-! ## The order of numbers -/

namespace Dyadic

theorem scaledTo_of_le {x : Dyadic} {power lower : Int} (h : power ≤ x.power)
    (hlower : lower ≤ power) :
    x.scaledTo lower = x.scaledTo power * Int.pow 2 (power - lower).toNat := by
  have hexponent : (x.power - lower).toNat = (x.power - power).toNat + (power - lower).toNat := by
    omega
  have hpow (n : Nat) : Int.pow 2 n = 2 ^ n := rfl
  unfold scaledTo
  rw [hexponent, hpow, hpow, hpow, Int.pow_add, Int.mul_assoc]

/-- Numbers are compared by their mantissas at any power low enough for both. -/
theorem lt_iff {x y : Dyadic} {power : Int} (hx : power ≤ x.power) (hy : power ≤ y.power) :
    x.lt y = true ↔ x.scaledTo power < y.scaledTo power := by
  have hmin : power ≤ min x.power y.power := by omega
  have hpos : 0 < Int.pow 2 (min x.power y.power - power).toNat := Int.pow_pos (by decide)
  rw [scaledTo_of_le (Int.min_le_left _ _) hmin, scaledTo_of_le (Int.min_le_right _ _) hmin]
  unfold lt
  rw [decide_eq_true_iff]
  exact (Int.mul_lt_mul_right hpos).symm

theorem lt_asymm {x y : Dyadic} (h : x.lt y = true) : y.lt x = false := by
  have hx : min x.power y.power ≤ x.power := Int.min_le_left _ _
  have hy : min x.power y.power ≤ y.power := Int.min_le_right _ _
  rw [lt_iff hx hy] at h
  rw [Bool.eq_false_iff, Ne, lt_iff hy hx]
  omega

/-- A number that is not below a second one is not below those below it. -/
theorem lt_of_lt_of_not {x y z : Dyadic} (h : x.lt z = true) (hyz : y.lt z = false) :
    x.lt y = true := by
  obtain ⟨power, hx, hy, hz⟩ : ∃ power, power ≤ x.power ∧ power ≤ y.power ∧ power ≤ z.power :=
    ⟨min (min x.power y.power) z.power, by omega, by omega, by omega⟩
  rw [lt_iff hx hz] at h
  rw [Bool.eq_false_iff, Ne, lt_iff hy hz] at hyz
  rw [lt_iff hx hy]
  omega

end Dyadic

/-! ## The order of ranks -/

namespace Fusion

theorem Rank.before_iff {a b : Rank} : a.before b = true ↔
    (a.unscored = b.unscored ∧ a.descent.lt b.descent = true) ∨
      (a.unscored = false ∧ b.unscored = true) := by
  unfold before
  cases a.unscored <;> cases b.unscored <;> simp

theorem Rank.before_asymm {a b : Rank} (h : a.before b = true) : b.before a = false := by
  rw [Bool.eq_false_iff, Ne, before_iff]
  rintro (⟨hsame, hlt⟩ | ⟨hscored, hunscored⟩)
  · rcases before_iff.mp h with ⟨-, hlt'⟩ | ⟨hscored, hunscored⟩
    · rw [Dyadic.lt_asymm hlt] at hlt'
      cases hlt'
    · rw [hunscored, hscored] at hsame
      cases hsame
  · rcases before_iff.mp h with ⟨hsame, -⟩ | ⟨hscored', -⟩
    · rw [hunscored, hscored] at hsame
      cases hsame
    · rw [hunscored] at hscored'
      cases hscored'

/-- Of a rank before another, every rank is behind the one or before the
other. -/
theorem Rank.before_or {a c : Rank} (h : c.before a = true) (b : Rank) :
    c.before b = true ∨ b.before a = true := by
  rw [before_iff, before_iff]
  rcases before_iff.mp h with ⟨hsame, hlt⟩ | ⟨hscored, hunscored⟩
  · by_cases hb : b.unscored = a.unscored
    · by_cases hba : b.descent.lt a.descent = true
      · exact Or.inr (Or.inl ⟨hb, hba⟩)
      · exact Or.inl (Or.inl ⟨hsame.trans hb.symm,
          Dyadic.lt_of_lt_of_not hlt (Bool.eq_false_iff.mpr hba)⟩)
    · cases hunscored : b.unscored with
      | false =>
        rw [hunscored] at hb
        exact Or.inr (Or.inr ⟨rfl, by simpa using hb⟩)
      | true =>
        rw [hunscored] at hb
        exact Or.inl (Or.inr ⟨by rw [hsame]; simpa using hb, rfl⟩)
  · cases hb : b.unscored with
    | false => exact Or.inr (Or.inr ⟨rfl, hunscored⟩)
    | true => exact Or.inl (Or.inr ⟨hscored, rfl⟩)

/-- Whether ranked documents may stand in this order. -/
def inOrder (p q : Rank × Fields) : Bool := !q.1.before p.1

theorem inOrder_total (p q : Rank × Fields) : (inOrder p q || inOrder q p) = true := by
  unfold inOrder
  by_cases h : q.1.before p.1 = true
  · rw [Rank.before_asymm h, Bool.not_false, Bool.or_true]
  · rw [Bool.eq_false_iff.mpr h, Bool.not_false, Bool.true_or]

theorem inOrder_trans (p q s : Rank × Fields) (hpq : inOrder p q = true)
    (hqs : inOrder q s = true) : inOrder p s = true := by
  unfold inOrder at *
  rw [Bool.not_eq_true'] at *
  rw [Bool.eq_false_iff]
  intro h
  rcases Rank.before_or h q.1 with h | h
  · rw [h] at hqs
    cases hqs
  · rw [h] at hpq
    cases hpq

/-! ## The hits of a record -/

/-- The key of a record or a document: that of its identifier. -/
def keyOf (fields : Fields) : Option Json.Key := (fields.look "id").key?

/-- Where a key is first listed. -/
def place (hits : List SearchHit) (key : Option Json.Key) : Nat :=
  hits.findIdx (·.id.key? == key)

/-- The last hit under a key. -/
def lastHit? (hits : List SearchHit) (key : Option Json.Key) : Option SearchHit :=
  hits.reverse.find? (·.id.key? == key)

/-- A result whose hits all have a key and a rank. -/
structure WellFormed (result : SearchResult) : Prop where
  keyed : ∀ hit ∈ result.hits, ∃ key, hit.id.key? = some key
  ranked : ∀ hit ∈ result.hits, ∃ rank, rankOf hit.document = .ok rank
  counted : ∃ n, (Check.whole [.field "total"] result.total).orInvalid = .ok n

theorem rankOf_fuse (record : Json) (hit : SearchHit) :
    rankOf (fuse record hit) = rankOf hit.document := by
  have hfused : (fuse record hit).look "score" = hit.score := by
    unfold fuse
    rw [Fields.look_set, if_pos rfl]
  have hdocument : hit.document.look "score" = hit.score := by
    unfold SearchHit.document
    rw [Fields.look_set, if_pos rfl]
  unfold rankOf
  rw [hfused, hdocument]

theorem keyOf_fuse (record : Fields) (hit : SearchHit) :
    keyOf (fuse (.obj record) hit) = keyOf record := by
  unfold keyOf
  rw [look_fuse (by decide) (by decide)]
  rfl

theorem mapM_eq_ok_map {ε α β : Type} {f : α → Except ε β} {g : α → β} {l : List α}
    (h : ∀ x ∈ l, f x = .ok (g x)) : l.mapM f = .ok (l.map g) := by
  induction l with
  | nil => rfl
  | cons x rest ih =>
    rw [List.mapM_cons, h x List.mem_cons_self, ok_bind, ih fun y hy => h y (List.mem_cons_of_mem _ hy)]
    rfl

/-- A hit under its key. -/
def keyedHit (hit : SearchHit) : Json.Key × SearchHit := (hit.id.key?.getD .null, hit)

theorem hitsByKey_eq {hits : List SearchHit}
    (h : ∀ hit ∈ hits, ∃ key, hit.id.key? = some key) :
    hitsByKey hits = .ok (hits.map keyedHit).reverse := by
  unfold hitsByKey
  refine bind_eq_ok.mpr ⟨hits.map keyedHit, mapM_eq_ok_map fun hit hmem => ?_, rfl⟩
  obtain ⟨key, hkey⟩ := h hit hmem
  unfold keyedHit
  rw [hkey]
  rfl

theorem find?_keyedHit {hits : List SearchHit}
    (h : ∀ hit ∈ hits, ∃ key, hit.id.key? = some key) (key : Json.Key) :
    ((hits.map keyedHit).find? (·.1 == key)).map (·.2) = hits.find? (·.id.key? == some key) := by
  induction hits with
  | nil => rfl
  | cons hit rest ih =>
    obtain ⟨own, hown⟩ := h hit List.mem_cons_self
    rw [List.map_cons, List.find?_cons, List.find?_cons, ← ih fun x hx => h x (List.mem_cons_of_mem _ hx)]
    have hsame : ((keyedHit hit).1 == key) = (hit.id.key? == some key) := by
      unfold keyedHit
      rw [hown]
      rfl
    rw [hsame]
    cases hit.id.key? == some key with
    | true => rfl
    | false => rfl

/-- The documents of the records that have a hit, in the order of the records. -/
def served (hits : List SearchHit) (documents : List Fields) : List Fields :=
  documents.filterMap fun d => (lastHit? hits (keyOf d)).map (fuse (.obj d))

theorem fuseAll_eq {hits : List SearchHit} (h : ∀ hit ∈ hits, ∃ key, hit.id.key? = some key)
    {documents : List Fields} (hdocuments : ∀ d ∈ documents, ∃ key, keyOf d = some key) :
    fuseAll (hits.map keyedHit).reverse (documents.map .obj) = .ok (served hits documents) := by
  induction documents with
  | nil => rfl
  | cons d rest ih =>
    obtain ⟨key, hkey⟩ := hdocuments d List.mem_cons_self
    have hhit : hitOf (hits.map keyedHit).reverse (.obj d) = .ok (lastHit? hits (keyOf d)) := by
      have hreversed : ∀ hit ∈ hits.reverse, ∃ key, hit.id.key? = some key := fun hit hmem =>
        h hit (List.mem_reverse.mp hmem)
      have hfield : (Json.obj d).field "id" .null = .ok (d.look "id") := rfl
      have hkey' : (d.look "id").key? = some key := hkey
      unfold hitOf lastHit?
      rw [hfield, ok_bind, hkey', hkey, ← List.map_reverse, ← find?_keyedHit hreversed]
      rfl
    rw [List.map_cons]
    unfold fuseAll served
    rw [hhit, ok_bind, ih fun e he => hdocuments e (List.mem_cons_of_mem _ he), ok_bind,
      List.filterMap_cons]
    rcases lastHit? hits (keyOf d) with _ | hit
    · rfl
    · rfl

/-- The rank of a document; one that has none goes last. -/
def rankOrLast (d : Fields) : Rank :=
  match rankOf d with
  | .ok rank => rank
  | .error _ => ⟨true, .ofInt 0⟩

/-- The documents of the records that have a hit, by the rank of their last
hits. -/
def ordered (hits : List SearchHit) (documents : List Fields) : List Fields :=
  (((served hits documents).map fun d => (rankOrLast d, d)).mergeSort inOrder).map (·.2)

theorem mem_served {hits : List SearchHit} {documents : List Fields} {d : Fields} :
    d ∈ served hits documents ↔ ∃ document ∈ documents, ∃ hit,
      lastHit? hits (keyOf document) = some hit ∧ fuse (.obj document) hit = d := by
  unfold served
  rw [List.mem_filterMap]
  simp only [Option.map_eq_some_iff]

theorem mem_of_lastHit? {hits : List SearchHit} {key : Option Json.Key} {hit : SearchHit}
    (h : lastHit? hits key = some hit) : hit ∈ hits ∧ hit.id.key? = key :=
  ⟨List.mem_reverse.mp (List.mem_of_find?_eq_some h), by simpa using List.find?_some h⟩

theorem merge_eq_of {result : SearchResult}
    (hkeyed : ∀ hit ∈ result.hits, ∃ key, hit.id.key? = some key)
    (hranked : ∀ hit ∈ result.hits, ∃ rank, rankOf hit.document = .ok rank)
    {documents : List Fields} (hdocuments : ∀ d ∈ documents, ∃ key, keyOf d = some key) :
    merge result (documents.map .obj) =
      QueryResponse.of result.total (ordered result.hits documents) := by
  have hranks (d : Fields) (hd : d ∈ served result.hits documents) :
      (·, d) <$> rankOf d = .ok (rankOrLast d, d) := by
    obtain ⟨document, -, hit, hhit, rfl⟩ := mem_served.mp hd
    obtain ⟨rank, hrank⟩ := hranked hit (mem_of_lastHit? hhit).1
    unfold rankOrLast
    rw [rankOf_fuse, hrank]
    rfl
  have hordered : ranked (served result.hits documents) = .ok (ordered result.hits documents) := by
    unfold ranked
    rw [mapM_eq_ok_map hranks]
    rfl
  unfold merge
  rw [hitsByKey_eq hkeyed, ok_bind, fuseAll_eq hkeyed hdocuments, ok_bind, hordered]

theorem merge_eq {result : SearchResult} (h : WellFormed result) {documents : List Fields}
    (hdocuments : ∀ d ∈ documents, ∃ key, keyOf d = some key) :
    ∃ n, merge result (documents.map .obj) = .ok ⟨n, ordered result.hits documents⟩ := by
  obtain ⟨n, hn⟩ := h.counted
  refine ⟨n, ?_⟩
  rw [merge_eq_of h.keyed h.ranked hdocuments]
  unfold QueryResponse.of
  rw [hn]
  rfl

/-! ## The order in which the engine listed -/

/-- Documents are in the order in which the engine first listed their keys. -/
def InListedOrder (hits : List SearchHit) (data : List Fields) : Prop :=
  data.Pairwise fun d e => place hits (keyOf d) < place hits (keyOf e)

/-- Of two records that have hits, the last hit of the one listed first ranks
before that of the other. -/
def RankedAsListed (hits : List SearchHit) (documents : List Fields) : Prop :=
  ∀ d ∈ documents, ∀ e ∈ documents, ∀ hit hit', lastHit? hits (keyOf d) = some hit →
    lastHit? hits (keyOf e) = some hit' → place hits (keyOf d) < place hits (keyOf e) →
      (rankOrLast hit.document).before (rankOrLast hit'.document) = true

theorem getElem_place {hits : List SearchHit} {key : Option Json.Key} {hit : SearchHit}
    (h : lastHit? hits key = some hit) :
    ∃ hlt : place hits key < hits.length, hits[place hits key].id.key? = key := by
  obtain ⟨hmem, hkey⟩ := mem_of_lastHit? h
  have hlt : place hits key < hits.length :=
    List.findIdx_lt_length_of_exists ⟨hit, hmem, by simpa using hkey⟩
  have hfound : (hits[place hits key].id.key? == key) = true :=
    @List.findIdx_getElem SearchHit (fun hit : SearchHit => hit.id.key? == key) hits hlt
  exact ⟨hlt, by simpa using hfound⟩

/-- Two keys that are listed are not first listed in the same place. -/
theorem place_ne {hits : List SearchHit} {key key' : Option Json.Key} {hit hit' : SearchHit}
    (h : lastHit? hits key = some hit) (h' : lastHit? hits key' = some hit') (hne : key ≠ key') :
    place hits key ≠ place hits key' := by
  obtain ⟨hlt, hfound⟩ := getElem_place h
  obtain ⟨hlt', hfound'⟩ := getElem_place h'
  intro heq
  refine hne ?_
  rw [← hfound, ← hfound']
  simp only [heq]

theorem rankOrLast_fuse (record : Json) (hit : SearchHit) :
    rankOrLast (fuse record hit) = rankOrLast hit.document := by
  unfold rankOrLast
  rw [rankOf_fuse]

theorem ordered_perm (hits : List SearchHit) (documents : List Fields) :
    (ordered hits documents).Perm (served hits documents) := by
  have hsorted := (List.mergeSort_perm ((served hits documents).map fun d => (rankOrLast d, d))
    inOrder).map Prod.snd
  rw [List.map_map] at hsorted
  unfold ordered
  simpa [Function.comp_def] using hsorted

/-- No record is served where nothing was hit. -/
theorem ordered_of_no_hits (documents : List Fields) : ordered [] documents = [] := by
  refine List.Perm.eq_nil ((ordered_perm [] documents).trans (.of_eq ?_))
  refine List.eq_nil_iff_forall_not_mem.mpr fun d hd => ?_
  obtain ⟨document, -, hit, hhit, -⟩ := mem_served.mp hd
  cases (mem_of_lastHit? hhit).1

/-- The records of a list are fetched if there are hits. -/
theorem plan_list (result : SearchResult) :
    plan false true result = .ok (if result.hits.isEmpty then .respond result.total []
      else .fetch (idsOf result.hits)) := by
  unfold plan
  rw [if_neg Bool.false_ne_true, Bool.not_true, Bool.false_or]
  rcases result.hits with _ | ⟨hit, rest⟩
  · rfl
  · rfl

/-- No document stands behind one of a later rank. -/
theorem ordered_pairwise (hits : List SearchHit) (documents : List Fields) :
    (ordered hits documents).Pairwise fun d e => (rankOrLast e).before (rankOrLast d) = false := by
  unfold ordered
  rw [List.pairwise_map]
  have hsorted := List.pairwise_mergeSort inOrder_trans inOrder_total
    ((served hits documents).map fun d => (rankOrLast d, d))
  refine hsorted.imp_of_mem fun {p q} hp hq h => ?_
  have hrank (p : Rank × Fields)
      (hp : p ∈ ((served hits documents).map fun d => (rankOrLast d, d)).mergeSort inOrder) :
      p.1 = rankOrLast p.2 := by
    obtain ⟨d, -, rfl⟩ := List.mem_map.mp (List.mem_mergeSort.mp hp)
    rfl
  rw [← hrank p hp, ← hrank q hq]
  simpa [inOrder] using h

/-- Documents that rank alike stay in the order of their records. -/
theorem ordered_stable {hits : List SearchHit} {documents : List Fields} {d e : Fields}
    (hsublist : [d, e].Sublist (served hits documents))
    (hrank : (rankOrLast e).before (rankOrLast d) = false) :
    [d, e].Sublist (ordered hits documents) := by
  have hpair : inOrder (rankOrLast d, d) (rankOrLast e, e) = true := by
    unfold inOrder
    rw [hrank]
    rfl
  have hsorted := List.pair_sublist_mergeSort inOrder_trans inOrder_total hpair
    (hsublist.map fun d => (rankOrLast d, d))
  exact hsorted.map Prod.snd

/-- The keys of the records that have a hit are some of the keys. -/
theorem served_keys (hits : List SearchHit) (documents : List Fields) :
    ((served hits documents).map keyOf).Sublist (documents.map keyOf) := by
  induction documents with
  | nil => exact .slnil
  | cons d rest ih =>
    unfold served
    rw [List.filterMap_cons, List.map_cons]
    rcases lastHit? hits (keyOf d) with _ | hit
    · exact ih.cons _
    · dsimp only [Option.map_some]
      rw [List.map_cons, keyOf_fuse]
      exact ih.cons_cons _

/-- Records that rank as they are listed are put in the listed order, whatever
order they come in. -/
theorem inListedOrder_of_rankedAsListed {hits : List SearchHit} {documents : List Fields}
    (distinct : (documents.map keyOf).Nodup) (h : RankedAsListed hits documents) :
    InListedOrder hits (ordered hits documents) := by
  have hkeys : ((ordered hits documents).map keyOf).Nodup :=
    ((ordered_perm hits documents).map keyOf).nodup_iff.mpr
      (distinct.sublist (served_keys hits documents))
  have hdistinct : (ordered hits documents).Pairwise fun d e => keyOf d ≠ keyOf e :=
    List.pairwise_map.mp hkeys
  refine ((ordered_pairwise hits documents).and hdistinct).imp_of_mem ?_
  rintro d e hd he ⟨hrank, hne⟩
  obtain ⟨x, hx, hit, hhit, rfl⟩ := mem_served.mp ((ordered_perm hits documents).mem_iff.mp hd)
  obtain ⟨y, hy, hit', hhit', rfl⟩ := mem_served.mp ((ordered_perm hits documents).mem_iff.mp he)
  rw [keyOf_fuse, keyOf_fuse] at hne ⊢
  rw [rankOrLast_fuse, rankOrLast_fuse] at hrank
  rcases Nat.lt_or_gt_of_ne (place_ne hhit hhit' hne) with hlt | hgt
  · exact hlt
  · rw [h y hy x hx hit' hit hhit' hhit hgt] at hrank
    cases hrank

/-- Two records that rank alike or the other way are put in the wrong order if
they come in it. -/
theorem rankedAsListed_of_inListedOrder {hits : List SearchHit} {documents : List Fields}
    (h : ∀ ds, ds.Perm documents → InListedOrder hits (ordered hits ds)) :
    RankedAsListed hits documents := by
  intro d hd e he hit hit' hhit hhit' hplace
  refine Classical.byContradiction fun hbefore => ?_
  have hne : e ≠ d := fun heq => by
    rw [heq] at hplace
    exact Nat.lt_irrefl _ hplace
  obtain ⟨before, after, hsplit⟩ := List.append_of_mem hd
  have hrest : documents.Perm (d :: (before ++ after)) := hsplit ▸ List.perm_middle
  have he' : e ∈ before ++ after := (List.mem_cons.mp (hrest.mem_iff.mp he)).resolve_left hne
  obtain ⟨before', after', hsplit'⟩ := List.append_of_mem he'
  have hrest' : (before ++ after).Perm (e :: (before' ++ after')) :=
    hsplit' ▸ List.perm_middle
  have hperm : (e :: d :: (before' ++ after')).Perm documents :=
    ((hrest.trans (hrest'.cons d)).trans (.swap ..)).symm
  have hserved : served hits (e :: d :: (before' ++ after')) =
      fuse (.obj e) hit' :: fuse (.obj d) hit :: served hits (before' ++ after') := by
    unfold served
    rw [List.filterMap_cons, List.filterMap_cons, hhit, hhit']
    rfl
  have hsublist : [fuse (.obj e) hit', fuse (.obj d) hit].Sublist
      (served hits (e :: d :: (before' ++ after'))) := by
    rw [hserved]
    exact ((List.nil_sublist _).cons_cons _).cons_cons _
  have hrank : (rankOrLast (fuse (.obj d) hit)).before (rankOrLast (fuse (.obj e) hit')) = false := by
    rw [rankOrLast_fuse, rankOrLast_fuse]
    exact Bool.eq_false_iff.mpr hbefore
  have horder := List.pairwise_pair.mp ((h _ hperm).sublist (ordered_stable hsublist hrank))
  rw [keyOf_fuse, keyOf_fuse] at horder
  exact Nat.lt_asymm hplace horder

end Fusion

/-! ## Answered queries -/

/-- A store that gives these documents, in this order. -/
def returning (documents : List Fields) : Fusion.Fetch := fun _ _ => pure (documents.map .obj)

open Service

/-- A list that fetches its records answers with those that have a hit, by the
rank of their last hits. -/
theorem query_returning {w : World} {c : CallerContext} {r : QueryRequest} {skipSecurity : Bool}
    {q : SecuredQuery} {result : SearchResult} (hcalm : w.Calm)
    (hq : r.compile w.circumstances.settings c skipSecurity = .ok q) (hlist : r.aggregate = none)
    (hread : SearchResult.read (w.responses.headD World.emptyResponse) = .ok result)
    (hresult : Fusion.WellFormed result) {documents : List Fields}
    (hdocuments : ∀ d ∈ documents, ∃ key, Fusion.keyOf d = some key) (attributes : Json) :
    ∃ n, ((Fusion.query (returning documents) c r skipSecurity true attributes).runIn w).1 =
      .ok ⟨n, Fusion.ordered result.hits documents⟩ := by
  have hanswer : (Fusion.query (returning documents) c r skipSecurity true attributes).Leads w
      fun answer _ => ∃ n, answer = .ok ⟨n, Fusion.ordered result.hits documents⟩ := by
    unfold Fusion.query
    rw [leads_bind, leads_circumstances]
    dsimp only
    rw [leads_bind, leads_orFail, hq]
    dsimp only
    rw [leads_bind, search_leads_calm hcalm _ hread]
    dsimp only
    rw [leads_bind, leads_orBroken, isAggregation_of_list hq hlist]
    rw [Fusion.plan_list]
    by_cases hempty : result.hits = []
    · obtain ⟨n, hn⟩ := hresult.counted
      rw [hempty, Fusion.ordered_of_no_hits]
      refine ⟨n, ?_⟩
      unfold QueryResponse.of
      rw [List.isEmpty_nil, if_pos rfl]
      dsimp only
      rw [hn]
      rfl
    · obtain ⟨n, hmerge⟩ := Fusion.merge_eq hresult hdocuments
      rw [if_neg (by simp [hempty])]
      exact ⟨n, hmerge⟩
  exact hanswer

/-- Of which results the records come back in the order in which the engine first
listed them. Whatever order the store gives them in, those that have a hit come
back, each once; and they are always in the listed order just when the last hit
of each record ranks before the last hits of the records that are listed after
it. -/
theorem records_come_in_listed_order_iff {w : World} {c : CallerContext} {r : QueryRequest}
    {skipSecurity : Bool} {q : SecuredQuery} {result : SearchResult} (hcalm : w.Calm)
    (hq : r.compile w.circumstances.settings c skipSecurity = .ok q) (hlist : r.aggregate = none)
    (hread : SearchResult.read (w.responses.headD World.emptyResponse) = .ok result)
    (hresult : Fusion.WellFormed result) {documents : List Fields}
    (hkeyed : ∀ d ∈ documents, ∃ key, Fusion.keyOf d = some key)
    (distinct : (documents.map Fusion.keyOf).Nodup) (attributes : Json) :
    (∀ ds : List Fields, ds.Perm documents → ∃ response,
      ((Fusion.query (returning ds) c r skipSecurity true attributes).runIn w).1 = .ok response ∧
        response.data.Perm (Fusion.served result.hits documents)) ∧
      ((∀ ds : List Fields, ds.Perm documents → ∀ response,
        ((Fusion.query (returning ds) c r skipSecurity true attributes).runIn w).1 = .ok response →
          Fusion.InListedOrder result.hits response.data) ↔
        Fusion.RankedAsListed result.hits documents) := by
  have hanswer (ds : List Fields) (hperm : ds.Perm documents) :
      ∃ n, ((Fusion.query (returning ds) c r skipSecurity true attributes).runIn w).1 =
        .ok ⟨n, Fusion.ordered result.hits ds⟩ :=
    query_returning hcalm hq hlist hread hresult
      (fun d hd => hkeyed d (hperm.mem_iff.mp hd)) attributes
  refine ⟨fun ds hperm => ?_, fun h => ?_, fun h ds hperm response hresponse => ?_⟩
  · obtain ⟨n, hn⟩ := hanswer ds hperm
    exact ⟨_, hn, (Fusion.ordered_perm _ _).trans (hperm.filterMap _)⟩
  · refine Fusion.rankedAsListed_of_inListedOrder fun ds hperm => ?_
    obtain ⟨n, hn⟩ := hanswer ds hperm
    exact h ds hperm _ hn
  · obtain ⟨n, hn⟩ := hanswer ds hperm
    rw [hn] at hresponse
    cases hresponse
    refine Fusion.inListedOrder_of_rankedAsListed ?_ ?_
    · exact (hperm.map Fusion.keyOf).nodup_iff.mpr distinct
    · exact fun d hd e he => h d (hperm.mem_iff.mp hd) e (hperm.mem_iff.mp he)

/-! ## Two hits -/

/-- A hit that bears an identifier and a score. -/
def scoredHit (id : String) (score : Json) : SearchHit := ⟨.str id, score, .null, []⟩

/-- A response that lists two hits with these scores. -/
def twoHits (score score' : Json) : Json :=
  .obj [("hits", .obj [("total", .obj [("value", .int 2)]), ("hits", .arr [
    .obj [("_id", .str "a"), ("_score", score)], .obj [("_id", .str "b"), ("_score", score')]])])]

/-- A world in which the engine answers with two hits. -/
def listingWorld (score score' : Json) : World :=
  { circumstances := morning, responses := [twoHits score score'] }

/-- The records of both hits, the other way round. -/
def storedWays : List Fields := [[("id", .str "b")], [("id", .str "a")]]

theorem read_twoHits (score score' : Json) :
    SearchResult.read ((listingWorld score score').responses.headD World.emptyResponse) =
      .ok ⟨.int 2, [scoredHit "a" score, scoredHit "b" score'], .obj []⟩ := rfl

theorem wellFormed_twoHits {score score' : Json} {rank rank' : Fusion.Rank}
    (h : Fusion.rankOf (scoredHit "a" score).document = .ok rank)
    (h' : Fusion.rankOf (scoredHit "b" score').document = .ok rank') :
    Fusion.WellFormed ⟨.int 2, [scoredHit "a" score, scoredHit "b" score'], .obj []⟩ where
  keyed := by
    intro hit hhit
    rcases List.mem_cons.mp hhit with rfl | hhit
    · exact ⟨_, rfl⟩
    · cases List.mem_singleton.mp hhit
      exact ⟨_, rfl⟩
  ranked := by
    intro hit hhit
    rcases List.mem_cons.mp hhit with rfl | hhit
    · exact ⟨rank, h⟩
    · cases List.mem_singleton.mp hhit
      exact ⟨rank', h'⟩
  counted := ⟨2, rfl⟩

theorem keyed_storedWays : ∀ d ∈ storedWays, ∃ key, Fusion.keyOf d = some key := by
  intro d hd
  rcases List.mem_cons.mp hd with rfl | hd
  · exact ⟨_, rfl⟩
  · cases List.mem_singleton.mp hd
    exact ⟨_, rfl⟩

/-- Hits with falling scores bring their records into the listed order. -/
theorem falling_scores_keep_the_listed_order :
    (listingWorld (.int 2) (.int 1)).Calm ∧
      listedSites.compile (listingWorld (.int 2) (.int 1)).circumstances.settings siteReader =
        .ok siteQuery ∧ listedSites.aggregate = none ∧
      ∀ ds : List Fields, ds.Perm storedWays → ∀ response,
        ((Fusion.query (returning ds) siteReader listedSites false true .null).runIn
          (listingWorld (.int 2) (.int 1))).1 = .ok response →
        Fusion.InListedOrder [scoredHit "a" (.int 2), scoredHit "b" (.int 1)] response.data := by
  have hcalm : (listingWorld (.int 2) (.int 1)).Calm := rfl
  have hcompile := compile_listedSites (listingWorld (.int 2) (.int 1)).circumstances.settings
  have hiff := (records_come_in_listed_order_iff hcalm hcompile rfl (read_twoHits _ _)
    (wellFormed_twoHits rfl rfl) keyed_storedWays (by decide) .null).2
  refine ⟨hcalm, hcompile, rfl, hiff.mpr ?_⟩
  intro d hd e he hit hit' hhit hhit' hplace
  have hhits : ∀ d ∈ storedWays, ∀ e ∈ storedWays,
      Fusion.place [scoredHit "a" (.int 2), scoredHit "b" (.int 1)] (Fusion.keyOf d) <
        Fusion.place [scoredHit "a" (.int 2), scoredHit "b" (.int 1)] (Fusion.keyOf e) →
      Fusion.keyOf d = some (.text "a") ∧ Fusion.keyOf e = some (.text "b") := by decide
  obtain ⟨hd, he⟩ := hhits d hd e he hplace
  rw [hd] at hhit
  rw [he] at hhit'
  cases hhit
  cases hhit'
  rfl

/-- Without scores the records come back as the store gives them. -/
theorem records_without_scores_lose_the_listed_order :
    (listingWorld .null .null).Calm ∧
      listedSites.compile (listingWorld .null .null).circumstances.settings siteReader =
        .ok siteQuery ∧ listedSites.aggregate = none ∧ ∃ response,
        ((Fusion.query (returning storedWays) siteReader listedSites false true .null).runIn
          (listingWorld .null .null)).1 = .ok response ∧
        ¬ Fusion.InListedOrder [scoredHit "a" .null, scoredHit "b" .null] response.data := by
  have hcalm : (listingWorld .null .null).Calm := rfl
  have hcompile := compile_listedSites (listingWorld .null .null).circumstances.settings
  obtain ⟨n, hn⟩ := query_returning hcalm hcompile rfl (read_twoHits _ _)
    (wellFormed_twoHits rfl rfl) keyed_storedWays .null
  refine ⟨hcalm, hcompile, rfl, _, hn, fun h => ?_⟩
  have hboth : [Fusion.fuse (.obj [("id", .str "b")]) (scoredHit "b" .null),
      Fusion.fuse (.obj [("id", .str "a")]) (scoredHit "a" .null)].Sublist
        (Fusion.served [scoredHit "a" .null, scoredHit "b" .null] storedWays) := .refl _
  have hplaces := List.pairwise_pair.mp (h.sublist (Fusion.ordered_stable hboth rfl))
  exact absurd hplaces (by decide)

end TenantSearch
