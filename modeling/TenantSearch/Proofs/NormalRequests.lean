-- A checked request is in a normal form, and checking what it is written as
-- gives the same request again and draws no identifier. Each field of the form
-- has its part of the normal form, and a check that leaves that part alone.
import TenantSearch.Proofs.AcceptedRequests
import TenantSearch.Proofs.TrimmedTexts

namespace TenantSearch

open Checked

/-! ## The normal form -/

/-- Nothing, or a text that is not blank. -/
def NotBlank : Option String → Prop
  | none => True
  | some s => isBlankText s = false

/-- The settings are still those the defaults of forms were taken from, and the
usual page is between one and the largest. -/
structure Settings.Keeps (settings : Settings) (defaults : Settings.FormDefaults) (largest : Int) :
    Prop where
  page : settings.defaultPage = .int defaults.page
  preTag : settings.preTag = .str defaults.preTag
  postTag : settings.postTag = .str defaults.postTag
  largestPage : settings.largestPage = .int largest
  one_le : 1 ≤ defaults.page
  le_largest : defaults.page ≤ largest

namespace QueryRequest

/-- The names to keep of a document, when they are listed: there are some, all
of them trimmed, and they are not the star that stands for every name. -/
structure AreNames (names : List String) : Prop where
  ne_nil : names ≠ []
  ne_star : names ≠ ["*"]
  trimmed : ∀ name ∈ names, trim name = name ∧ isBlankText name = false

/-- A tag as a form gives it: a text that is not empty. -/
def tagGiven (name : FieldName) (absent : String) (fields : Fields) : String :=
  match name.find? fields with
  | some (_, .str tag) => if tag.isEmpty then absent else tag
  | _ => absent

structure IsNormal (defaults : Settings.FormDefaults) (largest : Int) (r : QueryRequest) :
    Prop where
  name_trimmed : trim r.entityName = r.entityName
  name_notBlank : isBlankText r.entityName = false
  name_writable : hasSurrogate r.entityName = false
  entityType : NotBlank r.entityType
  id : NotBlank r.id
  ids : r.ids ≠ some []
  attributes : ∀ names, r.attributes = some names → AreNames names
  keywords : NotBlank r.keywords
  conditions : ∀ c ∈ r.conditions, c.op = .search ∨ c.namesField = true
  one_le_pageSize : 1 ≤ r.pageSize
  pageSize_le : r.pageSize ≤ largest
  orderBy : ∀ o ∈ r.orderBy, (o.direction.name = "asc" ∨ o.direction.name = "desc") ∧
    hasSurrogate o.field = false ∧ o.field ≠ ""
  aggregate : NotBlank r.aggregate
  preTag : r.highlightPreTag = "" → defaults.preTag = ""
  postTag : r.highlightPostTag = "" → defaults.postTag = ""

/-- The fields that a request is written as. -/
def written (r : QueryRequest) : Fields := r.object.fields?.getD []

theorem object_eq (r : QueryRequest) : r.object = .obj r.written := rfl

end QueryRequest

/-! ## Lists -/

namespace Check

variable {α : Type} {item : List PathStep → Json → Checked α} {path : List PathStep}
  {values : List α}

/-- Every item of an accepted list was accepted for itself. -/
theorem listOf_accepted {v : Json} (h : listOf item path v = .accepted values) :
    ∀ a ∈ values, ∃ place given, item place given = .accepted a := by
  intro a ha
  obtain ⟨items, -, hitems⟩ := listOf_eq_accepted.mp h
  have hmem : Checked.accepted a ∈ values.map Checked.accepted := List.mem_map_of_mem ha
  rw [← hitems, List.mem_map] at hmem
  obtain ⟨⟨given, index⟩, -, hitem⟩ := hmem
  exact ⟨_, given, hitem⟩

/-- A list of values that are each accepted as they are written is accepted. -/
theorem listOf_written {write : α → Json}
    (h : ∀ a ∈ values, ∀ place, item place (write a) = .accepted a) :
    listOf item path (.arr (values.map write)) = .accepted values := by
  rw [listOf_eq_accepted]
  refine ⟨_, rfl, ?_⟩
  apply List.ext_getElem
  · simp
  · intro i hi _
    simp only [List.getElem_map, List.getElem_zipIdx]
    exact h _ (List.getElem_mem _) _

theorem texts_written (names : List String) : texts path (.texts names) = .accepted names :=
  listOf_written fun _ _ _ => rfl

end Check

namespace QueryRequest

section Fields

variable {path : List PathStep} {v : Json}

/-! ## Names and optional texts -/

theorem checkEntityName_eq_accepted {name : String} :
    checkEntityName path v = .accepted name ↔
      ∃ s, v = .str s ∧ hasSurrogate s = false ∧ isBlankText s = false ∧ trim s = name := by
  unfold checkEntityName
  simp only [andThen_eq_accepted, Check.someText_eq_accepted]
  constructor
  · rintro ⟨s, ⟨rfl, hwritable, -⟩, h⟩
    split at h
    · cases h
    · next hblank =>
      cases h
      exact ⟨s, rfl, hwritable, by simpa using hblank, rfl⟩
  · rintro ⟨s, rfl, hwritable, hblank, rfl⟩
    refine ⟨s, ⟨rfl, hwritable, ne_empty_of_not_blank hblank⟩, ?_⟩
    rw [hblank]
    rfl

theorem checkOptional_notBlank {s : Option String} (h : checkOptional path v = .accepted s) :
    NotBlank s := by
  unfold checkOptional at h
  split at h
  · next t =>
    cases h
    by_cases hblank : isBlankText t = true
    · rw [if_pos hblank]
      trivial
    · rw [if_neg hblank]
      simpa [NotBlank] using hblank
  · next v hv =>
    have hgiven := Check.optionalText_eq_accepted.mp h
    cases s with
    | none => trivial
    | some t => exact (hv t hgiven).elim

theorem checkOptional_written {s : Option String} (h : NotBlank s) :
    checkOptional path (.ofText? s) = .accepted s := by
  cases s with
  | none => rfl
  | some t =>
    have hblank : isBlankText t = false := h
    simp [checkOptional, Json.ofText?, hblank]

theorem checkList_accepted {α : Type} {item : List PathStep → Json → Checked α} {values : List α}
    (h : checkList item path v = .accepted values) :
    ∀ a ∈ values, ∃ place given, item place given = .accepted a := by
  intro a ha
  unfold checkList at h
  split at h
  · cases h
    cases ha
  · exact Check.listOf_accepted h a ha

theorem checkList_texts (names : List String) :
    checkList Check.text path (.texts names) = .accepted names := Check.texts_written names

/-! ## Identifiers -/

theorem nth_notBlank (n : Nat) : isBlankText (GuidSupply.nth n) = false := by
  unfold isBlankText GuidSupply.nth
  rw [String.toList_append, List.all_append]
  rfl

theorem checkId_notBlank {g : GuidSupply} {given : Option (String × Json)} {id : Option String}
    (h : (checkId g given).1 = .accepted id) : NotBlank id := by
  rcases given with _ | ⟨spelling, v⟩
  · cases h
    trivial
  unfold checkId GuidSupply.drawIf at h
  by_cases hblank : isBlankValue v = true
  · simp only [hblank, if_true] at h
    cases h
    exact nth_notBlank _
  · simp only [hblank, Bool.false_eq_true, if_false] at h
    have hgiven := Check.optionalText_eq_accepted.mp h
    cases id with
    | none => trivial
    | some s =>
      rw [hgiven] at hblank
      simpa [NotBlank, isBlankValue, Json.ofText?] using hblank

theorem checkId_written {id : Option String} (h : NotBlank id) (g : GuidSupply)
    (spelling : String) : checkId g (some (spelling, .ofText? id)) = (.accepted id, g) := by
  cases id with
  | none => rfl
  | some s =>
    have hblank : isBlankText s = false := h
    simp [checkId, Json.ofText?, isBlankValue, hblank, GuidSupply.drawIf, Check.optionalText,
      Check.text]

theorem checkIds_ne_nil {g : GuidSupply} {given : Option (String × Json)}
    {ids : Option (List String)} (h : (checkIds g given).1 = .accepted ids) : ids ≠ some [] := by
  rintro rfl
  unfold checkIds at h
  split at h
  · cases h
  · cases h
  · cases h
  · next spelling v hnull hnil =>
    simp only [map_eq_accepted, Option.some.injEq] at h
    obtain ⟨_, h, rfl⟩ := h
    obtain ⟨items, rfl, hitems⟩ := Check.listOf_eq_accepted.mp h
    cases items with
    | nil => exact hnil rfl
    | cons item rest => cases hitems

theorem checkIds_written {ids : Option (List String)} (h : ids ≠ some []) (g : GuidSupply)
    (spelling : String) :
    checkIds g (some (spelling, (ids.map .texts).getD .null)) = (.accepted ids, g) := by
  cases ids with
  | none => rfl
  | some names =>
    cases names with
    | nil => exact (h rfl).elim
    | cons name rest =>
      have htexts : Check.texts [.field spelling] (.texts (name :: rest)) =
        .accepted (name :: rest) := Check.texts_written _
      exact Prod.ext (map_eq_accepted.mpr ⟨_, htexts, rfl⟩) rfl

/-! ## Names to keep -/

theorem attributesOf_areNames {names : List String} (h : attributesOf v = some names) :
    AreNames names := by
  have hkept : ∃ given : List String, attributesOf v =
      let names := (given.map trim).filter (!·.isEmpty)
      if names.isEmpty || names == ["*"] then none else some names := ⟨_, rfl⟩
  obtain ⟨given, hkept⟩ := hkept
  rw [hkept] at h
  dsimp only at h
  split at h
  · cases h
  next hsome =>
  cases h
  simp only [Bool.or_eq_true, not_or, List.isEmpty_iff, beq_iff_eq] at hsome
  refine ⟨hsome.1, hsome.2, ?_⟩
  intro name hname
  rw [List.mem_filter, List.mem_map] at hname
  obtain ⟨⟨s, -, rfl⟩, hne⟩ := hname
  refine ⟨trim_trim s, isBlankText_trim ?_⟩
  rw [← Bool.not_eq_true, ← trim_eq_empty_iff]
  simpa [String.isEmpty_iff] using hne

theorem attributesOf_written {attributes : Option (List String)}
    (h : ∀ names, attributes = some names → AreNames names) :
    attributesOf ((attributes.map .texts).getD .null) = attributes := by
  cases attributes with
  | none => rfl
  | some names =>
    obtain ⟨hnil, hstar, htrimmed⟩ := h names rfl
    have hnames : (names.map Json.str).filterMap Json.text? = names := by
      rw [List.filterMap_map]
      exact List.filterMap_some
    have htrim : names.map trim = names := by
      conv_rhs => rw [← List.map_id names]
      exact List.map_congr_left fun name hname => (htrimmed name hname).1
    have hkept : names.filter (!·.isEmpty) = names := by
      rw [List.filter_eq_self]
      intro name hname
      simpa [String.isEmpty_iff] using ne_empty_of_not_blank (htrimmed name hname).2
    unfold attributesOf
    simp only [Option.map_some, Option.getD_some, Json.texts, hnames, htrim, hkept]
    simp [hnil, hstar]

theorem scope_written (scope : Option Scope) :
    Scope.read? (.ofText? (scope.map (·.name))) = scope := by
  cases scope with
  | none => rfl
  | some s => cases s <;> decide +kernel

end Fields

end QueryRequest

/-! ## Conditions -/

namespace Condition

variable {path : List PathStep}

theorem read?_sign (op : Operator) : Operator.read? op.sign = some op := by
  cases op <;> decide +kernel

theorem check_accepted {v : Json} {c : Condition} (h : check path v = .accepted c) :
    c.op = .search ∨ c.namesField = true := by
  unfold check at h
  split at h
  · obtain ⟨c', -, h⟩ := andThen_eq_accepted.mp h
    split at h
    · next hnamed =>
      cases h
      simpa using hnamed
    · cases h
  · cases h

theorem check_written {c : Condition} (h : c.op = .search ∨ c.namesField = true) :
    check path c.object = .accepted c := by
  obtain ⟨field, op, value⟩ := c
  have hfield : (FieldName.only "attribute").check path
      [("attribute", .ofText? field), ("op", .str op.sign), ("value", value)] (some none)
      Check.optionalText = .accepted field :=
    FieldName.check_eq_accepted.mpr
      (.inl ⟨"attribute", _, rfl, Check.optionalText_eq_accepted.mpr rfl⟩)
  have hop : (FieldName.only "op").check path
      [("attribute", .ofText? field), ("op", .str op.sign), ("value", value)] (some .equals)
      Operator.check = .accepted op := by
    refine FieldName.check_eq_accepted.mpr (.inl ⟨"op", .str op.sign, rfl, ?_⟩)
    have hsign := read?_sign op
    simp only [Operator.check, hsign]
  unfold check object
  rw [andThen_eq_accepted]
  refine ⟨⟨field, op, value⟩, ?_, if_pos (by simpa using h)⟩
  rw [hfield, hop]
  rfl

end Condition

/-! ## Orders -/

namespace OrderBy

variable {path : List PathStep}

theorem check_accepted {v : Json} {o : OrderBy} (h : check path v = .accepted o) :
    hasSurrogate o.field = false ∧ o.field ≠ "" := by
  unfold check at h
  split at h
  · simp only [seq_eq_accepted, map_eq_accepted, pure_eq_accepted] at h
    obtain ⟨_, _, ⟨field, hfield, rfl⟩, rfl, rfl⟩ := h
    rcases FieldName.check_eq_accepted.mp hfield with ⟨_, _, -, hgiven⟩ | ⟨-, hnone⟩
    · exact (Check.someText_eq_accepted.mp hgiven).2
    · cases hnone
  · cases h

theorem read_name (d : Direction) : Direction.read (.str d.name) = d := by
  cases d <;> decide +kernel

theorem check_written {o : OrderBy} (h : hasSurrogate o.field = false ∧ o.field ≠ "") :
    check path o.object = .accepted o := by
  obtain ⟨field, direction⟩ := o
  have hfield : (FieldName.only "attribute").check path
      [("attribute", .str field), ("direction", .str direction.name)] none
      Check.someText = .accepted field :=
    FieldName.check_eq_accepted.mpr
      (.inl ⟨"attribute", _, rfl, Check.someText_eq_accepted.mpr ⟨rfl, h⟩⟩)
  have hdirection : directionOf [("attribute", .str field), ("direction", .str direction.name)] =
      direction := read_name direction
  unfold check object pairObject
  simp only [hfield, hdirection]
  rfl

/-- Keys that are written as objects stand for themselves. -/
theorem expand_written (keys : List OrderBy) :
    expand (.arr (keys.map (·.object))) = .ok (keys.map (·.object)) := by
  have hitem : (keys.map (·.object)).flatMap expandItem = keys.map (·.object) := by
    induction keys with
    | nil => rfl
    | cons o rest ih =>
      rw [List.map_cons, List.flatMap_cons, ih]
      rfl
  exact congrArg Except.ok hitem

end OrderBy

namespace QueryRequest

variable {defaults : Settings.FormDefaults} {settings : Settings} {largest : Int}

/-! ## Sizes and tags -/

/-- A whole number is brought between one and the largest page. -/
theorem clampedSize_int (most n : Int) :
    clampedSize (.int most) n = .ok (.int (max 1 (min n most))) := by
  have hlt (a b : Int) : (Dyadic.ofInt a).lt (.ofInt b) = decide (a < b) := by
    have hscaled (n : Int) : (Dyadic.ofInt n).scaledTo 0 = n := Int.mul_one n
    have hlevel : (Dyadic.ofInt a).lt (.ofInt b) =
        decide ((Dyadic.ofInt a).scaledTo 0 < (Dyadic.ofInt b).scaledTo 0) := rfl
    rw [hlevel, hscaled, hscaled]
  have hmost : atMost (.int most) n = .ok (.int (min n most)) := by
    simp only [atMost, Json.number?, Json.isNaN, hlt]
    by_cases h : most < n
    · simp [h, Int.min_eq_right (Int.le_of_lt h)]
    · simp [h, Int.min_eq_left (Int.not_lt.mp h)]
  have hone (size : Int) :
      (if (Json.number? (.int size)).map (Dyadic.lt (.ofInt 1)) |>.getD false then
        Json.int size else .int 1) = .int (max 1 size) := by
    simp only [Json.number?, Option.map_some, Option.getD_some, hlt]
    by_cases h : 1 < size
    · simp [h, Int.max_eq_right (Int.le_of_lt h)]
    · simp [h, Int.max_eq_left (Int.not_lt.mp h)]
  unfold clampedSize
  rw [hmost]
  exact congrArg Except.ok (hone _)

/-- A size between one and the largest page is left as it is. -/
theorem clampedSize_between {n : Int} (hone : 1 ≤ n) (hn : n ≤ largest) :
    clampedSize (.int largest) n = .ok (.int n) := by
  rw [clampedSize_int, Int.min_eq_left hn, Int.max_eq_right hone]

theorem checkPageSize_between (h : settings.Keeps defaults largest) {fields : Fields} {n : Int}
    (hsize : checkPageSize defaults settings fields = .ok (.accepted n)) :
    1 ≤ n ∧ n ≤ largest := by
  have hlargest : 1 ≤ largest := Int.le_trans h.one_le h.le_largest
  have hclamped (path : List PathStep) (m : Int)
      (hm : (clampedSize settings.largestPage m).map (Check.whole path) = .ok (.accepted n)) :
      1 ≤ n ∧ n ≤ largest := by
    rw [h.largestPage, clampedSize_int] at hm
    cases hm
    exact ⟨Int.le_max_left .., Int.max_le.mpr ⟨hlargest, Int.min_le_right ..⟩⟩
  have hdefault (path : List PathStep)
      (hm : Except.ok (Check.whole path settings.defaultPage) =
        (Except.ok (.accepted n) : Except Breakage (Checked Int))) : 1 ≤ n ∧ n ≤ largest := by
    rw [h.page] at hm
    cases hm
    exact ⟨h.one_le, h.le_largest⟩
  unfold checkPageSize at hsize
  split at hsize
  · next spelling v _ =>
    unfold pageSizeOf at hsize
    split at hsize
    · exact hclamped _ _ hsize
    · split at hsize
      · cases hsize
      · split at hsize
        · cases hsize
        · exact hclamped _ _ hsize
    · exact hdefault _ hsize
  · cases hsize
    exact ⟨h.one_le, h.le_largest⟩

/-- A tag is the one that was given, or else the usual one. -/
theorem checkTag_eq {name : FieldName} {usual : String} {configured : Json}
    (hconfigured : configured = .str usual) (fields : Fields) :
    checkTag name usual configured fields = .accepted (tagGiven name usual fields) := by
  subst hconfigured
  unfold checkTag tagGiven
  rw [FieldName.check_eq_accepted]
  rcases hfind : name.find? fields with _ | ⟨spelling, v⟩
  · exact .inr ⟨rfl, rfl⟩
  refine .inl ⟨spelling, v, rfl, ?_⟩
  cases v with
  | str s =>
    unfold tagOf
    dsimp only
    split
    · rfl
    · rfl
  | _ => rfl

theorem tagGiven_empty {name : FieldName} {usual : String} {fields : Fields}
    (h : tagGiven name usual fields = "") : usual = "" := by
  unfold tagGiven at h
  split at h
  · split at h
    · exact h
    · next hempty => exact (hempty (String.isEmpty_iff.mpr h)).elim
  · exact h

theorem tagGiven_written {name : FieldName} {usual tag : String} {fields : Fields}
    (hfind : name.find? fields = some (name.plain, .str tag)) (h : tag = "" → usual = "") :
    tagGiven name usual fields = tag := by
  simp only [tagGiven, hfind]
  split
  · next hempty =>
    have htag := String.isEmpty_iff.mp hempty
    rw [htag, h htag]
  · rfl

theorem checkOrderBy_accepted {fields : Fields} {keys : List OrderBy}
    (h : checkOrderBy fields = .ok (.accepted keys)) :
    ∀ o ∈ keys, ∃ place given, OrderBy.check place given = .accepted o := by
  unfold checkOrderBy at h
  split at h
  · next spelling v _ =>
    rcases hexpand : OrderBy.expand v with b | items
    · rw [hexpand] at h
      cases h
    · rw [hexpand] at h
      exact Check.listOf_accepted (Except.ok.inj h)
  · cases h
    intro o ho
    cases ho

/-! ## Requests -/

section Requests

variable {fields : Fields} {g : GuidSupply} {r : QueryRequest}

theorem AcceptedFrom.isNormal (h : r.AcceptedFrom defaults settings fields g)
    (hkeeps : settings.Keeps defaults largest) : r.IsNormal defaults largest := by
  have hoptional {name : FieldName} {s : Option String}
      (hs : name.check [] fields (some none) checkOptional = .accepted s) : NotBlank s := by
    rcases FieldName.check_eq_accepted.mp hs with ⟨_, _, -, hgiven⟩ | ⟨-, hnone⟩
    · exact checkOptional_notBlank hgiven
    · cases hnone
      trivial
  have hname : ∃ s, hasSurrogate s = false ∧ isBlankText s = false ∧ trim s = r.entityName := by
    rcases FieldName.check_eq_accepted.mp h.entityName with ⟨_, _, -, hgiven⟩ | ⟨-, hnone⟩
    · obtain ⟨s, -, hs⟩ := checkEntityName_eq_accepted.mp hgiven
      exact ⟨s, hs⟩
    · cases hnone
  obtain ⟨s, hwritable, hblank, hname⟩ := hname
  have hsize := checkPageSize_between hkeeps h.pageSize
  have hpre := h.preTag
  have hpost := h.postTag
  rw [checkTag_eq hkeeps.preTag] at hpre
  rw [checkTag_eq hkeeps.postTag] at hpost
  exact {
    name_trimmed := by rw [← hname, trim_trim]
    name_notBlank := by rw [← hname, isBlankText_trim hblank]
    name_writable := by rw [← hname, hasSurrogate_trim hwritable]
    entityType := hoptional h.entityType
    id := checkId_notBlank h.id
    ids := checkIds_ne_nil h.ids
    attributes := fun names hnames => attributesOf_areNames (h.attributes.trans hnames)
    keywords := hoptional h.keywords
    conditions := by
      intro c hc
      rcases FieldName.check_eq_accepted.mp h.conditions with ⟨_, v, -, hgiven⟩ | ⟨-, hnone⟩
      · obtain ⟨_, _, hchecked⟩ := checkList_accepted hgiven c hc
        exact Condition.check_accepted hchecked
      · rw [← Option.some.inj hnone] at hc
        cases hc
    one_le_pageSize := hsize.1
    pageSize_le := hsize.2
    orderBy := by
      intro o ho
      obtain ⟨_, _, hchecked⟩ := checkOrderBy_accepted h.orderBy o ho
      exact ⟨by cases o.direction <;> simp [Direction.name], OrderBy.check_accepted hchecked⟩
    aggregate := hoptional h.aggregate
    preTag := fun hempty => tagGiven_empty ((Checked.accepted.inj hpre).trans hempty)
    postTag := fun hempty => tagGiven_empty ((Checked.accepted.inj hpost).trans hempty) }

theorem drawnFor_written (h : r.IsNormal defaults largest) (g : GuidSupply) :
    drawnFor r.written g = g := by
  have hid : (FieldName.only "id").find? r.written = some ("id", .ofText? r.id) := rfl
  have hids : (FieldName.only "ids").find? r.written =
    some ("ids", (r.ids.map .texts).getD .null) := rfl
  unfold drawnFor
  rw [hid, hids, checkId_written h.id, checkIds_written h.ids]

/-- A request in normal form is accepted as it is written, whatever was drawn
before. -/
theorem IsNormal.acceptedFrom (h : r.IsNormal defaults largest)
    (hkeeps : settings.Keeps defaults largest) (g : GuidSupply) :
    r.AcceptedFrom defaults settings r.written g := by
  have hfield {α : Type} {name : FieldName} {absent : Option α} {v : Json} {a : α}
      {check : List PathStep → Json → Checked α}
      (hfind : name.find? r.written = some (name.plain, v))
      (hcheck : check [.field name.plain] v = .accepted a) :
      name.check [] r.written absent check = .accepted a :=
    FieldName.check_eq_accepted.mpr (.inl ⟨_, _, hfind, hcheck⟩)
  have hid : (FieldName.only "id").find? r.written = some ("id", .ofText? r.id) := rfl
  have hids : (FieldName.only "ids").find? r.written =
    some ("ids", (r.ids.map .texts).getD .null) := rfl
  exact {
    entityName := hfield rfl (checkEntityName_eq_accepted.mpr
      ⟨_, rfl, h.name_writable, h.name_notBlank, h.name_trimmed⟩)
    entityType := hfield rfl (checkOptional_written h.entityType)
    indexNames := hfield rfl (checkList_texts r.indexNames)
    id := by rw [hid, checkId_written h.id]
    ids := by rw [hid, hids, checkId_written h.id, checkIds_written h.ids]
    attributes := attributesOf_written h.attributes
    keywords := hfield rfl (checkOptional_written h.keywords)
    conditions := hfield rfl (Check.listOf_written fun c hc _ =>
      Condition.check_written (h.conditions c hc))
    categoryIds := hfield rfl (checkList_texts r.categoryIds)
    scope := scope_written r.scope
    stateCode := hfield rfl rfl
    pageSize := by
      have hsize := clampedSize_between h.one_le_pageSize h.pageSize_le
      rw [← hkeeps.largestPage] at hsize
      exact congrArg (Except.map (Check.whole [.field "page_size"])) hsize
    orderBy := by
      have hkeys : checkOrderBy r.written =
          (OrderBy.expand (.arr (r.orderBy.map (·.object)))).map fun items =>
            Check.listOf OrderBy.check [.field "order_by"] (.arr items) := rfl
      rw [hkeys, OrderBy.expand_written]
      exact congrArg Except.ok (Check.listOf_written fun o ho _ =>
        OrderBy.check_written (h.orderBy o ho).2)
    aggregate := hfield rfl (checkOptional_written h.aggregate)
    preTag := by
      rw [checkTag_eq hkeeps.preTag]
      exact congrArg Checked.accepted (tagGiven_written rfl h.preTag)
    postTag := by
      rw [checkTag_eq hkeeps.postTag]
      exact congrArg Checked.accepted (tagGiven_written rfl h.postTag) }

/-- Checking an object gives a request in normal form, with the tags that were
given or the usual ones, and what it is written as is checked to the same
request with nothing drawn. -/
theorem check_settles (hkeeps : settings.Keeps defaults largest)
    (hcheck : (check defaults settings (.obj fields) g).1 = .ok (.accepted r)) :
    r.IsNormal defaults largest ∧
      r.highlightPreTag = tagGiven preTagField defaults.preTag fields ∧
      r.highlightPostTag = tagGiven postTagField defaults.postTag fields ∧
      ∀ later, check defaults settings r.object later = (.ok (.accepted r), later) := by
  have hacc := check_eq_accepted.mp hcheck
  have hnormal := hacc.isNormal hkeeps
  have hpre := hacc.preTag
  have hpost := hacc.postTag
  rw [checkTag_eq hkeeps.preTag] at hpre
  rw [checkTag_eq hkeeps.postTag] at hpost
  refine ⟨hnormal, (Checked.accepted.inj hpre).symm, (Checked.accepted.inj hpost).symm, ?_⟩
  intro later
  have hagain := check_eq_accepted.mpr (hnormal.acceptedFrom hkeeps later)
  have hdrawn := drawnFor_written hnormal later
  rw [object_eq]
  exact Prod.ext hagain (check_snd.trans hdrawn)

end Requests

/-- A request with blanks around its entity, an empty identifier and list of
identifiers, an order in short and a page that is too large. -/
def sprawling : Fields :=
  [("entityName", .str " Event "), ("id", .str ""), ("ids", .arr []), ("attributes", .str "name, "),
    ("conditions", .arr [.obj [("attribute", .str "city"), ("op", .str "in "),
      ("value", .arr [.str "Oslo"])]]),
    ("scope", .str "MINE"), ("pageSize", .int 250), ("orderBy", .str "modifiedOn desc")]

/-- What the sprawling request is brought to. -/
def tidied : QueryRequest where
  entityName := "Event"
  id := some "00000000-0000-0000-0000-000000000001"
  ids := some ["00000000-0000-0000-0000-000000000002"]
  attributes := some ["name"]
  conditions := [⟨some "city", .isIn, .arr [.str "Oslo"]⟩]
  scope := some .mine
  pageSize := 100
  orderBy := [⟨"modifiedOn", .descending⟩]
  highlightPreTag := "<span class=\"search-highlight\">"
  highlightPostTag := "</span>"

theorem sprawling_settles :
    (check {} {} (.obj sprawling) .fresh).1 = .ok (.accepted tidied) ∧
      tidied.IsNormal {} 100 ∧
      ∀ later, check {} {} tidied.object later = (.ok (.accepted tidied), later) := by
  have hcheck : (check {} {} (.obj sprawling) .fresh).1 = .ok (.accepted tidied) := by rfl
  have hkeeps : ({} : Settings).Keeps {} 100 := ⟨rfl, rfl, rfl, rfl, by decide, by decide⟩
  obtain ⟨hnormal, -, -, hagain⟩ := check_settles hkeeps hcheck
  exact ⟨hcheck, hnormal, hagain⟩

end QueryRequest

end TenantSearch
