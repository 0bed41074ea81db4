-- When a check accepts. A combined check accepts just what all of its parts
-- accept, so a request is accepted field by field.
import TenantSearch.Query.Request

namespace TenantSearch

/-! ## Combined checks -/

namespace Checked

variable {α β : Type}

@[simp]
theorem pure_eq_accepted {a b : α} : (pure a : Checked α) = .accepted b ↔ a = b := by
  constructor
  · intro h
    cases h
    rfl
  · intro h
    rw [h]
    rfl

@[simp]
theorem flaw_ne_accepted {path : List PathStep} {v : Json} {f : Flaw} {a : α} :
    flaw path v f ≠ .accepted a := by
  intro h
  cases h

@[simp]
theorem seq_eq_accepted {f : Checked (α → β)} {x : Checked α} {b : β} :
    f <*> x = .accepted b ↔ ∃ g a, f = .accepted g ∧ x = .accepted a ∧ g a = b := by
  change f.seq x = .accepted b ↔ _
  cases f with
  | accepted g =>
    cases x with
    | accepted a => simp [Checked.seq]
    | rejected es => simp [Checked.seq]
  | rejected es =>
    cases x with
    | accepted a => simp [Checked.seq]
    | rejected es' => simp [Checked.seq]

@[simp]
theorem map_eq_accepted {f : α → β} {x : Checked α} {b : β} :
    f <$> x = .accepted b ↔ ∃ a, x = .accepted a ∧ f a = b := by
  have hmap : f <$> x = (pure f : Checked (α → β)) <*> x := rfl
  rw [hmap, seq_eq_accepted]
  simp

theorem andThen_eq_accepted {x : Checked α} {f : α → Checked β} {b : β} :
    x.andThen f = .accepted b ↔ ∃ a, x = .accepted a ∧ f a = .accepted b := by
  cases x with
  | accepted a => simp [andThen]
  | rejected es => simp [andThen]

/-- All checks of a list accept just when each accepts its value. -/
theorem all_eq_accepted {checks : List (Checked α)} {values : List α} :
    all checks = .accepted values ↔ checks = values.map .accepted := by
  induction checks generalizing values with
  | nil =>
    cases values with
    | nil => simp [all]
    | cons a values => simp [all]
  | cons x rest ih =>
    have hcons : all (x :: rest) = (List.cons <$> x) <*> all rest := rfl
    rw [hcons, seq_eq_accepted]
    simp only [map_eq_accepted]
    constructor
    · rintro ⟨_, tail, ⟨a, rfl, rfl⟩, htail, rfl⟩
      rw [ih.mp htail, List.map_cons]
    · intro h
      cases values with
      | nil => cases h
      | cons a tail =>
        rw [List.map_cons, List.cons.injEq] at h
        exact ⟨_, tail, ⟨a, h.1, rfl⟩, ih.mpr h.2, rfl⟩

end Checked

open Checked

/-! ## Checks of single values -/

namespace Check

@[simp]
theorem text_eq_accepted {path : List PathStep} {v : Json} {s : String} :
    text path v = .accepted s ↔ v = .str s := by
  cases v <;> simp [text]

theorem someText_eq_accepted {path : List PathStep} {v : Json} {s : String} :
    someText path v = .accepted s ↔ v = .str s ∧ hasSurrogate s = false ∧ s ≠ "" := by
  have hempty (t : String) : t.isEmpty = true ↔ t = "" := String.isEmpty_iff
  unfold someText
  rw [andThen_eq_accepted]
  simp only [andThen_eq_accepted, text_eq_accepted]
  constructor
  · rintro ⟨t, ⟨_, rfl, hwritable⟩, hsome⟩
    unfold writable at hwritable
    split at hwritable
    · cases hwritable
    · next hsurrogate =>
      cases hwritable
      split at hsome
      · cases hsome
      · next hne =>
        cases hsome
        exact ⟨rfl, by simpa using hsurrogate, fun h => hne ((hempty _).mpr h)⟩
  · rintro ⟨rfl, hsurrogate, hne⟩
    refine ⟨s, ⟨s, rfl, ?_⟩, ?_⟩
    · unfold writable
      rw [hsurrogate]
      rfl
    · rw [if_neg fun h => hne ((hempty s).mp h)]

theorem optionalText_eq_accepted {path : List PathStep} {v : Json} {s : Option String} :
    optionalText path v = .accepted s ↔ v = .ofText? s := by
  cases s with
  | none => cases v <;> simp [optionalText, Json.ofText?]
  | some s => cases v <;> simp [optionalText, Json.ofText?]

/-- A list is accepted when every item is, each at its own place. -/
theorem listOf_eq_accepted {α : Type} {item : List PathStep → Json → Checked α}
    {path : List PathStep} {v : Json} {values : List α} :
    listOf item path v = .accepted values ↔ ∃ items, v = .arr items ∧
      (items.zipIdx.map fun p => item (path ++ [.item p.2]) p.1) = values.map .accepted := by
  cases v with
  | arr items => simp [listOf, all_eq_accepted]
  | _ => simp [listOf]

end Check

/-! ## Fields of a form -/

namespace FieldName

variable {α : Type} {name : FieldName} {fields : Fields} {check : List PathStep → Json → Checked α}

/-- What is accepted for a field: what the check accepts where the field is
given, or the default. -/
theorem check_eq_accepted {under : List PathStep} {absent : Option α} {a : α} :
    name.check under fields absent check = .accepted a ↔
      (∃ spelling v, name.find? fields = some (spelling, v) ∧
        check (under ++ [.field spelling]) v = .accepted a) ∨
      (name.find? fields = none ∧ absent = some a) := by
  unfold FieldName.check
  rcases name.find? fields with _ | ⟨spelling, v⟩
  · cases absent with
    | none => simp
    | some b => simp
  · simp only [reduceCtorEq, false_and, or_false, Option.some.injEq, Prod.mk.injEq]
    constructor
    · intro h
      exact ⟨spelling, v, ⟨rfl, rfl⟩, h⟩
    · rintro ⟨_, _, ⟨rfl, rfl⟩, h⟩
      exact h

end FieldName

/-! ## Requests -/

namespace QueryRequest

/-- The identifiers drawn for a request: at most one for its own, then at most
one for its list. -/
def drawnFor (fields : Fields) (g : GuidSupply) : GuidSupply :=
  (checkIds (checkId g ((FieldName.only "id").find? fields)).2
    ((FieldName.only "ids").find? fields)).2

/-- Every field of a request is what the check of that field accepts. -/
structure AcceptedFrom (defaults : Settings.FormDefaults) (settings : Settings) (fields : Fields)
    (g : GuidSupply) (r : QueryRequest) : Prop where
  entityName : entityNameField.check [] fields none checkEntityName = .accepted r.entityName
  entityType : entityTypeField.check [] fields (some none) checkOptional = .accepted r.entityType
  indexNames :
    indexNamesField.check [] fields (some []) (checkList Check.text) = .accepted r.indexNames
  id : (checkId g ((FieldName.only "id").find? fields)).1 = .accepted r.id
  ids : (checkIds (checkId g ((FieldName.only "id").find? fields)).2
    ((FieldName.only "ids").find? fields)).1 = .accepted r.ids
  attributes : attributesOf (Fields.look fields "attributes") = r.attributes
  keywords :
    (FieldName.only "keywords").check [] fields (some none) checkOptional = .accepted r.keywords
  conditions : (FieldName.only "conditions").check [] fields (some []) (checkList Condition.check) =
    .accepted r.conditions
  categoryIds :
    categoryIdsField.check [] fields (some []) (checkList Check.text) = .accepted r.categoryIds
  scope : Scope.read? (Fields.look fields "scope") = r.scope
  stateCode : stateCodeField.check [] fields (some 0) Check.whole = .accepted r.stateCode
  pageSize : checkPageSize defaults settings fields = .ok (.accepted r.pageSize)
  orderBy : checkOrderBy fields = .ok (.accepted r.orderBy)
  aggregate :
    (FieldName.only "aggregate").check [] fields (some none) checkOptional = .accepted r.aggregate
  preTag :
    checkTag preTagField defaults.preTag settings.preTag fields = .accepted r.highlightPreTag
  postTag :
    checkTag postTagField defaults.postTag settings.postTag fields = .accepted r.highlightPostTag

variable {defaults : Settings.FormDefaults} {settings : Settings} {fields : Fields}
  {g : GuidSupply} {r : QueryRequest}

theorem check_snd : (check defaults settings (.obj fields) g).2 = drawnFor fields g := rfl

/-- A request is accepted field by field. -/
theorem check_eq_accepted :
    (check defaults settings (.obj fields) g).1 = .ok (.accepted r) ↔
      r.AcceptedFrom defaults settings fields g := by
  unfold check
  dsimp only
  constructor
  · intro h
    rcases hsize : checkPageSize defaults settings fields with b | size
    · rw [hsize] at h
      cases h
    rcases horder : checkOrderBy fields with b | order
    · rw [hsize, horder] at h
      cases h
    rw [hsize, horder] at h
    have hall := Except.ok.inj h
    simp only [seq_eq_accepted, map_eq_accepted, pure_eq_accepted] at hall
    obtain ⟨_, post, ⟨_, pre, ⟨_, aggregate, ⟨_, orderBy, ⟨_, pageSize, ⟨_, stateCode,
      ⟨_, scope, ⟨_, categoryIds, ⟨_, conditions, ⟨_, keywords, ⟨_, attributes, ⟨_, ids, ⟨_, id,
      ⟨_, indexNames, ⟨_, entityType, ⟨entityName, hname, rfl⟩, htype, rfl⟩, hindices, rfl⟩,
      hid, rfl⟩, hids, rfl⟩, hattributes, rfl⟩, hkeywords, rfl⟩, hconditions, rfl⟩,
      hcategories, rfl⟩, hscope, rfl⟩, hstate, rfl⟩, hpage, rfl⟩, hkeys, rfl⟩, haggregate, rfl⟩,
      hpre, rfl⟩, hpost, rfl⟩ := hall
    exact {
      entityName := hname
      entityType := htype
      indexNames := hindices
      id := hid
      ids := hids
      attributes := hattributes
      keywords := hkeywords
      conditions := hconditions
      categoryIds := hcategories
      scope := hscope
      stateCode := hstate
      pageSize := by rw [hsize, hpage]
      orderBy := by rw [horder, hkeys]
      aggregate := haggregate
      preTag := hpre
      postTag := hpost }
  · intro h
    rw [h.pageSize, h.orderBy]
    simp only [h.entityName, h.entityType, h.indexNames, h.id, h.ids, h.attributes, h.keywords,
      h.conditions, h.categoryIds, h.scope, h.stateCode, h.aggregate, h.preTag, h.postTag]
    rfl

end QueryRequest

end TenantSearch
