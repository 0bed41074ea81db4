-- In which order the definitions of an entity count. A subtype has one row at most, so its row
-- counts in whatever order the database returns the rows. Nulls are distinct from each other, so
-- an entity may have several rows of its own, and then the one that comes first counts.
import Mathlib.Data.List.Pairwise
import TenantSearch.Proofs.CalmUpkeep

namespace TenantSearch

open Service

/-! ## The pure model -/

namespace EntityDefinition

/-- Rows that the table can hold together: no two of them are for the same subtype of an
entity. -/
def Coexist (table : List EntityDefinition) : Prop :=
  table.Pairwise fun d e => d.clashes e = false

instance (table : List EntityDefinition) : Decidable (Coexist table) :=
  inferInstanceAs (Decidable (List.Pairwise _ _))

/-- What the rows for an entity can decide, whatever their order: the row of the subtype goes
before one of the entity, and without rows the standard holds. -/
inductive MayDecide (rows : List EntityDefinition) : Except Breakage EntitySchema → Prop
  | subtype {d : EntityDefinition} (row : d ∈ rows) (own : d.entityType.isSome = true) :
      MayDecide rows d.schema
  | entity {d : EntityDefinition} (row : d ∈ rows)
      (alone : ∀ e ∈ rows, e.entityType.isSome = false) : MayDecide rows d.schema
  | standard (none : rows = []) : MayDecide rows (.ok {})

/-- The rows leave no choice: there is one for the subtype, or those for the entity say the
same. -/
def LeaveNoChoice (rows : List EntityDefinition) : Prop :=
  (∃ d ∈ rows, d.entityType.isSome = true) ∨ ∀ d ∈ rows, ∀ e ∈ rows, d.schema = e.schema

end EntityDefinition

/-- The schema that is found where the database has the definitions in this order. -/
def World.schemaFound (w : World) (order : List EntityDefinition)
    (solutionId entityName entityType : Json) : Except Failure EntitySchema :=
  ((lookUpSchema solutionId entityName entityType).runIn { w with definitions := order }).1

namespace EntityDefinition

/-! ## Rows that coexist -/

theorem clashes_iff {d e : EntityDefinition} : d.clashes e = true ↔
    d.entityType.isSome = true ∧ d.entityType = e.entityType ∧ d.solutionId = e.solutionId ∧
      d.entityName = e.entityName := by
  simp [clashes, and_assoc]

theorem clashes_comm (d e : EntityDefinition) : d.clashes e = e.clashes d := by
  rw [Bool.eq_iff_iff, clashes_iff, clashes_iff]
  constructor
  · rintro ⟨hsome, htype, hsolution, hname⟩
    exact ⟨htype ▸ hsome, htype.symm, hsolution.symm, hname.symm⟩
  · rintro ⟨hsome, htype, hsolution, hname⟩
    exact ⟨htype ▸ hsome, htype.symm, hsolution.symm, hname.symm⟩

/-- The table takes just the rows that can stand beside those it has. -/
theorem coexist_concat_iff {table : List EntityDefinition} {d : EntityDefinition} :
    Coexist (table ++ [d]) ↔ Coexist table ∧ add table d = .ok (table ++ [d]) := by
  have hadd : add table d = .ok (table ++ [d]) ↔ ∀ e ∈ table, e.clashes d = false := by
    unfold add
    by_cases hclash : table.any d.clashes = true
    · rw [if_pos hclash]
      obtain ⟨e, he, hde⟩ := List.any_eq_true.mp hclash
      refine iff_of_false (fun h => by cases h) fun hall => ?_
      rw [clashes_comm, hall e he] at hde
      cases hde
    · rw [if_neg hclash]
      refine iff_of_true rfl fun e he => ?_
      rw [clashes_comm, Bool.eq_false_iff]
      exact fun hde => hclash (List.any_eq_true.mpr ⟨e, he, hde⟩)
  unfold Coexist
  rw [List.pairwise_append, hadd]
  simp

/-- Of coexisting rows two that clash are the same. -/
theorem Coexist.eq_of_clashes {table : List EntityDefinition} (coexist : Coexist table)
    {d e : EntityDefinition} (hd : d ∈ table) (he : e ∈ table) (hclash : d.clashes e = true) :
    d = e := by
  by_cases heq : d = e
  · exact heq
  have hsymm : Std.Symm fun d e : EntityDefinition => d.clashes e = false :=
    ⟨fun d e h => (clashes_comm e d).trans h⟩
  rw [List.Pairwise.forall coexist hd he heq] at hclash
  cases hclash

/-! ## The rows for an entity -/

/-- Which rows are for an entity does not depend on the table: the values that are asked for
can be compared with the columns, or they cannot. -/
theorem rowsFor_cases (solutionId entityName entityType : Json) :
    (∃ o, ∀ table, rowsFor table solutionId entityName entityType = .error o) ∨
      ∃ solution name subtype, ∀ table, rowsFor table solutionId entityName entityType =
        .ok (table.filter (isFor solution name subtype)) := by
  unfold rowsFor
  rcases Record.columnText solutionId with o | solution
  · exact Or.inl ⟨o, fun _ => rfl⟩
  rcases Record.columnText entityName with o | name
  · exact Or.inl ⟨o, fun _ => rfl⟩
  rcases Record.columnText entityType.orNull with o | subtype
  · exact Or.inl ⟨o, fun _ => rfl⟩
  · exact Or.inr ⟨solution, name, subtype, fun _ => rfl⟩

/-- Two rows for the same subtype clash. -/
theorem clashes_of_isFor {solution name subtype : Option String} {d e : EntityDefinition}
    (hd : d.isFor solution name subtype = true) (he : e.isFor solution name subtype = true)
    (hown : d.entityType.isSome = true) (hown' : e.entityType.isSome = true) :
    d.clashes e = true := by
  simp only [isFor, Bool.and_eq_true, Bool.or_eq_true, beq_iff_eq, Option.isNone_iff_eq_none]
    at hd he
  obtain ⟨⟨hsolution, hname⟩, htype⟩ := hd
  obtain ⟨⟨hsolution', hname'⟩, htype'⟩ := he
  rw [Option.isSome_iff_ne_none] at hown hown'
  have hsubtype : d.entityType = subtype := (htype.resolve_left hown).2
  have hsubtype' : e.entityType = subtype := (htype'.resolve_left hown').2
  refine clashes_iff.mpr ⟨Option.isSome_iff_ne_none.mpr hown, hsubtype.trans hsubtype'.symm, ?_, ?_⟩
  · exact Option.some.inj (hsolution.trans hsolution'.symm)
  · exact Option.some.inj (hname.trans hname'.symm)

/-! ## What the rows decide -/

section

variable {rows order : List EntityDefinition} {outcome : Except Breakage EntitySchema}

/-- A row that comes first among rows of its level is chosen. -/
theorem choose_cons {d : EntityDefinition} (rest : List EntityDefinition)
    (h : d.entityType.isSome = true ∨ ∀ e ∈ d :: rest, e.entityType.isSome = false) :
    choose (d :: rest) = d.schema := by
  unfold choose chosen?
  rcases h with hown | halone
  · simp [hown]
  · have hnone : (d :: rest).find? (·.entityType.isSome) = none := by simpa using halone
    simp [hnone]

/-- The row that is chosen decides. -/
theorem mayDecide_choose (rows : List EntityDefinition) : MayDecide rows (choose rows) := by
  rcases hown : rows.find? (·.entityType.isSome) with _ | d
  · have halone : ∀ e ∈ rows, e.entityType.isSome = false := by simpa using hown
    cases rows with
    | nil => exact .standard rfl
    | cons d rest =>
      rw [choose_cons rest (Or.inr halone)]
      exact .entity List.mem_cons_self halone
  · have hchosen : choose rows = d.schema := by
      unfold choose chosen?
      rw [hown]
      rfl
    rw [hchosen]
    have hsome : d.entityType.isSome = true := by simpa using List.find?_some hown
    exact .subtype (List.mem_of_find?_eq_some hown) hsome

/-- The order of the rows makes no difference to what they can decide. -/
theorem MayDecide.perm (h : MayDecide rows outcome) (hperm : order.Perm rows) :
    MayDecide order outcome := by
  cases h with
  | subtype row own => exact .subtype (hperm.mem_iff.mpr row) own
  | entity row alone =>
    exact .entity (hperm.mem_iff.mpr row) fun e he => alone e (hperm.mem_iff.mp he)
  | standard none =>
    subst none
    exact .standard hperm.eq_nil

/-- Everything that the rows can decide they decide in some order: the one with the row that
decides in front. -/
theorem exists_order_of_mayDecide {table : List EntityDefinition} {p : EntityDefinition → Bool}
    (h : MayDecide (table.filter p) outcome) :
    ∃ order : List EntityDefinition, order.Perm table ∧ choose (order.filter p) = outcome := by
  have hfirst {d : EntityDefinition} (hd : d ∈ table.filter p)
      (hlevel : d.entityType.isSome = true ∨
        ∀ e ∈ table.filter p, e.entityType.isSome = false) :
      ∃ order : List EntityDefinition, order.Perm table ∧
        choose (order.filter p) = d.schema := by
    obtain ⟨hmem, hp⟩ := List.mem_filter.mp hd
    obtain ⟨before, after, rfl⟩ := List.append_of_mem hmem
    have hperm : (before ++ d :: after).Perm (d :: (before ++ after)) := List.perm_middle
    refine ⟨d :: (before ++ after), hperm.symm, ?_⟩
    rw [List.filter_cons_of_pos hp]
    refine choose_cons _ (hlevel.imp_right fun halone e he => halone e ?_)
    rw [← List.filter_cons_of_pos hp] at he
    exact (hperm.filter p).mem_iff.mpr he
  cases h with
  | subtype row own => exact hfirst row (Or.inl own)
  | entity row alone => exact hfirst row (Or.inr alone)
  | standard none => exact ⟨table, .refl table, by rw [none]; rfl⟩

/-- Rows that leave no choice decide one thing alone. -/
theorem MayDecide.unique {other : Except Breakage EntitySchema} (hchoice : LeaveNoChoice rows)
    (hsubtype : ∀ d ∈ rows, ∀ e ∈ rows, d.entityType.isSome = true → e.entityType.isSome = true →
      d = e)
    (h : MayDecide rows outcome) (h' : MayDecide rows other) : outcome = other := by
  have hagree {d e : EntityDefinition} (hd : d ∈ rows) (he : e ∈ rows)
      (alone : ∀ e ∈ rows, e.entityType.isSome = false) : d.schema = e.schema := by
    rcases hchoice with ⟨own, hown, hsome⟩ | hsame
    · rw [alone own hown] at hsome
      cases hsome
    · exact hsame d hd e he
  cases h with
  | @subtype d row own =>
    cases h' with
    | @subtype e row' own' => rw [hsubtype d row e row' own own']
    | entity row' alone => rw [alone d row] at own; cases own
    | standard none => rw [none] at row; cases row
  | @entity d row alone =>
    cases h' with
    | @subtype e row' own' => rw [alone e row'] at own'; cases own'
    | entity row' => exact hagree row row' alone
    | standard none => rw [none] at row; cases row
  | standard none =>
    subst none
    cases h' with
    | subtype row' => cases row'
    | entity row' => cases row'
    | standard => rfl

/-- Rows for an entity of which each may decide leave no choice once all decide the same. -/
theorem leaveNoChoice_of_unique
    (h : ∀ outcome other, MayDecide rows outcome → MayDecide rows other → outcome = other) :
    LeaveNoChoice rows := by
  by_cases hown : ∃ d ∈ rows, d.entityType.isSome = true
  · exact Or.inl hown
  · have halone : ∀ e ∈ rows, e.entityType.isSome = false := by
      intro e he
      rw [Bool.eq_false_iff]
      exact fun hsome => hown ⟨e, he, hsome⟩
    exact Or.inr fun d hd e he => h _ _ (.entity hd halone) (.entity he halone)

end

end EntityDefinition

/-! ## The order of the definitions -/

open EntityDefinition

theorem broken_injective {x y : Except Breakage EntitySchema}
    (h : x.mapError Failure.broken = y.mapError Failure.broken) : x = y := by
  cases x with
  | error b =>
    cases y with
    | error b' => cases h; rfl
    | ok schema => cases h
  | ok schema =>
    cases y with
    | error b => cases h
    | ok schema' => cases h; rfl

theorem schemaFound_eq {w : World} (hcalm : w.Calm) (order : List EntityDefinition)
    (solutionId entityName entityType : Json) :
    w.schemaFound order solutionId entityName entityType =
      schemaFor order solutionId entityName entityType := by
  have hcalm' : World.Calm { w with definitions := order } := hcalm
  exact (lookUpSchema_leads hcalm' solutionId entityName entityType fun r _ =>
    r = schemaFor order solutionId entityName entityType).mpr rfl

/-- Definitions that the table can hold together, looked up for any entity. In the orders in
which the database may return them they give just what their rows can decide: the schema of the
subtype's row if there is one, else that of a row of the entity, else the standard. So the schema
is the same in every order exactly when there is a row of the subtype or the rows of the entity
all say the same. -/
theorem the_schema_is_the_same_in_every_order_iff {table : List EntityDefinition}
    (coexist : Coexist table) {w : World} (hcalm : w.Calm)
    (solutionId entityName entityType : Json) :
    (∀ rows, rowsFor table solutionId entityName entityType = .ok rows → ∀ outcome,
      (∃ order : List EntityDefinition, order.Perm table ∧
        w.schemaFound order solutionId entityName entityType = outcome.mapError .broken) ↔
          MayDecide rows outcome) ∧
    ((∀ order : List EntityDefinition, order.Perm table →
      w.schemaFound order solutionId entityName entityType =
        w.schemaFound table solutionId entityName entityType) ↔
      ∀ rows, rowsFor table solutionId entityName entityType = .ok rows → LeaveNoChoice rows) := by
  rcases rowsFor_cases solutionId entityName entityType with
    ⟨o, hrows⟩ | ⟨solution, name, subtype, hrows⟩
  · have hfound (order : List EntityDefinition) :
        w.schemaFound order solutionId entityName entityType =
          .error (Outage.blame Outage.ofDatabase (.ofEntity .metadataRead entityName) o) := by
      rw [schemaFound_eq hcalm, schemaFor, hrows]
      rfl
    simp only [hrows, hfound]
    exact ⟨nofun, fun _ => nofun, fun _ _ _ => trivial⟩
  have hfound (order : List EntityDefinition) :
      w.schemaFound order solutionId entityName entityType =
        (choose (order.filter (isFor solution name subtype))).mapError .broken := by
    rw [schemaFound_eq hcalm, schemaFor, hrows]
    rfl
  simp only [hfound, hrows, Except.ok.injEq, forall_eq']
  have hdecide {order : List EntityDefinition} (hperm : order.Perm table) :
      MayDecide (table.filter (isFor solution name subtype))
        (choose (order.filter (isFor solution name subtype))) :=
    (mayDecide_choose _).perm (hperm.filter _).symm
  refine ⟨fun outcome => ⟨?_, fun h => ?_⟩, fun hsame => ?_, fun hchoice order hperm => ?_⟩
  · rintro ⟨order, hperm, heq⟩
    exact broken_injective heq ▸ hdecide hperm
  · obtain ⟨order, hperm, rfl⟩ := exists_order_of_mayDecide h
    exact ⟨order, hperm, rfl⟩
  · refine leaveNoChoice_of_unique fun outcome other h h' => ?_
    obtain ⟨order, hperm, rfl⟩ := exists_order_of_mayDecide h
    obtain ⟨order', hperm', rfl⟩ := exists_order_of_mayDecide h'
    exact broken_injective ((hsame order hperm).trans (hsame order' hperm').symm)
  · have hone := MayDecide.unique hchoice ?_ (hdecide hperm) (hdecide (.refl table))
    · exact congrArg _ hone
    · intro d hd e he hown hown'
      obtain ⟨hmem, hfor⟩ := List.mem_filter.mp hd
      obtain ⟨hmem', hfor'⟩ := List.mem_filter.mp he
      exact coexist.eq_of_clashes hmem hmem' (clashes_of_isFor hfor hfor' hown hown')

/-- A definition of events, or of one of their subtypes, that displays one field. -/
def displaying (subtype : Option String) (field : String) : EntityDefinition where
  solutionId := "sol-1"
  entityName := "Event"
  entityType := subtype
  indexFields := .obj []
  display := .texts [field]
  content := .null

/-- Two subtypes of events are defined, and events are defined twice. -/
def eventDefinitions : List EntityDefinition :=
  [displaying none "title", displaying (some "Concert") "band", displaying none "headline",
    displaying (some "Match") "teams"]

/-- Concerts are found with their own definition, in whatever order the database returns it and
the others. -/
theorem concerts_are_displayed_by_their_bands :
    Coexist eventDefinitions ∧ (World.empty morning).Calm ∧
      ∀ order : List EntityDefinition, order.Perm eventDefinitions →
        (World.empty morning).schemaFound order (.str "sol-1") (.str "Event") (.str "Concert") =
          .ok { merged := { MergedText.standard with display := [.str "band"] } } := by
  have hcoexist : Coexist eventDefinitions := by decide
  have hcalm : (World.empty morning).Calm := rfl
  refine ⟨hcoexist, hcalm, fun order hperm => ?_⟩
  refine Eq.trans ?_ (rfl : (World.empty morning).schemaFound eventDefinitions (.str "sol-1")
    (.str "Event") (.str "Concert") = _)
  refine (the_schema_is_the_same_in_every_order_iff hcoexist hcalm _ _ _).2.mpr ?_ order hperm
  intro rows hrows
  have hthree : rowsFor eventDefinitions (.str "sol-1") (.str "Event") (.str "Concert") =
      .ok [displaying none "title", displaying (some "Concert") "band",
        displaying none "headline"] := rfl
  cases hthree.symm.trans hrows
  exact Or.inl ⟨displaying (some "Concert") "band", by simp, rfl⟩

/-- The table takes a second definition of events. Then the one that the database returns first
says how an event without a subtype is displayed. -/
theorem a_second_definition_of_events_competes_with_the_first :
    add [displaying none "title"] (displaying none "headline") =
        .ok [displaying none "title", displaying none "headline"] ∧
      Coexist [displaying none "title", displaying none "headline"] ∧
      [displaying none "headline", displaying none "title"].Perm
        [displaying none "title", displaying none "headline"] ∧
      (World.empty morning).Calm ∧
      ((World.empty morning).schemaFound [displaying none "title", displaying none "headline"]
        (.str "sol-1") (.str "Event") .null).map (·.merged.display) = .ok [.str "title"] ∧
      ((World.empty morning).schemaFound [displaying none "headline", displaying none "title"]
        (.str "sol-1") (.str "Event") .null).map (·.merged.display) = .ok [.str "headline"] := by
  have hcoexist : Coexist ([displaying none "title"] ++ [displaying none "headline"]) := by decide
  exact ⟨(coexist_concat_iff.mp hcoexist).2, hcoexist, .swap _ _ _, rfl, rfl, rfl⟩

end TenantSearch
