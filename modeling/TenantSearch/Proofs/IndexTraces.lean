-- What an index goes through while it is looked after under its lock and others
-- look after other indices. Nobody else leaves a trace on it, so it comes out as
-- if its holder were alone.
import TenantSearch.Proofs.CalmUpkeep
import TenantSearch.Proofs.GuardedIndices

namespace TenantSearch

open Service

/-! ## Traces -/

/-- The index that a call to the search engine is about. -/
def EngineCall.index? : EngineCall → Option String
  | .put index _ _ => some index
  | .remove index _ => some index
  | .hasIndex index => some index
  | .mapping index => some index
  | .create d => some d.indexName
  | .drop index => some index
  | _ => none

/-- A call to the search engine that is about an index. -/
def Call.about? (index : String) : Call → Option EngineCall
  | .engine c => if c.index? = some index then some c else none
  | _ => none

/-- The calls to the search engine that are about an index, in order. -/
def callsAbout (index : String) (calls : List Call) : List EngineCall :=
  calls.filterMap (Call.about? index)

/-- What there is of an index: its mapping, whether it is known, and the calls about it;
and the definitions that it is created by. -/
structure IndexTrace where
  definitions : List EntityDefinition
  mapping : Option Json
  known : Bool
  calls : List EngineCall

/-- The trace of an index in a world. -/
def World.trace (w : World) (index : String) : IndexTrace where
  definitions := w.definitions
  mapping := w.engine.mapping? index
  known := w.memory.knows index
  calls := callsAbout index w.log

/-- A step that leaves no trace on an index. -/
structure Step.Avoids (index : String) (s : Step) : Prop where
  untouched : ¬ s.Touches index
  unasked : ∀ c, s = .call (.engine c) → c.index? ≠ some index

theorem callsAbout_append (index : String) (calls more : List Call) :
    callsAbout index (calls ++ more) = callsAbout index calls ++ callsAbout index more :=
  List.filterMap_append

namespace World

variable {frail : Call → Prop} {w w' : World}

/-- A step leaves the indices alone that it avoids. -/
theorem Meets.trace_of_avoids {s : Step} {r : s.Reply} (h : w.Meets frail s r w')
    {index : String} (avoids : s.Avoids index) : w'.trace index = w.trace index := by
  have hview := h.view_of_not_touches avoids.untouched []
  have hmapping : w'.engine.mapping? index = w.engine.mapping? index :=
    congrArg IndexView.mapping hview
  have hknown : w'.memory.knows index = w.memory.knows index := congrArg IndexView.known hview
  have hcalls : callsAbout index w'.log = callsAbout index w.log := by
    cases h with
    | own own =>
      cases s with
      | call c => exact absurd rfl (own c)
      | _ => rfl
    | @call c _ _ answers =>
      obtain ⟨plans, engine, responses, records, rfl⟩ := answers.frame
      have hnone : Call.about? index c = none := by
        cases c with
        | engine c => exact if_neg (avoids.unasked c rfl)
        | _ => rfl
      have hlog : callsAbout index (w.log ++ [c]) = callsAbout index w.log := by
        rw [callsAbout_append]
        unfold callsAbout
        rw [List.filterMap_cons, hnone]
        exact List.append_nil _
      exact hlog
  unfold trace
  rw [h.definitions, hmapping, hknown, hcalls]

/-! ## Others at work -/

/-- Before a step is met others may have gone on, as long as they left no trace on the
index. -/
inductive AmidOthers (index : String) (w : World) (s : Step) (r : s.Reply) (w' : World) : Prop
  | met {v : World} (same : v.trace index = w.trace index) (meets : v.Meets noCall s r w')

end World

/-- Whatever others do to other indices, the program comes to a value and leaves a trace
on its index of which this holds. -/
def Prog.ComesTo {α : Type} (index : String) (p : Prog α) (w : World)
    (post : α → IndexTrace → Prop) : Prop :=
  ∀ a moments w', p.Through (World.AmidOthers index) w moments a w' → post a (w'.trace index)

/-- Only the trace of the index matters for where a program starts. -/
theorem Prog.ComesTo.of_trace {α : Type} {index : String} {p : Prog α} {w v : World}
    {post : α → IndexTrace → Prop} (h : p.ComesTo index w post)
    (same : v.trace index = w.trace index) : p.ComesTo index v post := by
  intro a moments w' hruns
  cases hruns with
  | done =>
    have hpost := h a [] w (.done a w)
    rwa [← same] at hpost
  | step meets rest =>
    obtain ⟨hfirst, meets⟩ := meets
    exact h a _ w' (.step (.met (hfirst.trans same) meets) rest)

/-- After a step of its own a program comes to the same. -/
theorem Prog.ComesTo.step {α : Type} {index : String} {s : Step} {next : s.Reply → Prog α}
    {w w' : World} {r : s.Reply} {post : α → IndexTrace → Prop}
    (h : (Prog.step s next).ComesTo index w post) (meets : w.Meets noCall s r w') :
    (next r).ComesTo index w' post :=
  fun a _ w'' hruns => h a _ w'' (.step (.met rfl meets) hruns)

/-! ## Steps that leave a trace -/

/-- The trace with a call more. -/
def IndexTrace.noting (t : IndexTrace) (c : EngineCall) : IndexTrace :=
  { t with calls := t.calls ++ [c] }

section

variable {index : String} {w w' : World}

/-- Where no call fails, a call is answered with its effect. -/
theorem World.Meets.answered {c : Call} {r : Except Outage c.Reply}
    (h : w.Meets noCall (.call c) r w') :
    ∃ plans, r = ((w.calling c plans).effect c).1 ∧ w' = ((w.calling c plans).effect c).2 := by
  cases h with
  | own own => exact absurd rfl (own c)
  | call answers =>
    cases answers with
    | answered plans => exact ⟨plans, rfl, rfl⟩
    | failed _ _ may => exact may.elim
    | lost _ _ may => exact may.elim

theorem World.trace_calling {c : EngineCall} (hindex : c.index? = some index)
    (plans : List OutagePlan) :
    (w.calling (.engine c) plans).trace index = (w.trace index).noting c := by
  have hcalls : callsAbout index (w.log ++ [.engine c]) = callsAbout index w.log ++ [c] := by
    have habout : Call.about? index (.engine c) = some c := if_pos hindex
    rw [callsAbout_append]
    unfold callsAbout
    rw [List.filterMap_cons, habout]
    rfl
  unfold World.trace IndexTrace.noting
  exact congrArg (fun calls => IndexTrace.mk _ _ _ calls) hcalls

/-- The trace with what became of a mapping. -/
def IndexTrace.mapped (t : IndexTrace) (mapping : Option Json) : IndexTrace := { t with mapping }

/-- The trace with the index known or not. -/
def IndexTrace.knowing (t : IndexTrace) (known : Bool) : IndexTrace := { t with known }

namespace World.AmidOthers

theorem mapping {r : Except Outage Json}
    (h : w.AmidOthers index (.call (.engine (.mapping index))) r w') :
    r = (match (w.trace index).mapping with
      | some mapping => .ok mapping
      | none => .error .notFound) ∧ w'.trace index = (w.trace index).noting (.mapping index) := by
  obtain @⟨v, same, meets⟩ := h
  obtain ⟨plans, rfl, rfl⟩ := meets.answered
  have heffect : (v.calling (.engine (.mapping index)) plans).effect (.engine (.mapping index)) =
      match (v.trace index).mapping with
      | some mapping => (.ok mapping, v.calling (.engine (.mapping index)) plans)
      | none => (.error .notFound, v.calling (.engine (.mapping index)) plans) := rfl
  rw [heffect, ← same, ← trace_calling rfl plans]
  rcases (v.trace index).mapping with _ | mapping
  · exact ⟨rfl, rfl⟩
  · exact ⟨rfl, rfl⟩

theorem hasIndex {r : Except Outage Bool}
    (h : w.AmidOthers index (.call (.engine (.hasIndex index))) r w') :
    r = .ok (w.trace index).mapping.isSome ∧
      w'.trace index = (w.trace index).noting (.hasIndex index) := by
  obtain ⟨same, meets⟩ := h
  obtain ⟨plans, rfl, rfl⟩ := meets.answered
  rw [← same]
  exact ⟨rfl, trace_calling rfl plans⟩

theorem create {d : IndexDescriptor} (hindex : d.indexName = index)
    (hnone : (w.trace index).mapping = none) {r : Except Outage Unit}
    (h : w.AmidOthers index (.call (.engine (.create d))) r w') :
    r = .ok () ∧
      w'.trace index = ((w.trace index).noting (.create d)).mapped (some d.mappings) := by
  obtain @⟨v, same, meets⟩ := h
  obtain ⟨plans, rfl, rfl⟩ := meets.answered
  have hmissing : v.engine.mapping? d.indexName = none := by
    rw [← same] at hnone
    exact hindex ▸ hnone
  have heffect : (v.calling (.engine (.create d)) plans).effect (.engine (.create d)) =
      if (v.engine.mapping? d.indexName).isSome then
        (.error .refused, v.calling (.engine (.create d)) plans)
      else (.ok (), { v.calling (.engine (.create d)) plans with
        engine := v.engine.setMapping d.indexName d.mappings }) := rfl
  have habout : (EngineCall.create d).index? = some index := congrArg some hindex
  rw [heffect, hmissing, ← same, ← trace_calling habout plans]
  refine ⟨rfl, ?_⟩
  have hmapping : (v.engine.setMapping d.indexName d.mappings).mapping? index = some d.mappings := by
    rw [SearchEngine.mapping?_setMapping, if_pos hindex.symm]
  exact congrArg (fun m => IndexTrace.mk _ m _ _) hmapping

theorem drop {old : Json} (hsome : (w.trace index).mapping = some old) {r : Except Outage Unit}
    (h : w.AmidOthers index (.call (.engine (.drop index))) r w') :
    (r = .ok () ∨ r = .error .notFound) ∧
      w'.trace index = ((w.trace index).noting (.drop index)).mapped none := by
  obtain @⟨v, same, meets⟩ := h
  obtain ⟨plans, rfl, rfl⟩ := meets.answered
  have hmapping : v.engine.mapping? index = some old := by
    rw [← same] at hsome
    exact hsome
  have hgone : (v.engine.drop index).mapping? index = none := by
    rw [SearchEngine.mapping?_drop, if_pos rfl]
  have heffect : ∃ outcome engine,
      (v.calling (.engine (.drop index)) plans).effect (.engine (.drop index)) =
        (outcome, { v.calling (.engine (.drop index)) plans with engine }) ∧
      (outcome = .ok () ∨ outcome = .error .notFound) ∧ engine.mapping? index = none := by
    have hcalling : (v.calling (.engine (.drop index)) plans).engine.mapping? index = some old :=
      hmapping
    simp only [World.effect, World.answerEngine]
    rw [hcalling]
    cases old with
    | null => exact ⟨_, _, rfl, Or.inr rfl, hgone⟩
    | _ => exact ⟨_, _, rfl, Or.inl rfl, hgone⟩
  obtain ⟨outcome, engine, heffect, houtcome, hnone⟩ := heffect
  rw [heffect, ← same, ← trace_calling rfl plans]
  exact ⟨houtcome, congrArg (fun m => IndexTrace.mk _ m _ _) hnone⟩

theorem definitions {solutionId entityName entityType : Json}
    {r : Except Outage (List EntityDefinition)}
    (h : w.AmidOthers index (.call (.database (.definitions solutionId entityName entityType))) r w') :
    r = EntityDefinition.rowsFor (w.trace index).definitions solutionId entityName entityType ∧
      w'.trace index = w.trace index := by
  obtain ⟨same, meets⟩ := h
  have avoids : (Step.call (.database (.definitions solutionId entityName entityType))).Avoids index :=
    ⟨id, nofun⟩
  have hsame := meets.trace_of_avoids avoids
  obtain ⟨plans, rfl, rfl⟩ := meets.answered
  rw [← same]
  exact ⟨rfl, hsame⟩

/-- A step that avoids the index leaves its trace, whoever goes on before. -/
theorem avoiding {s : Step} {r : s.Reply} (h : w.AmidOthers index s r w')
    (avoids : s.Avoids index) : w'.trace index = w.trace index := by
  obtain ⟨same, meets⟩ := h
  exact (meets.trace_of_avoids avoids).trans same

theorem recalled {m : IndexMemory} (h : w.AmidOthers index .recall m w') :
    m.knows index = (w.trace index).known ∧ w'.trace index = w.trace index := by
  have hsame := h.avoiding ⟨id, nofun⟩
  obtain ⟨same, meets⟩ := h
  cases meets with
  | own own => exact ⟨congrArg IndexTrace.known same, hsame⟩

theorem change {m : MemoryChange} {known : Bool}
    (hknown : ∀ v : World, v.trace index = w.trace index →
      (v.memory.change m).knows index = known)
    {r : Unit} (h : w.AmidOthers index (.change m) r w') :
    w'.trace index = (w.trace index).knowing known := by
  obtain @⟨v, same, meets⟩ := h
  cases meets with
  | own own =>
    have hafter := hknown v same
    rw [← same]
    exact congrArg (fun k => IndexTrace.mk _ _ k _) hafter

end World.AmidOthers

end

end TenantSearch
