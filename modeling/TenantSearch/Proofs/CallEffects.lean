-- What a single call changes in a world: it is written down and uses up a
-- planned outage; an engine call changes the engine and the responses still to
-- come, a database call the records, a queue call nothing.
import TenantSearch.Proofs.Contracts
import TenantSearch.Proofs.EngineDocuments

namespace TenantSearch

/-- A call meets no outage where none is planned for it, and uses up no plan. -/
theorem OutagePlan.meetAll_of_not_mem {call : String} {plans : List OutagePlan}
    (h : call ∉ plans.map (·.call)) : meetAll call plans = (none, plans) := by
  induction plans with
  | nil => rfl
  | cons plan rest ih =>
    rw [List.map_cons, List.mem_cons, not_or] at h
    obtain ⟨hplan, hrest⟩ := h
    have hname : (plan.call == call) = false := by simpa using Ne.symm hplan
    unfold meetAll
    rw [hname, ih hrest]
    rfl

namespace World

/-! ## Calls and their effects -/

/-- The outage that a call meets, and the plans after it. -/
def meeting (w : World) (c : Call) : Option Outage × List OutagePlan :=
  if c.mayFail then OutagePlan.meetAll c.name w.plans else (none, w.plans)

/-- The world in which a call is written down and its outage used up. -/
def noted (w : World) (c : Call) : World :=
  { w with log := w.log ++ [c], plans := (w.meeting c).2 }

/-- What a call does where no outage meets it. -/
def effect (w : World) : (c : Call) → Except Outage c.Reply × World
  | .engine c => w.answerEngine c
  | .queue c => w.answerQueue c
  | .database c => w.answerDatabase c

theorem answerCall_eq (w : World) (c : Call) :
    w.answerCall c = match (w.meeting c).1 with
      | some o => (.error o, w.noted c)
      | none => (w.noted c).effect c := by
  unfold answerCall noted meeting
  generalize (if c.mayFail then OutagePlan.meetAll c.name w.plans else (none, w.plans)) = met
  obtain ⟨_ | o, plans⟩ := met
  · cases c with
    | engine c => rfl
    | queue c => rfl
    | database c => rfl
  · rfl

/-- A call fails with its outage, or it takes effect. -/
theorem answerCall_cases (w : World) (c : Call) :
    (∃ o, w.answerCall c = (.error o, w.noted c)) ∨ w.answerCall c = (w.noted c).effect c := by
  rw [answerCall_eq]
  rcases (w.meeting c).1 with _ | o
  · exact Or.inr rfl
  · exact Or.inl ⟨o, rfl⟩

/-- An answer is that of the effect. -/
theorem effect_of_answer {w : World} {c : Call} {v : c.Reply} (h : (w.answerCall c).1 = .ok v) :
    ((w.noted c).effect c).1 = .ok v := by
  rcases answerCall_cases w c with ⟨o, ho⟩ | heffect
  · rw [ho] at h
    cases h
  · rwa [heffect] at h

/-! ## What stays -/

theorem answerEngine_frame (w : World) (c : EngineCall) :
    ∃ engine responses, (w.answerEngine c).2 = { w with engine, responses } := by
  cases c with
  | search indices arguments => exact ⟨w.engine, w.responses.drop 1, rfl⟩
  | put index id document =>
    simp only [answerEngine]
    rcases w.engine.put? index id document with _ | engine
    · exact ⟨_, _, rfl⟩
    · exact ⟨engine, w.responses, rfl⟩
  | remove index id =>
    simp only [answerEngine]
    rcases id.key? with _ | key
    · exact ⟨_, _, rfl⟩
    · dsimp only
      split
      · exact ⟨w.engine.remove index key, w.responses, rfl⟩
      · exact ⟨_, _, rfl⟩
  | mapping index =>
    simp only [answerEngine]
    rcases w.engine.mapping? index with _ | mapping
    · exact ⟨_, _, rfl⟩
    · exact ⟨_, _, rfl⟩
  | create d =>
    simp only [answerEngine]
    split
    · exact ⟨_, _, rfl⟩
    · exact ⟨w.engine.setMapping d.indexName d.mappings, w.responses, rfl⟩
  | drop index =>
    simp only [answerEngine]
    split
    · exact ⟨w.engine.dropMapping index, w.responses, rfl⟩
    · exact ⟨w.engine.drop index, w.responses, rfl⟩
    · exact ⟨_, _, rfl⟩
  | connect url key timeout => exact ⟨_, _, rfl⟩
  | hasIndex index => exact ⟨_, _, rfl⟩
  | health => exact ⟨_, _, rfl⟩
  | close => exact ⟨_, _, rfl⟩

theorem answerQueue_frame (w : World) (c : QueueCall) : (w.answerQueue c).2 = w := by
  cases c <;> rfl

theorem answerDatabase_commit (w : World) (found : Option Record) (document : Fields)
    (stamp : Option Timestamp) : w.answerDatabase (.commit found document stamp) =
      match w.records.commit found document stamp with
      | .ok (saved, records) => (.ok saved, { w with records })
      | .error o => (.error o, w) := rfl

/-- Only a commit changes the records. -/
theorem answerDatabase_frame (w : World) (c : DatabaseCall) :
    (w.answerDatabase c).2 = w ∨ ∃ found document stamp saved records,
      c = .commit found document stamp ∧
      w.records.commit found document stamp = .ok (saved, records) ∧
      (w.answerDatabase c).2 = { w with records } := by
  cases c with
  | commit found document stamp =>
    rcases h : w.records.commit found document stamp with o | ⟨saved, records⟩
    · left
      rw [answerDatabase_commit, h]
    · refine Or.inr ⟨found, document, stamp, saved, records, rfl, h, ?_⟩
      rw [answerDatabase_commit, h]
  | lookUp id => exact Or.inl rfl
  | staleSolutions cutoff =>
    left
    cases cutoff with
    | none => rfl
    | some cutoff => rfl
  | among ids => exact Or.inl rfl
  | page p => exact Or.inl rfl
  | definitions solutionId entityName entityType => exact Or.inl rfl
  | ping => exact Or.inl rfl

theorem effect_frame (w : World) (c : Call) : ∃ engine responses records,
    (w.effect c).2 = { w with engine, responses, records } := by
  cases c with
  | engine c =>
    obtain ⟨engine, responses, h⟩ := answerEngine_frame w c
    exact ⟨engine, responses, w.records, h⟩
  | queue c => exact ⟨w.engine, w.responses, w.records, answerQueue_frame w c⟩
  | database c =>
    rcases answerDatabase_frame w c with h | ⟨_, _, _, _, records, -, -, h⟩
    · exact ⟨w.engine, w.responses, w.records, h⟩
    · exact ⟨w.engine, w.responses, records, h⟩

/-- A call never touches the circumstances, the definitions, the memory or the
identifiers drawn so far. -/
theorem answerCall_frame (w : World) (c : Call) : ∃ engine responses records,
    (w.answerCall c).2 = { w.noted c with engine, responses, records } := by
  rcases answerCall_cases w c with ⟨o, h⟩ | h
  · exact ⟨w.engine, w.responses, w.records, by rw [h]; rfl⟩
  · obtain ⟨engine, responses, records, hframe⟩ := effect_frame (w.noted c) c
    exact ⟨engine, responses, records, by rw [h, hframe]⟩

theorem log_answerCall (w : World) (c : Call) : (w.answerCall c).2.log = w.log ++ [c] := by
  obtain ⟨engine, responses, records, h⟩ := answerCall_frame w c
  rw [h]
  rfl

/-- The records after an effect are those before it, but for a commit that works
out. -/
theorem records_effect (w : World) (c : Call) : (w.effect c).2.records = w.records ∨
    ∃ found document stamp saved, c = .database (.commit found document stamp) ∧
      w.records.commit found document stamp = .ok (saved, (w.effect c).2.records) := by
  cases c with
  | engine c =>
    obtain ⟨engine, responses, hframe⟩ := answerEngine_frame w c
    exact Or.inl (by rw [effect, hframe])
  | queue c => exact Or.inl (by rw [effect, answerQueue_frame])
  | database c =>
    rcases answerDatabase_frame w c with hframe | hframe
    · exact Or.inl (by rw [effect, hframe])
    · obtain ⟨found, document, stamp, saved, records, rfl, hcommit, hframe⟩ := hframe
      exact Or.inr ⟨found, document, stamp, saved, rfl, by rw [effect, hframe]; exact hcommit⟩

/-- The records after a call are those before it, but for a commit that works
out. -/
theorem records_answerCall (w : World) (c : Call) : (w.answerCall c).2.records = w.records ∨
    ∃ found document stamp saved, c = .database (.commit found document stamp) ∧
      w.records.commit found document stamp = .ok (saved, (w.answerCall c).2.records) := by
  rcases answerCall_cases w c with ⟨o, h⟩ | h
  · left
    rw [h]
    rfl
  · rw [h]
    exact records_effect (w.noted c) c

/-- What a call can make of the engine. -/
inductive EngineChange (e : SearchEngine) : Call → SearchEngine → Prop
  | same {c : Call} : EngineChange e c e
  | put {index : String} {id : Json} {fields : Fields} {e' : SearchEngine}
      (put : e.put? index id fields = some e') :
      EngineChange e (.engine (.put index id fields)) e'
  | remove {index : String} {id : Json} (key : Json.Key) :
      EngineChange e (.engine (.remove index id)) (e.remove index key)
  | create {d : IndexDescriptor} :
      EngineChange e (.engine (.create d)) (e.setMapping d.indexName d.mappings)
  | drop {index : String} : EngineChange e (.engine (.drop index)) (e.drop index)
  | unmap {index : String} : EngineChange e (.engine (.drop index)) (e.dropMapping index)

theorem engine_answerEngine (w : World) (c : EngineCall) :
    EngineChange w.engine (.engine c) (w.answerEngine c).2.engine := by
  cases c with
  | put index id fields =>
    simp only [answerEngine]
    rcases hput : w.engine.put? index id fields with _ | engine
    · exact .same
    · exact .put hput
  | remove index id =>
    simp only [answerEngine]
    rcases id.key? with _ | key
    · exact .same
    · dsimp only
      split
      · exact .remove key
      · exact .same
  | mapping index =>
    simp only [answerEngine]
    rcases w.engine.mapping? index with _ | mapping
    · exact .same
    · exact .same
  | create d =>
    simp only [answerEngine]
    split
    · exact .same
    · exact .create
  | drop index =>
    simp only [answerEngine]
    split
    · exact .unmap
    · exact .drop
    · exact .same
  | search indices arguments => exact .same
  | connect url key timeout => exact .same
  | hasIndex index => exact .same
  | health => exact .same
  | close => exact .same

theorem engine_effect (w : World) (c : Call) :
    EngineChange w.engine c (w.effect c).2.engine := by
  cases c with
  | engine c => exact engine_answerEngine w c
  | queue c =>
    rw [effect, answerQueue_frame]
    exact .same
  | database c =>
    rw [effect]
    rcases answerDatabase_frame w c with hframe | ⟨_, _, _, _, _, -, -, hframe⟩
    · rw [hframe]
      exact .same
    · rw [hframe]
      exact .same

theorem engine_answerCall (w : World) (c : Call) :
    EngineChange w.engine c (w.answerCall c).2.engine := by
  rcases answerCall_cases w c with ⟨o, h⟩ | h
  · rw [h]
    exact .same
  · rw [h]
    exact engine_effect (w.noted c) c

/-- A copy that is held after a call was held before it, or the call put it
there under its key. -/
theorem EngineChange.copy {e e' : SearchEngine} {c : Call} (h : EngineChange e c e')
    {index : String} {key : Json.Key} {fields : Fields} (hcopy : e'.copy? index key = some fields) :
    e.copy? index key = some fields ∨
      ∃ id, c = .engine (.put index id fields) ∧ id.key? = some key := by
  cases h with
  | same => exact Or.inl hcopy
  | @put i id document _ put =>
    rw [SearchEngine.copy?_put put] at hcopy
    split at hcopy
    · next hat =>
      cases hcopy
      exact Or.inr ⟨id, by rw [hat.1], hat.2⟩
    · exact Or.inl hcopy
  | remove k =>
    rw [SearchEngine.copy?_remove] at hcopy
    split at hcopy
    · cases hcopy
    · exact Or.inl hcopy
  | create => exact Or.inl hcopy
  | drop =>
    rw [SearchEngine.copy?_drop] at hcopy
    split at hcopy
    · cases hcopy
    · exact Or.inl hcopy
  | unmap => exact Or.inl hcopy

/-- A mapping that is there after a call was there before it, or the call
created it. -/
theorem EngineChange.mapping {e e' : SearchEngine} {c : Call} (h : EngineChange e c e')
    {index : String} {mapping : Json} (hmapping : e'.mapping? index = some mapping) :
    e.mapping? index = some mapping ∨ ∃ d, c = .engine (.create d) ∧ d.mappings = mapping := by
  have hdropped (i : String) (h : (e.drop i).mapping? index = some mapping) :
      e.mapping? index = some mapping := by
    rw [SearchEngine.mapping?_drop] at h
    split at h
    · cases h
    · exact h
  cases h with
  | same => exact Or.inl hmapping
  | put put => exact Or.inl (SearchEngine.mapping?_put put index ▸ hmapping)
  | remove k => exact Or.inl hmapping
  | @create d =>
    rw [SearchEngine.mapping?_setMapping] at hmapping
    split at hmapping
    · cases hmapping
      exact Or.inr ⟨d, rfl, rfl⟩
    · exact Or.inl hmapping
  | @drop i => exact Or.inl (hdropped i hmapping)
  | @unmap i => exact Or.inl (hdropped i hmapping)

theorem page_of_answer {w : World} {p : StalePage} {rows : List Record}
    (h : (w.answerCall (.database (.page p))).1 = .ok rows) : w.records.page p = .ok rows :=
  effect_of_answer h

theorem saved_of_answer {w : World} {found : Option Record} {document saved : Fields}
    {stamp : Option Timestamp}
    (h : (w.answerCall (.database (.commit found document stamp))).1 = .ok saved) :
    ∃ records, w.records.commit found document stamp = .ok (saved, records) := by
  have heffect : ((w.noted (.database (.commit found document stamp))).answerDatabase
      (.commit found document stamp)).1 = .ok saved := effect_of_answer h
  have hrecords : (w.noted (.database (.commit found document stamp))).records = w.records := rfl
  rw [answerDatabase_commit, hrecords] at heffect
  rcases hcommit : w.records.commit found document stamp with o | ⟨saved', records⟩
  · rw [hcommit] at heffect
    cases heffect
  · rw [hcommit] at heffect
    cases heffect
    exact ⟨records, rfl⟩

/-- A lookup changes nothing; it finds the row of the identifier, or fails. -/
theorem lookUp_cases (w : World) (id : Json) :
    ∃ r w', w.answerCall (.database (.lookUp id)) = (r, w') ∧ w'.records = w.records ∧
      w'.engine = w.engine ∧ ∀ found, r = .ok found → w.records.rowOf id = .ok found := by
  rcases answerCall_cases w (.database (.lookUp id)) with ⟨o, h⟩ | h
  · exact ⟨.error o, _, h, rfl, rfl, nofun⟩
  · exact ⟨_, _, h, rfl, rfl, fun _ hfound => hfound⟩

/-- A commit leaves the engine alone; it works out and changes the table, or
it fails and does not. -/
theorem commit_cases (w : World) (found : Option Record) (document : Fields)
    (stamp : Option Timestamp) :
    (∃ o w', w.answerCall (.database (.commit found document stamp)) = (.error o, w') ∧
      w'.records = w.records ∧ w'.engine = w.engine) ∨
    ∃ saved w', w.answerCall (.database (.commit found document stamp)) = (.ok saved, w') ∧
      w.records.commit found document stamp = .ok (saved, w'.records) ∧ w'.engine = w.engine := by
  rcases answerCall_cases w (.database (.commit found document stamp)) with ⟨o, h⟩ | h
  · exact Or.inl ⟨o, _, h, rfl, rfl⟩
  · have hrecords : (w.noted (.database (.commit found document stamp))).records = w.records := rfl
    rw [effect, answerDatabase_commit, hrecords] at h
    rcases hcommit : w.records.commit found document stamp with o | ⟨saved, records⟩
    · rw [hcommit] at h
      exact Or.inl ⟨o, _, h, rfl, rfl⟩
    · rw [hcommit] at h
      exact Or.inr ⟨saved, _, h, rfl, rfl⟩

/-! ## The calls that were made -/

/-- A world in which nothing has happened yet. -/
def empty (here : Circumstances) : World := { circumstances := here }

/-- The calls between two worlds of a run. -/
def callsSince (w₀ w : World) : List Call := w.log.drop w₀.log.length

/-- All calls between two worlds of a run have a property. -/
structure Made (allows : Call → Prop) (w₀ w : World) : Prop where
  logged : w₀.log <+: w.log
  all : ∀ c ∈ callsSince w₀ w, allows c

theorem Made.refl (allows : Call → Prop) (w : World) : Made allows w w :=
  ⟨List.prefix_refl _, by simp [callsSince]⟩

theorem Made.answerCall {allows : Call → Prop} {w₀ w : World} (h : Made allows w₀ w) {c : Call}
    (hc : allows c) : Made allows w₀ (w.answerCall c).2 := by
  have hlog := log_answerCall w c
  constructor
  · rw [hlog]
    exact h.logged.trans (List.prefix_append _ _)
  · intro c' hc'
    unfold callsSince at hc'
    rw [hlog, List.drop_append_of_le_length h.logged.length_le, List.mem_append,
      List.mem_singleton] at hc'
    rcases hc' with hc' | rfl
    · exact h.all c' hc'
    · exact hc

/-- Whatever a contract allows, only such calls are made under it. -/
theorem made_upheld (allows : Call → Prop) (w₀ : World) :
    (Contract.only allows).Upholds (Made allows w₀) where
  call _ _ h hc := ⟨fun _ _ => trivial, h.answerCall hc⟩
  memory _ _ h := ⟨h.logged, h.all⟩
  supply _ _ h := ⟨h.logged, h.all⟩

end World

/-! ## Worlds without outages -/

namespace World

/-- No outage is planned. -/
def Calm (w : World) : Prop := w.plans = []

/-- The world after calls that changed nothing else. -/
def logged (w : World) (calls : List Call) : World := { w with log := w.log ++ calls }

@[simp]
theorem logged_logged (w : World) (calls more : List Call) :
    (w.logged calls).logged more = w.logged (calls ++ more) := by
  unfold logged
  simp

@[simp]
theorem logged_engine (w : World) (calls : List Call) : (w.logged calls).engine = w.engine := rfl

theorem Calm.logged {w : World} (h : w.Calm) (calls : List Call) : (w.logged calls).Calm := h

/-- No outage is planned for a call. -/
def Unplanned (w : World) (c : Call) : Prop := c.name ∉ w.plans.map (·.call)

theorem Calm.unplanned {w : World} (h : w.Calm) (c : Call) : w.Unplanned c := by
  unfold Unplanned
  rw [h]
  exact List.not_mem_nil

/-- A call takes effect where no outage is planned for it. -/
theorem Unplanned.answerCall {w : World} {c : Call} (h : w.Unplanned c) :
    w.answerCall c = (w.logged [c]).effect c := by
  have hmeeting : w.meeting c = (none, w.plans) := by
    unfold meeting
    split
    · exact OutagePlan.meetAll_of_not_mem h
    · rfl
  rw [answerCall_eq, hmeeting]
  unfold noted
  rw [hmeeting]
  rfl

/-- Without outages every call takes effect. -/
theorem Calm.answerCall {w : World} (h : w.Calm) (c : Call) :
    w.answerCall c = (w.logged [c]).effect c := (h.unplanned c).answerCall

theorem Calm.answer {w : World} (h : w.Calm) (s : Step) : (w.answer s).2.Calm := by
  cases s with
  | call c =>
    obtain ⟨engine, responses, records, hframe⟩ := effect_frame (w.logged [c]) c
    have hcall : (w.answer (.call c)).2 = ((w.logged [c]).effect c).2 :=
      congrArg Prod.snd (h.answerCall c)
    rw [hcall, hframe]
    exact h
  | _ => exact h

/-- No program plans an outage. -/
theorem Calm.run {α : Type} (p : Prog α) {w : World} (h : w.Calm) : (p.run w).2.Calm := by
  induction p generalizing w with
  | done a => exact h
  | step s next ih => exact ih _ (h.answer s)

end World

namespace Service

/-- A call that no outage is planned for gives the answer of its effect. -/
theorem leads_ask_unplanned {w : World} {c : Call} (h : w.Unplanned c)
    (post : Except Failure (Except Outage c.Reply) → World → Prop) :
    (ask (.call c)).Leads w post ↔
      post (.ok ((w.logged [c]).effect c).1) ((w.logged [c]).effect c).2 := by
  rw [← h.answerCall]
  rfl

/-- In a calm world a call gives the answer of its effect. -/
theorem leads_call_calm {w : World} (hcalm : w.Calm) (c : Call) (blame : Outage → Failure)
    (post : Except Failure c.Reply → World → Prop) :
    (call c blame).Leads w post ↔
      post (((w.logged [c]).effect c).1.mapError blame) ((w.logged [c]).effect c).2 := by
  rw [leads_call, hcalm.answerCall]

theorem leads_ask_calm {w : World} (hcalm : w.Calm) (c : Call)
    (post : Except Failure (Except Outage c.Reply) → World → Prop) :
    (ask (.call c)).Leads w post ↔
      post (.ok ((w.logged [c]).effect c).1) ((w.logged [c]).effect c).2 :=
  leads_ask_unplanned (hcalm.unplanned c) post

end Service

/-! ## Fixtures -/

/-- The circumstances of a first morning. -/
def morning : Circumstances := { now := ⟨0⟩ }

/-- The index that a call puts a document into. -/
def Call.putIndex? : Call → Option String
  | .engine (.put index _ _) => some index
  | _ => none

theorem Call.putIndex?_eq_some {c : Call} {index : String} :
    c.putIndex? = some index ↔ ∃ id fields, c = .engine (.put index id fields) := by
  constructor
  · intro h
    cases c with
    | engine c =>
      cases c with
      | put index' id fields =>
        cases h
        exact ⟨id, fields, rfl⟩
      | _ => cases h
    | queue c => cases h
    | database c => cases h
  · rintro ⟨id, fields, rfl⟩
    rfl

end TenantSearch
