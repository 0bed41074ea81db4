-- Where the copies of a record are after calls that index and remove it. Each
-- call reaches the indices that its own data name, so a copy stays where it
-- was written until a call names that index again.
import TenantSearch.Proofs.CalmIndexing

namespace TenantSearch

/-! ## Calls about records -/

/-- A call about a record: it is to be indexed, or to be removed. -/
inductive RecordCall where
  | upsert (document : Fields)
  | remove (document : Fields)

namespace RecordCall

def document : RecordCall → Fields
  | .upsert document => document
  | .remove document => document

/-- The key of the record that a call is about. -/
def key? (c : RecordCall) : Option Json.Key := (c.document.look "id").key?

/-- The indices that a call reaches, by its own data: none for indexing a
record of a reserved entity. -/
def indices : RecordCall → List String
  | .upsert document => if Reindex.isReserved document then [] else ownIndices document
  | .remove document => ownIndices document

/-- Whether a call indexes a record. -/
def isUpsert : RecordCall → Bool
  | .upsert _ => true
  | .remove _ => false

def program : RecordCall → Service (List String)
  | .upsert document => Indexing.upsert document
  | .remove document => Indexing.remove document

/-- The calls that were accepted, one after the other, and the world after all
of them. -/
def runAll : List RecordCall → World → List RecordCall × World
  | [], w => ([], w)
  | c :: rest, w =>
    let (outcome, w) := c.program.runIn w
    let (accepted, w) := runAll rest w
    (match outcome with
      | .ok _ => c :: accepted
      | .error _ => accepted, w)

end RecordCall

namespace RecordCall

/-! ## The last call -/

/-- The last call about a key. -/
def lastAbout? (calls : List RecordCall) (key : Json.Key) : Option RecordCall :=
  calls.reverse.find? fun c => c.key? == some key

/-- The last call about a key that reaches an index. -/
def lastReaching? (calls : List RecordCall) (key : Json.Key) (index : String) :
    Option RecordCall :=
  calls.reverse.find? fun c => c.key? == some key && c.indices.contains index

/-- The record under a key was last indexed into an index, and not removed from
there. -/
def LeftIn (calls : List RecordCall) (key : Json.Key) (index : String) : Prop :=
  ∃ c, lastReaching? calls key index = some c ∧ c.isUpsert = true

/-- The last call about a key indexes the record, and into this index. -/
def LastIndexedInto (calls : List RecordCall) (key : Json.Key) (index : String) : Prop :=
  ∃ c, lastAbout? calls key = some c ∧ c.isUpsert = true ∧ index ∈ c.indices

/-- The last call about a key, where it reaches an index, is the last one that
reaches the index. -/
theorem lastReaching?_of_lastAbout? {calls : List RecordCall} {key : Json.Key} {c : RecordCall}
    (h : lastAbout? calls key = some c) {index : String} (hindex : index ∈ c.indices) :
    lastReaching? calls key index = some c := by
  unfold lastAbout? at h
  unfold lastReaching?
  generalize calls.reverse = reversed at h ⊢
  induction reversed with
  | nil => cases h
  | cons d rest ih =>
    rw [List.find?_cons] at h ⊢
    cases hd : d.key? == some key with
    | true =>
      rw [hd] at h
      cases h
      rw [List.contains_iff_mem.mpr hindex]
      rfl
    | false =>
      rw [hd] at h
      exact ih h

theorem lastReaching?_cons (c : RecordCall) (calls : List RecordCall) (key : Json.Key)
    (index : String) : lastReaching? (c :: calls) key index =
      (lastReaching? calls key index).or
        (if c.key? = some key ∧ index ∈ c.indices then some c else none) := by
  unfold lastReaching?
  rw [List.reverse_cons, List.find?_append]
  congr 1
  by_cases hkey : c.key? = some key
  · by_cases hindex : index ∈ c.indices
    · simp [hkey, hindex]
    · simp [hindex]
  · simp [hkey]

/-! ## One call and all calls -/

/-- A call that is not refused for what its document says. -/
def IsProper (definitions : List EntityDefinition) : RecordCall → Prop
  | .upsert document => Indexable definitions document
  | .remove document => Removable document

/-- One call: what it reaches stands for the record or is gone, and nothing
else changes. -/
theorem program_leads {w : World} (hcalm : w.Calm) {index : String}
    (hsound : w.engine.SoundAt index) (c : RecordCall) :
    c.program.Leads w fun r w' => w.Beside w' ∧ w'.engine.SoundAt index ∧
      (c.IsProper w.definitions → ∃ names, r = .ok names) ∧
      ∀ key, w'.engine.holds index key = match r with
        | .ok _ => if c.key? = some key ∧ index ∈ c.indices then c.isUpsert
          else w.engine.holds index key
        | .error _ => w.engine.holds index key := by
  cases c with
  | upsert document =>
    refine (upsert_leads hcalm hsound document).mono ?_
    rintro r w' ⟨hbeside, hsound', hupserted, hproper⟩
    refine ⟨hbeside, hsound', hproper, fun key => ?_⟩
    rw [SearchEngine.holds_eq, SearchEngine.holds_eq]
    cases hupserted with
    | refused copies => rw [copies]
    | reserved reserved copies =>
      rw [copies]
      simp [indices, reserved]
    | placed unreserved projection copies =>
      rw [copies key]
      simp only [indices, unreserved, key?, RecordCall.document, isUpsert, Bool.false_eq_true,
        if_false]
      by_cases hkey : (document.look "id").key? = some key
      · by_cases hindex : index ∈ ownIndices document
        · simp [hkey, hindex]
        · simp [hindex]
      · simp [hkey]
  | remove document =>
    refine (remove_leads hcalm document).mono ?_
    rintro r w' hcases
    rcases hcases with ⟨rfl, hrewritten⟩ | ⟨⟨f, rfl⟩, himproper, hrewritten⟩
    · refine ⟨hrewritten.beside, hrewritten.sound hsound, fun _ => ⟨_, rfl⟩, fun key => ?_⟩
      rw [SearchEngine.holds_eq, SearchEngine.holds_eq, hrewritten.copies index key]
      simp only [indices, key?, RecordCall.document, isUpsert]
      by_cases hkey : (document.look "id").key? = some key
      · by_cases hindex : index ∈ ownIndices document
        · simp [hkey, hindex]
        · simp [hindex]
      · simp [hkey]
    · refine ⟨hrewritten.beside, hrewritten.sound hsound, fun hproper => absurd hproper himproper,
        fun key => ?_⟩
      rw [SearchEngine.holds_eq, SearchEngine.holds_eq, hrewritten.copies index key]
      simp

/-- An index holds a record after calls just when the last accepted call that
reached it for that record indexed the record. Calls with proper documents are
all accepted. -/
theorem runAll_spec (calls : List RecordCall) {w : World} (hcalm : w.Calm) {index : String}
    (hsound : w.engine.SoundAt index) :
    (∀ key, (runAll calls w).2.engine.holds index key =
      match lastReaching? (runAll calls w).1 key index with
      | some c => c.isUpsert
      | none => w.engine.holds index key) ∧
    ((∀ c ∈ calls, c.IsProper w.definitions) → (runAll calls w).1 = calls) := by
  induction calls generalizing w with
  | nil => exact ⟨fun _ => rfl, fun _ => rfl⟩
  | cons c rest ih =>
    obtain ⟨hbeside, hsound', hproper, hone⟩ := program_leads hcalm hsound c
    unfold runAll
    rcases hrun : c.program.runIn w with ⟨outcome, w'⟩
    rw [hrun] at hbeside hsound' hproper hone
    obtain ⟨hholds, haccepted⟩ := ih (hbeside.calm hcalm) hsound'
    rw [hbeside.definitions] at haccepted
    dsimp only at hone hproper ⊢
    rcases outcome with f | names
    · refine ⟨fun key => by rw [hholds, hone], fun hall => ?_⟩
      obtain ⟨names, hnames⟩ := hproper (hall c List.mem_cons_self)
      cases hnames
    · refine ⟨fun key => ?_, fun hall => ?_⟩
      · dsimp only
        rw [hholds, hone, lastReaching?_cons]
        cases lastReaching? (runAll rest w').1 key index with
        | some d => rfl
        | none =>
          rw [Option.none_or]
          by_cases hreach : c.key? = some key ∧ index ∈ c.indices
          · simp [hreach]
          · simp [hreach]
      · dsimp only
        rw [haccepted fun d hd => hall d (List.mem_cons_of_mem _ hd)]

end RecordCall

/-! ## Copies and the last call -/

open RecordCall

/-- After any calls on an empty engine without outages, an index holds a record
just when the last call that reached the index for it indexed the record. So
the copies of a record follow the last call about it exactly as long as that
call reaches every index that the record was left in: a call under another
entity name or subtype leaves the former copies where they are. Calls with
proper documents are all accepted. -/
theorem copies_follow_the_last_call_iff {w : World} (hcalm : w.Calm) (hempty : w.engine = {})
    (calls : List RecordCall) (key : Json.Key) :
    (∀ index, (runAll calls w).2.engine.holds index key = true ↔
      LeftIn (runAll calls w).1 key index) ∧
    ((∀ index, (runAll calls w).2.engine.holds index key = true ↔
        LastIndexedInto (runAll calls w).1 key index) ↔
      ∀ index, LeftIn (runAll calls w).1 key index →
        ∃ c, lastAbout? (runAll calls w).1 key = some c ∧ index ∈ c.indices) ∧
    ((∀ c ∈ calls, c.IsProper w.definitions) → (runAll calls w).1 = calls) := by
  have hsound (index : String) : w.engine.SoundAt index := by
    intro mapping hmapping
    rw [hempty] at hmapping
    cases hmapping
  have hleft (index : String) : (runAll calls w).2.engine.holds index key = true ↔
      LeftIn (runAll calls w).1 key index := by
    have hnone : w.engine.holds index key = false := by
      rw [hempty]
      rfl
    rw [(runAll_spec calls hcalm (hsound index)).1, hnone]
    unfold LeftIn
    cases lastReaching? (runAll calls w).1 key index with
    | none => simp
    | some c => simp
  refine ⟨hleft, ?_, (runAll_spec calls hcalm (hsound "")).2⟩
  constructor
  · intro hclaim index hindex
    obtain ⟨c, hlast, -, hreached⟩ := (hclaim index).mp ((hleft index).mpr hindex)
    exact ⟨c, hlast, hreached⟩
  · intro hcovered index
    rw [hleft]
    constructor
    · intro hindex
      obtain ⟨c, hlast, hreached⟩ := hcovered index hindex
      obtain ⟨d, hd, hupsert⟩ := hindex
      rw [lastReaching?_of_lastAbout? hlast hreached] at hd
      cases hd
      exact ⟨c, hlast, hupsert, hreached⟩
    · rintro ⟨c, hlast, hupsert, hreached⟩
      exact ⟨c, lastReaching?_of_lastAbout? hlast hreached, hupsert⟩

/-- A concert with its texts. -/
def lateShow : Fields :=
  [("id", .str "e-1"), ("entityName", .str "Event"), ("entityType", .str "Concert"),
    ("solutionId", .str "sol-1"), ("searchDisplay", .str "Late show"), ("searchContent", .str "")]

/-- The same event under another subtype. -/
def lateWorkshop : Fields := lateShow.set "entityType" (.str "Workshop")

theorem a_removed_concert_is_nowhere :
    (World.empty morning).Calm ∧ (World.empty morning).engine = {} ∧
      (∀ c ∈ [RecordCall.upsert lateShow, .remove lateShow], c.IsProper []) ∧
      (runAll [.upsert lateShow, .remove lateShow] (.empty morning)).1 =
        [.upsert lateShow, .remove lateShow] ∧
      ∀ index, (runAll [.upsert lateShow, .remove lateShow] (.empty morning)).2.engine.holds index
        (.text "e-1") = false := by
  have hproper : ∀ c ∈ [RecordCall.upsert lateShow, .remove lateShow], c.IsProper [] := by
    intro c hc
    rw [List.mem_cons, List.mem_singleton] at hc
    rcases hc with rfl | rfl
    · have hdescriptors : (IndexTarget.writeTargets "Event" (.str "Concert")).all fun t =>
          (descriptorFor [] (.str "sol-1") t).isOk := by decide +kernel
      exact ⟨⟨"Event", rfl, by decide, fun t ht =>
        isOk_iff.mp (List.all_eq_true.mp hdescriptors t ht)⟩, rfl, rfl, Or.inl rfl⟩
    · exact ⟨⟨"Event", rfl, by decide⟩, rfl, rfl⟩
  obtain ⟨hheld, -, haccepted⟩ := copies_follow_the_last_call_iff (w := .empty morning) rfl rfl
    [.upsert lateShow, .remove lateShow] (.text "e-1")
  have hall := haccepted hproper
  refine ⟨rfl, rfl, hproper, hall, fun index => ?_⟩
  rw [hall] at hheld
  have hsame : (RecordCall.upsert lateShow).indices = (RecordCall.remove lateShow).indices := rfl
  have hkeys : (RecordCall.remove lateShow).key? = some (.text "e-1") := rfl
  rw [Bool.eq_false_iff]
  intro hholds
  obtain ⟨c, hc, hupsert⟩ := (hheld index).mp hholds
  rw [lastReaching?_cons, lastReaching?_cons, hsame, hkeys] at hc
  by_cases hindex : index ∈ (RecordCall.remove lateShow).indices
  · rw [if_pos ⟨rfl, hindex⟩] at hc
    cases hc
    cases hupsert
  · rw [if_neg fun h => hindex h.2, if_neg fun h => hindex h.2] at hc
    cases hc

/-- Removing the event under its new subtype leaves the copy of the concert. -/
theorem a_removal_under_another_subtype_leaves_a_copy :
    (runAll [.upsert lateShow, .remove lateWorkshop] (.empty morning)).2.engine.holds
        "event_concert" (.text "e-1") = true ∧
      ¬ LastIndexedInto (runAll [.upsert lateShow, .remove lateWorkshop] (.empty morning)).1
        (.text "e-1") "event_concert" := by
  have hlast : (lastAbout? (runAll [.upsert lateShow, .remove lateWorkshop] (.empty morning)).1
      (.text "e-1")).map isUpsert = some false := by decide +kernel
  refine ⟨by decide +kernel, ?_⟩
  rintro ⟨c, hc, hupsert, -⟩
  rw [hc, Option.map_some, hupsert] at hlast
  cases hlast

end TenantSearch
