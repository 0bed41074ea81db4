-- Which rows cannot be reindexed where the definitions are well formed: those with
-- a character reference of too many digits in a field that is merged.
import TenantSearch.Proofs.RewrittenRows

namespace TenantSearch

/-! ## Texts that are spoiled -/

namespace CharacterReference

theorem mem_of_hasOversized {cs : List Char} (h : hasOversized cs = true) : '&' ∈ cs := by
  fun_induction hasOversized cs with
  | case1 => cases h
  | case2 rest ih => exact List.mem_cons_self
  | case3 c rest hother ih => exact List.mem_cons_of_mem _ (ih h)

end CharacterReference

theorem unescape?_eq_none_iff {cs : List Char} :
    unescape? (String.ofList cs) = none ↔ CharacterReference.hasOversized cs = true := by
  unfold unescape?
  rw [String.contains_char_eq, String.toList_ofList]
  by_cases h : CharacterReference.hasOversized cs = true
  · simp [h, CharacterReference.mem_of_hasOversized h]
  · by_cases hmark : '&' ∈ cs
    · simp [h, hmark]
    · simp [h, hmark]

namespace PlainText

mutual

/-- Whether a field has a text with a decimal character reference of too many
digits. -/
def spoils : Json → Bool
  | .str s => CharacterReference.hasOversized (stripTags s.toList)
  | .arr items => anySpoils items
  | .null => false
  | .bool _ => false
  | .int _ => false
  | .float _ => false
  | .obj _ => false

def anySpoils : List Json → Bool
  | [] => false
  | item :: rest => spoils item || anySpoils rest

end

/-- A text without a mark that opens a tag keeps all it has. -/
theorem stripFrom_of_not_mem {cs : List Char} (h : '<' ∉ cs) (ends : Nat) (done : List Char) :
    stripFrom false ends done cs = done.reverse ++ cs := by
  induction cs generalizing ends done with
  | nil => simp [stripFrom]
  | cons c rest ih =>
    obtain ⟨hfirst, hrest⟩ := List.ne_and_not_mem_of_not_mem_cons h
    unfold stripFrom
    simp [ih hrest, Ne.symm hfirst]

/-- A decimal reference of too many digits spoils a text. -/
theorem spoils_of_digits {digits : List Char} (hdigits : ∀ c ∈ digits, (asciiDigit? c).isSome)
    (hmany : CharacterReference.mostDigits < digits.length) :
    spoils (.str (String.ofList ('&' :: '#' :: digits))) = true := by
  have hplain : '<' ∉ '&' :: '#' :: digits := by
    intro h
    simp only [List.mem_cons, Char.reduceEq, false_or] at h
    exact absurd (hdigits _ h) (by decide)
  have hall : digits.takeWhile (fun c => (asciiDigit? c).isSome) = digits :=
    List.takeWhile_eq_self_iff.mpr hdigits
  unfold spoils stripTags
  rw [String.toList_ofList, stripFrom_of_not_mem hplain]
  simp only [List.reverse_nil, List.nil_append]
  rw [CharacterReference.hasOversized, hall, decide_eq_true hmany, Bool.true_or]

theorem ofText_isOk (s : String) : (ofText s).isOk = !spoils (.str s) := by
  unfold ofText spoils
  rcases htext : unescape? (String.ofList (stripTags s.toList)) with _ | text
  · rw [unescape?_eq_none_iff.mp htext]
    rfl
  · have hclean : ¬ CharacterReference.hasOversized (stripTags s.toList) = true := by
      intro h
      rw [unescape?_eq_none_iff.mpr h] at htext
      cases htext
    rw [Bool.eq_false_iff.mpr hclean]
    rfl

mutual

/-- The plain text of a field can be made just when the field is not spoiled. -/
theorem ofValue_isOk (v : Json) : (ofValue v).isOk = !spoils v := by
  cases v with
  | str s => exact ofText_isOk s
  | arr items =>
    have hitems := ofItems_isOk items
    unfold ofValue spoils
    rw [← hitems]
    rcases ofItems items with b | texts
    · rfl
    · rfl
  | null => rfl
  | bool b => rfl
  | int n => rfl
  | float d => rfl
  | obj fields => rfl

theorem ofItems_isOk (items : List Json) : (ofItems items).isOk = !anySpoils items := by
  cases items with
  | nil => rfl
  | cons item rest =>
    have hitem := ofValue_isOk item
    have hrest := ofItems_isOk rest
    unfold ofItems anySpoils
    rw [Bool.not_or, ← hitem, ← hrest]
    rcases ofValue item with b | text
    · rfl
    · rcases ofItems rest with b | others
      · rfl
      · rfl

end

/-- Texts can be merged just when no field is spoiled. -/
theorem merge_isOk (document : Fields) (names : List String) :
    (merge document (names.map .str)).isOk = names.all fun name => !spoils (document.look name) := by
  have hall : ((names.map Json.str).mapM (ofField document)).isOk =
      names.all fun name => !spoils (document.look name) := by
    induction names with
    | nil => rfl
    | cons name rest ih =>
      have hfield : ofField document (.str name) = ofValue (document.look name) := rfl
      rw [List.map_cons, List.mapM_cons, List.all_cons, ← ih, ← ofValue_isOk, hfield]
      rcases ofValue (document.look name) with b | text
      · rfl
      · rcases (rest.map Json.str).mapM (ofField document) with b | texts
        · rfl
        · rfl
  unfold merge
  rw [← hall]
  rcases (names.map Json.str).mapM (ofField document) with b | texts
  · rfl
  · rfl

end PlainText

/-! ## Definitions that are well formed -/

/-- A list of names, or none. -/
def Json.IsNames (v : Json) : Prop := v = .null ∨ ∃ names : List String, v = .arr (names.map .str)

/-- A definition whose fields are an object and whose lists are lists of names, as far as
they are given. -/
structure EntityDefinition.WellFormed (d : EntityDefinition) : Prop where
  indexFields : d.indexFields = .null ∨ ∃ fields, d.indexFields = .obj fields
  display : d.display.IsNames
  content : d.content.IsNames

/-- The fields that are merged have names. -/
def MergedText.IsNamed (m : MergedText) : Prop :=
  ∃ display content : List String, m.display = display.map .str ∧ m.content = content.map .str

theorem orStandard_eq_ok {v : Json} (h : v.IsNames) (standard : List String) :
    ∃ names : List String,
      EntityDefinition.orStandard v (standard.map .str) = .ok (names.map .str) := by
  rcases h with rfl | ⟨names, rfl⟩
  · exact ⟨standard, rfl⟩
  · rcases names with _ | ⟨name, rest⟩
    · exact ⟨standard, rfl⟩
    · exact ⟨name :: rest, rfl⟩

theorem EntityDefinition.WellFormed.schema {d : EntityDefinition} (h : d.WellFormed) :
    ∃ schema, d.schema = .ok schema ∧ schema.merged.IsNamed := by
  have hfields : ∃ fields, d.indexFields.asFields = .ok fields := by
    rcases h.indexFields with hnull | ⟨fields, hobj⟩
    · rw [hnull]
      exact ⟨[], rfl⟩
    · rw [hobj]
      rcases fields with _ | ⟨field, rest⟩
      · exact ⟨[], rfl⟩
      · exact ⟨field :: rest, rfl⟩
  obtain ⟨extraFields, hextra⟩ := hfields
  obtain ⟨display, hdisplay⟩ :=
    orStandard_eq_ok h.display ["title", "name", "firstName", "lastName"]
  obtain ⟨content, hcontent⟩ := orStandard_eq_ok h.content
    ["summary", "introduction", "abstract", "description", "note", "content", "tags"]
  refine ⟨{ extraFields, merged := { display := display.map .str, content := content.map .str } },
    ?_, display, content, rfl, rfl⟩
  have hstandard : MergedText.standard =
    { display := ["title", "name", "firstName", "lastName"].map .str
      content :=
        ["summary", "introduction", "abstract", "description", "note", "content", "tags"].map
          .str } := rfl
  unfold EntityDefinition.schema
  rw [hextra, ok_bind, hstandard, hdisplay, ok_bind, hcontent, ok_bind]
  rfl

theorem mem_of_chosen? {rows : List EntityDefinition} {d : EntityDefinition}
    (h : EntityDefinition.chosen? rows = some d) : d ∈ rows := by
  unfold EntityDefinition.chosen? at h
  rcases Option.or_eq_some_iff.mp h with hfound | ⟨-, hhead⟩
  · exact List.mem_of_find?_eq_some hfound
  · exact List.mem_of_head? hhead

theorem choose_eq_ok {rows : List EntityDefinition} (wellFormed : ∀ d ∈ rows, d.WellFormed) :
    ∃ schema, EntityDefinition.choose rows = .ok schema ∧ schema.merged.IsNamed := by
  unfold EntityDefinition.choose
  rcases hchosen : EntityDefinition.chosen? rows with _ | d
  · exact ⟨{}, rfl, _, _, rfl, rfl⟩
  · exact (wellFormed d (mem_of_chosen? hchosen)).schema

/-- The rows for an entity are looked up without fail, for a row that is stored. -/
theorem rowsFor_eq_ok (definitions : List EntityDefinition) {r : Record} (hr : r.Sound) :
    ∃ rows, EntityDefinition.rowsFor definitions (.str r.solutionId) (.str r.entityName)
      (.ofText? r.entityType) = .ok rows ∧ ∀ d ∈ rows, d ∈ definitions := by
  have htype : ∃ subtype, Record.columnText (Json.ofText? r.entityType).orNull = .ok subtype := by
    unfold Json.orNull
    split
    · exact ⟨_, hr.entityType⟩
    · exact ⟨none, rfl⟩
  obtain ⟨subtype, hsubtype⟩ := htype
  unfold EntityDefinition.rowsFor
  rw [hr.solutionId, ok_bind, hr.entityName, ok_bind, hsubtype, ok_bind]
  exact ⟨_, rfl, fun d hd => (List.mem_filter.mp hd).1⟩

/-- Where all definitions are well formed, every row has a schema. -/
theorem schemaFor_eq_ok {definitions : List EntityDefinition}
    (wellFormed : ∀ d ∈ definitions, d.WellFormed) {r : Record} (hr : r.Sound) :
    ∃ schema, schemaFor definitions (.str r.solutionId) (.str r.entityName)
      (.ofText? r.entityType) = .ok schema ∧ schema.merged.IsNamed := by
  obtain ⟨rows, hrows, hmem⟩ := rowsFor_eq_ok definitions hr
  obtain ⟨schema, hschema, hnamed⟩ := choose_eq_ok fun d hd => wellFormed d (hmem d hd)
  refine ⟨schema, ?_, hnamed⟩
  unfold schemaFor
  rw [hrows]
  exact mapError_eq_ok.mpr hschema

namespace Record

/-- A row that cannot be reindexed: a field that its schema merges has a text with a
decimal character reference of too many digits. -/
def IsSpoiled (definitions : List EntityDefinition) (r : Record) : Prop :=
  ∃ schema, schemaFor definitions (.str r.solutionId) (.str r.entityName) (.ofText? r.entityType) =
      .ok schema ∧
    ∃ name : String, (.str name ∈ schema.merged.display ∨ .str name ∈ schema.merged.content) ∧
      PlainText.spoils (r.document.look name) = true

/-- Where the definitions are well formed, every row can be rewritten but those that are
spoiled. -/
theorem rewritten?_isSome_iff {definitions : List EntityDefinition}
    (wellFormed : ∀ d ∈ definitions, d.WellFormed) (now : Timestamp) {r : Record} (hr : r.Sound) :
    (r.rewritten? definitions now).isSome = true ↔ ¬ r.IsSpoiled definitions := by
  obtain ⟨schema, hschema, display, content, hdisplay, hcontent⟩ := schemaFor_eq_ok wellFormed hr
  have hmerged : (r.rewritten? definitions now).isSome =
      ((schema.merged.displayText r.document).isOk && (schema.merged.contentText r.document).isOk) := by
    unfold rewritten?
    rw [hschema]
    dsimp only
    unfold Reindex.refreshed
    rcases schema.merged.displayText r.document with b | text
    · rfl
    · rcases schema.merged.contentText r.document with b | more
      · rfl
      · rfl
  have hspoiled : r.IsSpoiled definitions ↔ ∃ name, (name ∈ display ∨ name ∈ content) ∧
      PlainText.spoils (r.document.look name) = true := by
    have hmem (name : String) (names : List String) : .str name ∈ names.map Json.str ↔
        name ∈ names := by
      simp
    constructor
    · rintro ⟨other, hother, name, hname, hspoils⟩
      rw [hschema] at hother
      cases hother
      rw [hdisplay, hcontent, hmem, hmem] at hname
      exact ⟨name, hname, hspoils⟩
    · rintro ⟨name, hname, hspoils⟩
      refine ⟨schema, hschema, name, ?_, hspoils⟩
      rwa [hdisplay, hcontent, hmem, hmem]
  unfold MergedText.displayText MergedText.contentText at hmerged
  rw [hmerged, hspoiled, hdisplay, hcontent, PlainText.merge_isOk, PlainText.merge_isOk]
  simp only [Bool.and_eq_true, List.all_eq_true, Bool.not_eq_true', not_exists, not_and,
    Bool.not_eq_true]
  constructor
  · rintro ⟨hfirst, hsecond⟩ name (hname | hname)
    · exact hfirst name hname
    · exact hsecond name hname
  · intro h
    exact ⟨fun name hname => h name (Or.inl hname), fun name hname => h name (Or.inr hname)⟩

end Record

end TenantSearch
