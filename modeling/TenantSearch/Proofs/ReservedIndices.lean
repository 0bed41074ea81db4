-- Which documents reach the indices of reserved entities. Only an exact
-- spelling is recognised as reserved when documents are written, while the
-- entity of an index is read without its subtype and in lower case.
import TenantSearch.Proofs.CallEffects
import TenantSearch.Proofs.ColumnTexts
import TenantSearch.Proofs.DocumentWrites
import TenantSearch.Proofs.IndexNames
import TenantSearch.Proofs.RecordTable

namespace TenantSearch

/-! ## Reserved indices and disguised names -/

/-- An index that the search policy counts to a reserved entity. -/
def IsReservedIndex (index : String) : Prop := IndexTarget.entityOf index ∈ ["domain", "secret"]

/-- An entity name that is not reserved as it is spelled, but whose indices
are. -/
def IsDisguised (name : String) : Prop := name ∉ reservedEntities ∧ IsReservedIndex name

/-- A document under a disguised name. -/
def HasDisguisedName (document : Fields) : Prop :=
  ∃ name, document.look "entityName" = .str name ∧ IsDisguised name

instance (index : String) : Decidable (IsReservedIndex index) :=
  inferInstanceAs (Decidable (_ ∈ _))

/-! ## The names of what is written -/

theorem entityOf_subtype (entityName subtype : String) :
    IndexTarget.entityOf (entityName ++ "_" ++ subtype) = IndexTarget.entityOf entityName := by
  have hchars : (entityName ++ "_" ++ subtype).toList = entityName.toList ++ '_' :: subtype.toList := by
    simp
  rw [← String.toList_inj, IndexTarget.toList_entityOf, IndexTarget.toList_entityOf]
  unfold IndexTarget.entityPart
  rw [hchars]
  rcases eq_or_append_of_char '_' entityName.toList with h | ⟨a, b, hab, ha⟩
  · rw [takeWhile_ne_append _ h, takeWhile_ne_of_not_mem h]
  · rw [hab, List.append_assoc, List.cons_append, takeWhile_ne_append _ ha,
      takeWhile_ne_append _ ha]

/-- All indices of a document belong to its entity. -/
theorem entityOf_writeTarget {entityName : String} {entityType : Json} {t : IndexTarget}
    (h : t ∈ IndexTarget.writeTargets entityName entityType) :
    IndexTarget.entityOf t.name = IndexTarget.entityOf entityName := by
  unfold IndexTarget.writeTargets at h
  split at h
  · next hgiven =>
    rw [List.mem_cons, List.mem_singleton] at h
    rcases h with rfl | rfl
    · exact IndexTarget.entityOf_lower entityName
    · unfold IndexTarget.name
      rw [if_pos hgiven, IndexTarget.entityOf_lower, entityOf_subtype]
  · rw [List.mem_singleton.mp h]
    exact IndexTarget.entityOf_lower entityName

/-- A document is in a reserved index just when its name is disguised: names
that are reserved as they are spelled go nowhere. -/
theorem IsPlaced.isReservedIndex_iff {document : Fields} {index : String} {id : Json}
    {fields : Fields} (h : IsPlaced document index id fields) :
    IsReservedIndex index ↔ HasDisguisedName fields := by
  obtain ⟨name, hname, hunreserved, t, ht, rfl⟩ := h.target
  have hsame : IsReservedIndex t.name ↔ IsReservedIndex name := by
    unfold IsReservedIndex
    rw [entityOf_writeTarget ht]
  unfold HasDisguisedName IsDisguised
  rw [h.projection.look (by decide), hname, hsame]
  constructor
  · intro hreserved
    exact ⟨name, rfl, hunreserved, hreserved⟩
  · rintro ⟨other, hother, -, hreserved⟩
    cases hother
    exact hreserved

theorem IsPlaced.hasDisguisedName_iff {document : Fields} {index : String} {id : Json}
    {fields : Fields} (h : IsPlaced document index id fields) :
    HasDisguisedName fields ↔ HasDisguisedName document := by
  unfold HasDisguisedName
  rw [h.projection.look (by decide)]

/-! ## The names of what is stored -/

theorem lowerBetween_of_isDigit {c : Char} (h : c.isDigit = true) (before after : List Char) :
    lowerBetween before c after = [c] := by
  have hcode : 48 ≤ c.toNat ∧ c.toNat ≤ 57 := by simpa [Char.isDigit, UInt32.le_iff_toNat_le] using h
  have hcapital : ¬ ('A' ≤ c ∧ c ≤ 'Z') := by
    rw [ascii_capital_iff]
    omega
  unfold lowerBetween lowerChar
  rw [if_neg (by omega), if_pos (by omega), if_neg hcapital]

/-- The letters that tell the reserved entities from a text that writes a
number. -/
theorem not_mem_lowerBetween_of_isNumberMark {c : Char} (h : isNumberMark c = true) {x : Char}
    (hx : x ∈ ['c', 'd']) (before after : List Char) : x ∉ lowerBetween before c after := by
  have hletters : (['c', 'd'].all fun x => !x.isDigit) = true := by decide
  have hmarks : (['-', '+', '.', 'e', 'I', 'n', 'f'].all fun c =>
      c.toNat != 0x3A3 && ['c', 'd'].all fun x => !(lowerChar c).contains x) = true := by decide
  unfold isNumberMark at h
  rw [Bool.or_eq_true, List.contains_iff_mem] at h
  rcases h with hdigit | hmark
  · rw [lowerBetween_of_isDigit hdigit, List.mem_singleton]
    rintro rfl
    have hletter := List.all_eq_true.mp hletters x hx
    rw [hdigit] at hletter
    cases hletter
  · have hboth := List.all_eq_true.mp hmarks c hmark
    rw [Bool.and_eq_true, bne_iff_ne] at hboth
    unfold lowerBetween
    rw [if_neg hboth.1]
    simpa using List.all_eq_true.mp hboth.2 x hx

theorem not_mem_lowerFrom_of_isNumberText {cs : List Char} (h : IsNumberText cs) {x : Char}
    (hx : x ∈ ['c', 'd']) (before : List Char) : x ∉ lowerFrom before [] cs := by
  induction cs generalizing before with
  | nil => simp [lowerFrom]
  | cons c rest ih =>
    rw [lowerFrom_cons, List.mem_append]
    rintro (hmem | hmem)
    · exact not_mem_lowerBetween_of_isNumberMark (h c List.mem_cons_self) hx _ _ hmem
    · exact ih (fun c hc => h c (List.mem_cons_of_mem _ hc)) _ hmem

/-- A number is not the name of a reserved entity. -/
theorem not_isReservedIndex_of_isNumberText {s : String} (h : IsNumberText s.toList) :
    ¬ IsReservedIndex s := by
  have hpart : IsNumberText (IndexTarget.entityPart s) := fun c hc =>
    h c (List.takeWhile_subset _ hc)
  have hletters (x : Char) (hx : x ∈ ['c', 'd']) : x ∉ (IndexTarget.entityOf s).toList := by
    rw [IndexTarget.toList_entityOf]
    exact not_mem_lowerFrom_of_isNumberText hpart hx []
  unfold IsReservedIndex
  rw [List.mem_cons, List.mem_singleton]
  rintro (heq | heq)
  · exact hletters 'd' (by decide) (heq ▸ by decide)
  · exact hletters 'c' (by decide) (heq ▸ by decide)

theorem IsRowOf.not_isDisguised {id : Json} {document : Fields} {stamp : Option Timestamp}
    {r : Record} (h : IsRowOf id document stamp r) (hdocument : ¬ HasDisguisedName document) :
    ¬ IsDisguised r.entityName := by
  intro hdisguised
  rcases columnText_eq_ok h.entityName with hname | hnumber
  · exact hdocument ⟨r.entityName, hname, hdisguised⟩
  · exact not_isReservedIndex_of_isNumberText hnumber hdisguised.2

theorem not_hasDisguisedName_document {r : Record} (h : ¬ IsDisguised r.entityName) :
    ¬ HasDisguisedName r.document := by
  rintro ⟨name, hname, hdisguised⟩
  have hcolumn : ("entityName", .str r.entityName) ∈ r.columns := by simp [Record.columns]
  rw [look_document_column r hcolumn] at hname
  cases hname
  exact h hdisguised

/-! ## What is put where -/

/-- A document that is put goes to a reserved index just when its name is
disguised. -/
def ReservedByDisguise : Call → Prop
  | .engine (.put index _ fields) => IsReservedIndex index ↔ HasDisguisedName fields
  | _ => True

theorem reservedByDisguise_admits :
    (Contract.only ReservedByDisguise).Admits fun _ => True where
  free := by
    refine ⟨fun c hc => ?_, fun _ _ => trivial⟩
    cases c with
    | engine c => cases c <;> trivial
    | queue c => trivial
    | database c => cases c <;> trivial
  put _ _ _ _ _ h := h.isReservedIndex_iff
  save _ _ _ _ _ _ := trivial
  saved _ _ _ _ _ _ _ := trivial
  page _ _ _ _ _ _ _ _ _ := trivial

/-- No row is of an entity with a disguised name. -/
def NoneDisguised (rows : List Record) : Prop := ∀ r ∈ rows, ¬ IsDisguised r.entityName

/-- Two documents are of the same entity. -/
def SameEntity (document document' : Fields) : Prop :=
  document'.look "entityName" = document.look "entityName"

/-- Nothing is written under a disguised name, and nothing goes to a reserved
index; nor are there such names among the rows. -/
def withoutDisguise : Contract where
  allows
    | .engine (.put index _ _) => ¬ IsReservedIndex index
    | .database (.commit _ document _) => ¬ HasDisguisedName document
    | _ => True
  promises
    | .database (.page _), rows => NoneDisguised rows
    | .database (.commit _ document _), saved => SameEntity document saved
    | _, _ => True

theorem withoutDisguise_admits :
    withoutDisguise.Admits fun document => ¬ HasDisguisedName document where
  free := by
    refine ⟨fun c hc => ?_, fun _ _ => trivial⟩
    cases c with
    | engine c => cases c <;> trivial
    | queue c => trivial
    | database c => cases c <;> trivial
  put document _ _ _ hdocument h := fun hreserved =>
    hdocument (h.hasDisguisedName_iff.mp (h.isReservedIndex_iff.mp hreserved))
  save _ _ _ hdocument _ _ := hdocument
  saved found document stamp saved hdocument _ hsaved := by
    have hsame : SameEntity document saved := hsaved
    unfold HasDisguisedName
    rw [hsame]
    exact hdocument
  page p rows hrows r hr merged now refreshed h := by
    have hname := not_hasDisguisedName_document (hrows r hr)
    unfold HasDisguisedName
    rw [look_refreshed h (by decide)]
    exact hname

theorem sameEntity_of_commit {table table' : RecordTable} {found : Option Record}
    {document saved : Fields} {stamp : Option Timestamp}
    (h : table.commit found document stamp = .ok (saved, table')) : SameEntity document saved := by
  unfold SameEntity
  have hsaved : (Record.savedDocument document stamp).look "entityName" =
      document.look "entityName" := look_savedDocument document stamp (by decide)
  rcases RecordTable.commit_eq_ok h with ⟨_, -, -, -, -, rfl⟩ | ⟨_, _, _, -, -, -, -, rfl⟩
  · exact hsaved
  · rw [Fields.look_set, if_neg (by decide)]
    exact hsaved

/-- A commit brings no disguised name into the table but that of its document. -/
theorem NoneDisguised.commit {table table' : RecordTable} {found : Option Record}
    {document saved : Fields} {stamp : Option Timestamp} (hrows : NoneDisguised table)
    (hdocument : ¬ HasDisguisedName document)
    (h : table.commit found document stamp = .ok (saved, table')) : NoneDisguised table' := by
  intro r hr
  rcases RecordTable.commit_eq_ok h with
    ⟨new, -, hnew, -, rfl, -⟩ | ⟨found, new, row, -, hnew, hrow, rfl, -⟩
  · rcases RecordTable.mem_put hr with rfl | hr
    · exact hnew.not_isDisguised hdocument
    · exact hrows r hr
  · rcases RecordTable.mem_put hr with rfl | hr
    · unfold Record.revised
      dsimp only
      split
      · exact hrows row (RecordTable.mem_of_find?_eq_some hrow).1
      · exact hnew.not_isDisguised hdocument
    · exact hrows r hr

theorem withoutDisguise_upheld (w₀ : World) :
    withoutDisguise.Upholds fun w => World.Made withoutDisguise.allows w₀ w ∧
      NoneDisguised w.records where
  call w c hw hc := by
    refine ⟨fun v hv => ?_, hw.1.answerCall hc, ?_⟩
    · cases c with
      | engine c => trivial
      | queue c => trivial
      | database c =>
        cases c with
        | page p => exact fun r hr => hw.2 r (RecordTable.mem_of_mem_page (World.page_of_answer hv) hr)
        | commit found document stamp =>
          obtain ⟨records, hcommit⟩ := World.saved_of_answer hv
          exact sameEntity_of_commit hcommit
        | _ => trivial
    · rcases World.records_answerCall w c with hsame | ⟨_, _, _, _, rfl, hcommit⟩
      · rw [hsame]
        exact hw.2
      · exact hw.2.commit hc hcommit
  memory _ _ h := ⟨⟨h.1.logged, h.1.all⟩, h.2⟩
  supply _ _ h := ⟨⟨h.1.logged, h.1.all⟩, h.2⟩

/-! ## Reserved indices -/

/-- Over every sequence of calls, under whatever outages: a document goes to
the index of a reserved entity just when its entity name is disguised, that is,
spelled otherwise than the reserved name; and where no document handed in and
no row has such a name, reserved indices stay as they are. -/
theorem documents_reach_reserved_indices_by_disguise_only
    (calls : List (Circumstances × IndexingCall)) (w : World) :
    (∀ index id fields,
      Call.engine (.put index id fields) ∈ w.callsSince (IndexingCall.afterAll w calls) →
        (IsReservedIndex index ↔ HasDisguisedName fields)) ∧
    ((∀ c ∈ calls, ∀ document, c.2.document? = some document → ¬ HasDisguisedName document) →
      NoneDisguised w.records → ∀ index id fields,
        Call.engine (.put index id fields) ∈ w.callsSince (IndexingCall.afterAll w calls) →
          ¬ IsReservedIndex index) := by
  constructor
  · intro index id fields hput
    have hmade : World.Made ReservedByDisguise w (IndexingCall.afterAll w calls) :=
      IndexingCall.afterAll_induct (World.Made _ w) (fun _ _ h => ⟨h.logged, h.all⟩)
        (fun c _ _ h => IndexingCall.after_of_admits reservedByDisguise_admits
          (World.made_upheld _ w) (fun _ _ => trivial) h)
        (World.Made.refl _ w)
    exact hmade.all _ hput
  · intro hcalls hrecords index id fields hput
    have hfact : World.Made withoutDisguise.allows w (IndexingCall.afterAll w calls) ∧
        NoneDisguised (IndexingCall.afterAll w calls).records :=
      IndexingCall.afterAll_induct
        (fun w' => World.Made withoutDisguise.allows w w' ∧ NoneDisguised w'.records)
        (fun _ _ h => ⟨⟨h.1.logged, h.1.all⟩, h.2⟩)
        (fun c hc _ h => IndexingCall.after_of_admits withoutDisguise_admits
          (withoutDisguise_upheld w) (hcalls c hc) h)
        ⟨World.Made.refl _ w, hrecords⟩
    exact hfact.1.all _ hput

/-- An event. -/
def concert : Fields :=
  [("id", .str "e-1"), ("entityName", .str "Event"), ("entityType", .str "Concert"),
    ("solutionId", .str "sol-1")]

/-- An event that is written, indexed once more and reindexed. -/
def concertCalls : List (Circumstances × IndexingCall) :=
  [(morning, .write concert), (morning, .upsert concert),
    (morning, .reindex (.str "sol-1") .null (.int 100) (some ⟨1⟩))]

theorem a_concert_stays_out_of_reserved_indices :
    (∀ c ∈ concertCalls, ∀ document, c.2.document? = some document → ¬ HasDisguisedName document) ∧
      NoneDisguised [] ∧
      (((World.empty morning).callsSince
        (IndexingCall.afterAll (.empty morning) concertCalls)).filterMap Call.putIndex? =
          ["event", "event_concert", "event", "event_concert", "event", "event_concert"]) ∧
      ∀ index id fields, Call.engine (.put index id fields) ∈
        (World.empty morning).callsSince (IndexingCall.afterAll (.empty morning) concertCalls) →
          ¬ IsReservedIndex index := by
  have hplain : ¬ HasDisguisedName concert := by
    rintro ⟨name, hname, -, hreserved⟩
    cases hname
    revert hreserved
    decide
  have hcalls : ∀ c ∈ concertCalls, ∀ document, c.2.document? = some document →
      ¬ HasDisguisedName document := by
    intro c hc document hdocument
    simp only [concertCalls, List.mem_cons, List.not_mem_nil, or_false] at hc
    rcases hc with rfl | rfl | rfl
    · cases hdocument
      exact hplain
    · cases hdocument
      exact hplain
    · cases hdocument
  have hnone : NoneDisguised [] := fun _ h => absurd h List.not_mem_nil
  exact ⟨hcalls, hnone, by decide +kernel,
    (documents_reach_reserved_indices_by_disguise_only concertCalls (.empty morning)).2
      hcalls hnone⟩

/-- A secret under the name of its entity in small letters. -/
def smallSecret : Fields := [("id", .str "e-1"), ("entityName", .str "secret")]

/-- A small letter is enough to bring a secret into search. -/
theorem a_small_letter_puts_a_secret_into_search :
    ∃ index id fields, Call.engine (.put index id fields) ∈
        (World.empty morning).callsSince
          (IndexingCall.afterAll (.empty morning) [(morning, .upsert smallSecret)]) ∧
      IsReservedIndex index := by
  have hputs : ((World.empty morning).callsSince (IndexingCall.afterAll (.empty morning)
      [(morning, .upsert smallSecret)])).filterMap Call.putIndex? = ["secret"] := by decide +kernel
  have hmem : "secret" ∈ ((World.empty morning).callsSince (IndexingCall.afterAll (.empty morning)
      [(morning, .upsert smallSecret)])).filterMap Call.putIndex? := by
    rw [hputs]
    exact List.mem_singleton_self _
  obtain ⟨c, hc, hindex⟩ := List.mem_filterMap.mp hmem
  obtain ⟨id, fields, rfl⟩ := Call.putIndex?_eq_some.mp hindex
  exact ⟨"secret", id, fields, hc, by decide⟩

end TenantSearch
