-- Indices that were made sure of are at rest: while nothing is changed about them, making sure
-- of them again leaves the engine as it is, and comes to the same end.
import TenantSearch.Proofs.EnsuredTargets
import TenantSearch.Proofs.PlacedCopies

namespace TenantSearch

open Service

/-! ## Rest -/

namespace World

/-- The indices are good, all of them or up to one that cannot be created. -/
inductive AtRest (w : World) (solutionId : Json) : List IndexTarget → Prop
  | all : AtRest w solutionId []
  | good {target : IndexTarget} {rest : List IndexTarget} (spared : w.spares target.name = true)
      (others : AtRest w solutionId rest) : AtRest w solutionId (target :: rest)
  | stuck {target : IndexTarget} {rest : List IndexTarget} {f : Failure}
      (unspared : w.spares target.name = false)
      (shapeless : descriptorFor w.definitions solutionId target = .error f) :
      AtRest w solutionId (target :: rest)

variable {w w' : World} {solutionId : Json} {targets : List IndexTarget}

/-- Rest depends on the definitions and on which of the indices are good. -/
theorem AtRest.congr (h : w.AtRest solutionId targets) (hdefinitions : w'.definitions = w.definitions)
    (hspares : ∀ t ∈ targets, w'.spares t.name = w.spares t.name) :
    w'.AtRest solutionId targets := by
  induction h with
  | all => exact .all
  | good spared _ ih =>
    exact .good ((hspares _ List.mem_cons_self).trans spared)
      (ih fun t ht => hspares t (List.mem_cons_of_mem _ ht))
  | stuck unspared shapeless =>
    exact .stuck ((hspares _ List.mem_cons_self).trans unspared) (hdefinitions ▸ shapeless)

end World

/-! ## Making sure of indices once -/

/-- An index that was made sure of is good; one that could not be is not, and cannot be
created. -/
theorem ensureOne_rests {w : World} (hcalm : w.Calm) (solutionId : Json) (target : IndexTarget) :
    (Index.ensureOne solutionId false target).Leads w fun r w' => match r with
      | .ok _ => w'.spares target.name = true
      | .error _ => w'.spares target.name = false ∧
          ∃ f, descriptorFor w'.definitions solutionId target = .error f := by
  have hsettled : (Index.ensureOne solutionId false target).Leads w fun r w' =>
      Settled w'.memory target.name r :=
    Told.leads ((ensureOne_told solutionId false target).mono fun _ _ _ h => h.settled)
  refine ((ensureOne_leads_unforced hcalm solutionId target).and hsettled).mono ?_
  rintro r w' ⟨⟨hbeside, hcases⟩, hsettled⟩
  rcases r with f | created
  · obtain ⟨hunknown, -⟩ := hsettled
    rcases hcases with ⟨-, hok, -⟩ | ⟨hunspared, made, hmade, hrecreation⟩
    · cases hok
    · cases hrecreation with
      | done => cases hmade
      | @refused f _ descriptor engine =>
        unfold World.spares at hunspared ⊢
        rw [Bool.or_eq_false_iff] at hunspared
        rw [hunknown, engine, hunspared.2, hbeside.definitions]
        exact ⟨rfl, f, descriptor⟩
  · have hknown : w'.memory.knows target.name = true := hsettled
    unfold World.spares
    rw [hknown]
    rfl

/-- Indices that were made sure of are at rest, and good if that worked out. -/
theorem ensureEach_rests (solutionId : Json) {targets : List IndexTarget}
    (hnames : (targets.map (·.name)).Nodup) {w : World} (hcalm : w.Calm) :
    (Index.ensureEach solutionId false targets).Leads w fun r w' =>
      w'.AtRest solutionId targets ∧
        ((∃ created, r = .ok created) ↔ ∀ t ∈ targets, w'.spares t.name = true) := by
  induction targets generalizing w with
  | nil => exact ⟨.all, fun _ t ht => absurd ht List.not_mem_nil, fun _ => ⟨[], rfl⟩⟩
  | cons target rest ih =>
    obtain ⟨hhead, hrest⟩ := List.nodup_cons.mp hnames
    unfold Index.ensureEach
    rw [leads_bind]
    refine ((ensureOne_rests hcalm solutionId target).and
      (ensureOne_tends hcalm solutionId target)).mono ?_
    rintro r w₁ ⟨hfirst, htended, -⟩
    rcases r with f | created
    · obtain ⟨hunspared, f, hshapeless⟩ := hfirst
      refine ⟨.stuck hunspared hshapeless, iff_of_false not_exists_ok fun hall => ?_⟩
      rw [hall target List.mem_cons_self] at hunspared
      cases hunspared
    · dsimp only
      rw [leads_bind]
      have hcalm₁ := htended.beside.calm hcalm
      refine ((ih hrest hcalm₁).and (ensureEach_tends solutionId hrest hcalm₁)).mono ?_
      rintro r w₂ ⟨⟨hatRest, hok⟩, htended₂, -⟩
      have hkept : w₂.spares target.name = true :=
        (World.spares_of_trace (htended₂.others _ hhead)).trans hfirst
      have hall : (∀ t ∈ target :: rest, w₂.spares t.name = true) ↔ ∃ others, r = .ok others := by
        rw [List.forall_mem_cons, and_iff_right hkept, hok]
      rcases r with f | others
      · exact ⟨.good hkept hatRest, iff_of_false not_exists_ok fun h => not_exists_ok (hall.mp h)⟩
      · exact ⟨.good hkept hatRest, fun _ => hall.mpr ⟨others, rfl⟩, fun _ => ⟨_, rfl⟩⟩

/-! ## Making sure of them again -/

/-- Indices at rest are left as they are. -/
theorem ensureEach_of_rest {solutionId : Json} {targets : List IndexTarget}
    (hnames : (targets.map (·.name)).Nodup) {w : World} (hcalm : w.Calm)
    (hrest : w.AtRest solutionId targets) :
    (Index.ensureEach solutionId false targets).Leads w fun r w' =>
      w.Beside w' ∧ w'.engine = w.engine ∧
        ((∃ created, r = .ok created) ↔ ∀ t ∈ targets, w.spares t.name = true) := by
  induction targets generalizing w with
  | nil => exact ⟨.refl w, rfl, fun _ t ht => absurd ht List.not_mem_nil, fun _ => ⟨[], rfl⟩⟩
  | cons target rest ih =>
    obtain ⟨hhead, hothers⟩ := List.nodup_cons.mp hnames
    unfold Index.ensureEach
    rw [leads_bind]
    refine ((ensureOne_leads_unforced hcalm solutionId target).and
      (ensureOne_tends hcalm solutionId target)).mono ?_
    rintro r w₁ ⟨⟨hbeside, hcases⟩, htended, -⟩
    cases hrest with
    | stuck unspared shapeless =>
      rcases hcases with ⟨spared, -⟩ | ⟨-, made, rfl, hrecreation⟩
      · rw [unspared] at spared
        cases spared
      · cases hrecreation with
        | done descriptor =>
          rw [shapeless] at descriptor
          cases descriptor
        | refused _ engine =>
          refine ⟨hbeside, engine, iff_of_false not_exists_ok fun hall => ?_⟩
          rw [hall target List.mem_cons_self] at unspared
          cases unspared
    | good spared others =>
      rcases hcases with ⟨-, rfl, hengine, -⟩ | ⟨unspared, -⟩
      · dsimp only
        rw [leads_bind]
        have hsame : ∀ t ∈ rest, w₁.spares t.name = w.spares t.name := fun t ht =>
          World.spares_of_trace (htended.others _ fun heq =>
            hhead (List.mem_map.mpr ⟨t, ht, List.mem_singleton.mp heq⟩))
        refine (ih hothers (hbeside.calm hcalm) (others.congr hbeside.definitions hsame)).mono ?_
        rintro r w₂ ⟨hbeside₂, hengine₂, hok⟩
        have hall : (∀ t ∈ target :: rest, w.spares t.name = true) ↔ ∃ others, r = .ok others := by
          rw [List.forall_mem_cons, and_iff_right spared, hok]
          exact forall₂_congr fun t ht => by rw [hsame t ht]
        have hboth := hbeside.trans hbeside₂
        have hengines := hengine₂.trans hengine
        rcases r with f | others
        · exact ⟨hboth, hengines, iff_of_false not_exists_ok fun h => not_exists_ok (hall.mp h)⟩
        · exact ⟨hboth, hengines, fun _ => hall.mpr ⟨others, rfl⟩, fun _ => ⟨_, rfl⟩⟩
      · rw [spared] at unspared
        cases unspared

/-! ## Indexing a row -/

/-- Putting a document changes nothing that is remembered. -/
theorem putEach_remembers (fields : Fields) (targets : List IndexTarget) (w : World) :
    (Indexing.putEach fields targets).Leads w fun _ w' => w'.memory = w.memory := by
  have hput (index : String) (w : World) :
      (Engine.putDocument index fields).Leads w fun _ w' => w'.memory = w.memory := by
    unfold Engine.putDocument
    split
    · next id _ =>
      refine (leads_call _ _ _ _).mpr ?_
      obtain ⟨_, _, _, hframe⟩ := World.answerCall_frame w (.engine (.put index id fields))
      rw [hframe]
      rfl
    · rfl
  induction targets generalizing w with
  | nil => rfl
  | cons target rest ih =>
    unfold Indexing.putEach
    rw [leads_bind]
    refine (hput target.name w).mono ?_
    rintro r w₁ hmemory
    rcases r with f | _
    · exact hmemory
    · dsimp only
      rw [leads_bind]
      refine (ih w₁).mono ?_
      rintro r w₂ hmemory₂
      rcases r with f | names
      · exact hmemory₂.trans hmemory
      · exact hmemory₂.trans hmemory

namespace Record

/-- What the indices of a row are for. -/
def targets (r : Record) : List IndexTarget :=
  IndexTarget.writeTargets r.entityName (.ofText? r.entityType)

/-- A row that search takes: its entity has a name and is not reserved. -/
def IsSearched (r : Record) : Prop :=
  isBlankText r.entityName = false ∧ r.entityName ∉ reservedEntities

instance (r : Record) : Decidable r.IsSearched := inferInstanceAs (Decidable (_ ∧ _))

end Record

/-- A document of a row that carries its texts is put into the indices of the row as it is, once
they were made sure of. -/
theorem upsert_leads_carried {w : World} {r : Record} (hsound : r.Sound) {document : Fields}
    (hnamed : r.IsNamedBy document) (htexts : Projection.hasTexts document = true)
    (post : World → Prop) :
    (Indexing.upsert document).Leads w (fun _ w' => post w') ↔
      if r.IsSearched then
        (do
          let _ ← Index.ensureEach (.str r.solutionId) false r.targets
          Indexing.putEach (Projection.strip document) r.targets : Service (List String)).Leads w
            fun _ w' => post w'
      else post w := by
  have hsubject : Indexing.subject document = .ok ⟨.str r.entityName, .str r.id⟩ := by
    unfold Indexing.subject
    dsimp only
    rw [hnamed.entityName, hnamed.id, given_str hsound.hasEntity, given_str hsound.hasId]
    rfl
  have hreserved : Indexing.isReserved (.str r.entityName) =
      .ok (reservedEntities.contains r.entityName) := rfl
  unfold Indexing.upsert
  rw [leads_bind, leads_orFail, hsubject]
  dsimp only
  rw [leads_bind, leads_orBroken, hreserved]
  dsimp only [Except.mapError]
  by_cases hmem : r.entityName ∈ reservedEntities
  · have hcontains : reservedEntities.contains r.entityName = true := List.contains_iff_mem.mpr hmem
    rw [if_pos hcontains, if_neg fun h : r.IsSearched => h.2 hmem]
    exact Iff.rfl
  · have hcontains : ¬ reservedEntities.contains r.entityName = true := mt List.contains_iff_mem.mp hmem
    have hcompleted : Indexing.completed document (.str r.entityName)
        (document.look "entityType").orNull = pure document := if_pos htexts
    rw [if_neg hcontains, hcompleted, pure_bind]
    unfold Index.ensure
    by_cases hblank : isBlankText r.entityName = true
    · have hname := entityNameOf_of_blank (Or.inr ⟨r.entityName, rfl, hblank⟩)
      rw [if_neg fun h : r.IsSearched => Bool.eq_false_iff.mp h.1 hblank, hname]
      exact Iff.rfl
    · have hblank' : isBlankText r.entityName = false := Bool.eq_false_iff.mpr hblank
      have hname : orFail (.ok r.entityName) = pure r.entityName := rfl
      rw [if_pos ⟨hblank', hmem⟩, entityNameOf_of_not_blank hblank', hname]
      simp only [pure_bind, writeTargets_orNull]
      rw [hnamed.entityType, hnamed.solutionId]
      exact Iff.rfl

/-- What becomes of a copy when a document takes the place of another one. -/
def Recopied (document document' : Fields) (copy copy' : Option Fields) : Prop :=
  copy' = copy ∨
    copy = some (Projection.strip document) ∧ copy' = some (Projection.strip document')

/-- A row that was indexed is indexed again while nothing has changed about the indices. They stay
as they are, and of the copies only those of the row are made anew. -/
theorem upsert_again {w : World} (hcalm : w.Calm) {r : Record} (hsound : r.Sound)
    {document : Fields} (hnamed : r.IsNamedBy document)
    (htexts : Projection.hasTexts document = true) :
    (Indexing.upsert document).Leads w fun _ w₁ => w.Beside w₁ ∧
      ∀ v document', w₁.SameIndices v → r.IsNamedBy document' →
        Projection.hasTexts document' = true → (Indexing.upsert document').Leads v fun _ v₁ =>
          v.Beside v₁ ∧ (∀ index, v₁.engine.mapping? index = w₁.engine.mapping? index) ∧
            ∀ index key, Recopied document document' (w₁.engine.copy? index key)
              (v₁.engine.copy? index key) := by
  refine (upsert_leads_carried hsound hnamed htexts _).mpr ?_
  by_cases hsearched : r.IsSearched
  · rw [if_pos hsearched]
    have hnames : (r.targets.map (·.name)).Nodup := nodup_writeTargets _ _
    have hid {d : Fields} (hd : r.IsNamedBy d) :
        (Projection.strip d).get? "id" = some (.str r.id) := by
      rw [get?_strip (by decide), ← hd.id]
      exact Fields.get?_of_given (hd.id ▸ given_str hsound.hasId)
    rw [leads_bind]
    refine ((ensureEach_rests _ hnames hcalm).and (ensureEach_tends _ hnames hcalm)).mono ?_
    rintro made w₁ ⟨⟨hrest, hok⟩, htended, -⟩
    have hcalm₁ := htended.beside.calm hcalm
    have hsecond {v : World} (hv : v.Calm) (hdefinitions : v.definitions = w₁.definitions)
        (hspares : ∀ index, v.spares index = w₁.spares index) :
        (Index.ensureEach (.str r.solutionId) false r.targets).Leads v fun again v₁ =>
          v.Beside v₁ ∧ v₁.engine = v.engine ∧
            ((∃ created, again = .ok created) ↔ ∃ created, made = .ok created) := by
      simpa only [hspares, ← hok] using
        ensureEach_of_rest hnames hv (hrest.congr hdefinitions fun t _ => hspares t.name)
    rcases made with f | created
    · refine ⟨htended.beside, fun v document' hsame hnamed' htexts' => ?_⟩
      refine (upsert_leads_carried hsound hnamed' htexts' _).mpr ?_
      rw [if_pos hsearched, leads_bind]
      refine (hsecond (hsame.plans.trans hcalm₁) hsame.definitions hsame.spares).mono ?_
      rintro again v₁ ⟨hbeside, hengine, hagain⟩
      rcases again with f | created
      · have hsameEngine := hengine.trans hsame.engine
        exact ⟨hbeside, fun index => by rw [hsameEngine],
          fun index key => Or.inl (by rw [hsameEngine])⟩
      · exact absurd (hagain.mp ⟨created, rfl⟩) not_exists_ok
    · refine ((putEach_leads (hid hnamed) r.targets hcalm₁).and
        (putEach_remembers _ r.targets w₁)).mono ?_
      rintro _ w₂ ⟨⟨hput, -⟩, hmemory⟩
      refine ⟨htended.beside.trans hput.beside, fun v document' hsame hnamed' htexts' => ?_⟩
      have hspares (index : String) : v.spares index = w₁.spares index := by
        rw [hsame.spares]
        unfold World.spares
        rw [hmemory, hput.mappings]
      have hcalm₂ : v.Calm := hsame.plans.trans (hput.beside.calm hcalm₁)
      refine (upsert_leads_carried hsound hnamed' htexts' _).mpr ?_
      rw [if_pos hsearched, leads_bind]
      refine (hsecond hcalm₂ (hsame.definitions.trans hput.beside.definitions) hspares).mono ?_
      rintro again v₁ ⟨hbeside, hengine, hagain⟩
      obtain ⟨names, rfl⟩ := hagain.mpr ⟨created, rfl⟩
      have hsameEngine := hengine.trans hsame.engine
      refine (putEach_leads (hid hnamed') r.targets (hbeside.calm hcalm₂)).mono ?_
      rintro _ v₂ ⟨hput', -⟩
      refine ⟨hbeside.trans hput'.beside,
        fun index => (hput'.mappings index).trans (by rw [hsameEngine]), fun index key => ?_⟩
      rw [hput'.copies, hsameEngine]
      split
      · next hat => exact Or.inr ⟨(hput.copies index key).trans (if_pos hat), rfl⟩
      · exact Or.inl rfl
  · rw [if_neg hsearched]
    refine ⟨.refl w, fun v document' hsame hnamed' htexts' => ?_⟩
    refine (upsert_leads_carried hsound hnamed' htexts' _).mpr ?_
    rw [if_neg hsearched]
    exact ⟨.refl v, fun index => by rw [hsame.engine], fun index key => Or.inl (by rw [hsame.engine])⟩

end TenantSearch
