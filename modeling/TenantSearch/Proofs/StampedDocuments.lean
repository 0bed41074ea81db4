-- Documents that reindexing stamped, and the rows that they are stored as. What stamping
-- sets it finds set the next time, and a stamped document is never only alike to what is
-- stored.
import TenantSearch.Proofs.RecordTable

namespace TenantSearch

/-! ## Documents that were stamped -/

namespace Reindex

/-- What stamping sets: the texts, and the owner for a modifier that is not given. -/
structure IsSettled (document : Fields) (display content : String) : Prop where
  display : document.Holds "searchDisplay" (.str display)
  content : document.Holds "searchContent" (.str content)
  modifier : (document.look "modifiedBy").given = true ∨
    document.Holds "modifiedBy" (document.look "ownedBy")

theorem holds_texts_stamped (display content : String) (now : Timestamp) (document : Fields) :
    (stamped display content now document).Holds "searchDisplay" (.str display) ∧
      (stamped display content now document).Holds "searchContent" (.str content) := by
  have hdisplay : ((document.set "searchDisplay" (.str display)).set "searchContent"
      (.str content)).Holds "searchDisplay" (.str display) :=
    (Fields.holds_set _ _ _).set fun h => absurd h (by decide)
  have hcontent : ((document.set "searchDisplay" (.str display)).set "searchContent"
      (.str content)).Holds "searchContent" (.str content) := Fields.holds_set _ _ _
  unfold stamped
  dsimp only
  split
  · exact ⟨hdisplay.set fun h => absurd h (by decide), hcontent.set fun h => absurd h (by decide)⟩
  · exact ⟨(hdisplay.set fun h => absurd h (by decide)).set fun h => absurd h (by decide),
      (hcontent.set fun h => absurd h (by decide)).set fun h => absurd h (by decide)⟩

/-- A modifier that is given stays; the owner takes the place of any other. -/
theorem modifier_stamped (display content : String) (now : Timestamp) (document : Fields) :
    (document.look "modifiedBy").given = true ∧
        (stamped display content now document).look "modifiedBy" = document.look "modifiedBy" ∨
      (stamped display content now document).Holds "modifiedBy" (document.look "ownedBy") := by
  have htexts {name : String} (hdisplay : name ≠ "searchDisplay") (hcontent : name ≠ "searchContent") :
      ((document.set "searchDisplay" (.str display)).set "searchContent" (.str content)).look name =
        document.look name := by
    rw [Fields.look_set, if_neg hcontent, Fields.look_set, if_neg hdisplay]
  unfold stamped
  dsimp only
  rw [htexts (by decide) (by decide), htexts (by decide) (by decide)]
  by_cases hgiven : (document.look "modifiedBy").given = true
  · refine Or.inl ⟨hgiven, ?_⟩
    rw [if_pos hgiven, Fields.look_set, if_neg (by decide), htexts (by decide) (by decide)]
  · rw [if_neg hgiven]
    exact Or.inr ((Fields.holds_set _ _ _).set fun h => absurd h (by decide))

theorem isSettled_stamped (display content : String) (now : Timestamp) (document : Fields) :
    IsSettled (stamped display content now document) display content where
  display := (holds_texts_stamped display content now document).1
  content := (holds_texts_stamped display content now document).2
  modifier := by
    rcases modifier_stamped display content now document with ⟨hgiven, hsame⟩ | hheld
    · exact Or.inl (hsame ▸ hgiven)
    · have howner : (stamped display content now document).look "ownedBy" =
          document.look "ownedBy" :=
        Fields.look_eq_of_get? (get?_stamped display content now document (by decide))
      exact Or.inr (howner ▸ hheld)

/-- What was stamped is stamped again with another stamp and nothing else. -/
theorem IsSettled.stamped_eq {document : Fields} {display content : String}
    (h : IsSettled document display content) (now : Timestamp) :
    stamped display content now document = document.set reindexedField (.str now.isoUtc) := by
  unfold stamped
  dsimp only
  rw [h.display.set_eq, h.content.set_eq]
  rcases h.modifier with hgiven | hheld
  · rw [if_pos hgiven]
  · rw [hheld.set_eq, ite_self]

end Reindex

/-! ## Bodies -/

namespace Record

theorem bodyOf_bodyOf (document : Fields) : bodyOf (bodyOf document) = bodyOf document :=
  Fields.without_without document _

/-- What is put together gives its body back. -/
theorem bodyOf_assemble {columns : Fields} (hcolumns : ∀ c ∈ columns, c.1 ∈ promotedFields)
    (body : Fields) (stamp : Option Timestamp) :
    bodyOf (assemble body columns stamp) = bodyOf body := by
  have hstamp : ∀ f ∈ stampField stamp, f.1 ∈ reindexedField :: promotedFields := by
    intro f hf
    cases stamp with
    | none => exact absurd hf List.not_mem_nil
    | some t => exact List.mem_singleton.mp hf ▸ List.mem_cons_self
  unfold assemble bodyOf
  rw [Fields.without_setAll hstamp,
    Fields.without_setAll fun c hc => List.mem_cons_of_mem _ (hcolumns c hc)]

theorem map_columns (r : Record) : r.columns.map (·.1) = promotedFields := rfl

theorem columns_promoted (r : Record) : ∀ c ∈ r.columns, c.1 ∈ promotedFields :=
  fun _ hc => r.map_columns ▸ List.mem_map_of_mem hc

/-- What a body holds, the row put together holds. -/
theorem holds_document {r : Record} {document : Fields} (hbody : r.body = bodyOf document)
    {name : String} {v : Json} (h : document.Holds name v)
    (hname : name ∉ reindexedField :: promotedFields) : r.document.Holds name v := by
  obtain ⟨hstamp, hpromoted⟩ := not_or.mp (mt List.mem_cons.mpr hname)
  unfold Record.document assemble
  rw [hbody]
  refine ((h.without hname).setAll fun c hc hcolumn => ?_).setAll fun f hf hfield => ?_
  · exact absurd (hcolumn ▸ r.columns_promoted c hc) hpromoted
  · cases hreindexed : r.reindexedOn with
    | none =>
      rw [hreindexed] at hf
      exact absurd hf List.not_mem_nil
    | some t =>
      rw [hreindexed] at hf
      obtain rfl := List.mem_singleton.mp hf
      exact absurd hfield.symm hstamp

end Record

/-! ## Bodies that are alike -/

/-- What fields hold, alike fields hold, if it is alike to itself alone. -/
theorem Fields.Holds.of_alike {fields fields' : Fields} {name : String} {v : Json}
    (h : fields.Holds name v) (halike : (Json.obj fields).Alike (.obj fields'))
    (alone : ∀ w : Json, w.Alike v → w = v) : fields'.Holds name v where
  has := by
    have hunder := congrArg Option.isSome (halike.under name)
    rw [Option.isSome_map, Option.isSome_map] at hunder
    exact hunder.symm.trans h.has
  only f hf hname := by
    obtain ⟨other, hother, hsame, hlike⟩ := halike.symm.exists_mem hf
    exact alone _ (h.only other hother (hsame.trans hname) ▸ hlike)

namespace Record

/-- A body that is alike to one without the fields of the columns and of the stamp has none of
them either. -/
theorem bodyOf_eq_of_alike {body document : Fields}
    (h : (Json.obj (bodyOf document)).Alike (.obj body)) : bodyOf body = body := by
  refine List.filter_eq_self.mpr fun field hfield => ?_
  obtain ⟨other, hother, hname, -⟩ := h.symm.exists_mem hfield
  rw [← hname]
  exact (List.mem_filter.mp hother).2

/-- A stamped document that is alike to the row that it was read from stores the very same body:
what stamping sets are texts, or the owner, which is a text or null. -/
theorem body_of_alike_stamped {r : Record} {display content : String} {now : Timestamp}
    (h : (Json.obj (bodyOf (Reindex.stamped display content now r.document))).Alike (.obj r.body)) :
    bodyOf (Reindex.stamped display content now r.document) = r.body := by
  have htidy := bodyOf_eq_of_alike h
  have hheld {name : String} {v : Json}
      (hset : (Reindex.stamped display content now r.document).Holds name v)
      (alone : ∀ w : Json, w.Alike v → w = v) (hname : name ∉ reindexedField :: promotedFields) :
      r.document.Holds name v :=
    holds_document htidy.symm ((hset.without hname).of_alike h alone) hname
  have htexts := Reindex.holds_texts_stamped display content now r.document
  have howner : r.document.look "ownedBy" = .ofText? r.ownedBy :=
    look_document_column r (by simp [columns])
  have hsettled : Reindex.IsSettled r.document display content := by
    refine ⟨hheld htexts.1 (fun _ => Json.alike_str_iff.mp) (by decide),
      hheld htexts.2 (fun _ => Json.alike_str_iff.mp) (by decide), ?_⟩
    rcases Reindex.modifier_stamped display content now r.document with ⟨hgiven, -⟩ | hmodifier
    · exact Or.inl hgiven
    · refine Or.inr (hheld hmodifier (fun _ => ?_) (by decide))
      rw [howner]
      exact Json.alike_ofText?_iff.mp
  rw [hsettled.stamped_eq]
  unfold bodyOf
  rw [Fields.without_set List.mem_cons_self]
  exact (bodyOf_assemble r.columns_promoted _ _).trans htidy

end Record

end TenantSearch
