-- The merged text of a document: the plain texts of its fields with single spaces between, cut at
-- the most characters. It is collapsed unless it was cut right after a space.
import TenantSearch.Proofs.PlainTexts

namespace TenantSearch

namespace PlainText

/-- The plain texts of the named fields. -/
def fieldTexts (document : Fields) (names : List String) : Except Breakage (List String) :=
  names.mapM fun name => ofValue (document.look name)

/-- The fields have their plain texts unless one of them is unreadable. -/
theorem fieldTexts_cases (document : Fields) (names : List String) :
    (∃ name ∈ names, IsUnreadable (document.look name)) ∧
        fieldTexts document names = .error .badNumber ∨
      (∀ name ∈ names, ¬ IsUnreadable (document.look name)) ∧
        ∃ texts, fieldTexts document names = .ok texts ∧
          ∀ text ∈ texts, IsCollapsed text.toList := by
  unfold fieldTexts
  induction names with
  | nil =>
    exact Or.inr ⟨fun _ h => absurd h List.not_mem_nil, [], rfl,
      fun _ h => absurd h List.not_mem_nil⟩
  | cons name rest ih =>
    rw [List.mapM_cons]
    rcases ofValue_cases (document.look name) with ⟨hbad, hvalue⟩ | ⟨hgood, text, hvalue, htext⟩
    · rw [hvalue]
      exact Or.inl ⟨⟨name, List.mem_cons_self, hbad⟩, rfl⟩
    · rw [hvalue]
      rcases ih with ⟨⟨other, hother, hbad⟩, herror⟩ | ⟨hothers, texts, htexts, hall⟩
      · rw [herror]
        exact Or.inl ⟨⟨other, List.mem_cons_of_mem _ hother, hbad⟩, rfl⟩
      · rw [htexts]
        exact Or.inr ⟨List.forall_mem_cons.mpr ⟨hgood, hothers⟩, text :: texts, rfl,
          List.forall_mem_cons.mpr ⟨htext, hall⟩⟩

theorem merge_eq (document : Fields) (names : List String) :
    merge document (names.map .str) = (fieldTexts document names).map fun texts =>
      String.ofList ((join texts).toList.take mostCharacters) := by
  have hfields : (names.map Json.str).mapM (ofField document) = fieldTexts document names := by
    unfold fieldTexts
    induction names with
    | nil => rfl
    | cons name rest ih =>
      rw [List.map_cons, List.mapM_cons, List.mapM_cons, ih]
      rfl
  unfold merge
  rw [hfields]

/-- A text is merged just when no field is unreadable. It is the beginning of the plain texts with
single spaces between, all of it up to the most characters, and it is collapsed just when the last
of so many characters is no space. -/
theorem a_merged_text_is_collapsed_iff (document : Fields) (names : List String) :
    (∃ name ∈ names, IsUnreadable (document.look name)) ∧
        merge document (names.map .str) = .error .badNumber ∨
      (∀ name ∈ names, ¬ IsUnreadable (document.look name)) ∧
        ∃ texts text, fieldTexts document names = .ok texts ∧
          merge document (names.map .str) = .ok text ∧
          text.toList <+: (join texts).toList ∧
          text.length = min 300000 (join texts).length ∧
          (collapse text = text ↔ (join texts).toList[299999]? ≠ some ' ') := by
  rw [merge_eq]
  rcases fieldTexts_cases document names with ⟨hbad, herror⟩ | ⟨hgood, texts, htexts, hall⟩
  · rw [herror]
    exact Or.inl ⟨hbad, rfl⟩
  · refine Or.inr ⟨hgood, texts, _, htexts, by rw [htexts]; rfl, ?_, ?_, ?_⟩
    · rw [String.toList_ofList]
      exact List.take_prefix _ _
    · rw [String.length_ofList, List.length_take, String.length_toList]
      rfl
    · rw [collapse_eq_self_iff, String.toList_ofList]
      exact (isCollapsed_join hall).take_iff 299999

/-- A long word and another one behind it. -/
def twoWords (word : List Char) : Fields := [("a", .str (String.ofList word)), ("b", .str "y")]

/-- The cut may fall right behind the space after a word. -/
theorem merge_twoWords {word : List Char} (hword : ∀ c ∈ word, c = 'x')
    (hlength : word.length + 1 = mostCharacters) :
    merge (twoWords word) (["a", "b"].map .str) = .ok (String.ofList (word ++ [' '])) := by
  have hplain : ofText (String.ofList word) = .ok (String.ofList word) := by
    refine ofText_eq_self ?_ ?_ ?_
    · rw [String.toList_ofList]
      exact isCollapsed_of_no_blank fun c hc => (hword c hc).symm ▸ (by decide)
    · rw [String.toList_ofList]
      exact not_hasTag_of_not_mem fun hmem => absurd (hword _ hmem) (by decide)
    · rw [String.toList_ofList]
      exact fun hmem => absurd (hword _ hmem) (by decide)
  have hother : ofText "y" = .ok "y" :=
    ofText_eq_self (isCollapsed_of_no_blank (no_blank_of_any (by decide)))
      (not_hasTag_of_not_mem (by decide)) (by decide)
  have htexts : fieldTexts (twoWords word) ["a", "b"] = .ok [String.ofList word, "y"] := by
    have hfirst : ofValue ((twoWords word).look "a") = ofText (String.ofList word) := rfl
    have hsecond : ofValue ((twoWords word).look "b") = ofText "y" := rfl
    unfold fieldTexts
    rw [List.mapM_cons, List.mapM_cons, hfirst, hplain, hsecond, hother]
    rfl
  have hne : (String.ofList word).isEmpty = false := by
    rw [Bool.eq_false_iff, Ne, String.isEmpty_iff, String.ofList_eq_empty_iff]
    rintro rfl
    cases hlength
  have hjoin : (join [String.ofList word, "y"]).toList = word ++ [' '] ++ ['y'] := by
    have hgiven : ("y" : String).isEmpty = false := by decide
    unfold join
    rw [List.filter_cons_of_pos (by rw [hne]; rfl), List.filter_cons_of_pos (by rw [hgiven]; rfl)]
    simp
  rw [merge_eq, htexts]
  refine congrArg Except.ok (congrArg String.ofList ?_)
  rw [hjoin, ← hlength]
  exact List.take_left' (by rw [List.length_append, List.length_singleton])

/-- A merged text that ends in a space and so is not collapsed: of two words, the first of which
leaves room for one more character. -/
theorem a_merged_text_ends_in_a_space :
    ∃ text, merge (twoWords (List.replicate 299999 'x')) [.str "a", .str "b"] = .ok text ∧
      text.toList.getLast? = some ' ' ∧ collapse text ≠ text := by
  have hmerged : merge (twoWords (List.replicate 299999 'x')) (["a", "b"].map .str) = _ :=
    merge_twoWords (fun c hc => List.eq_of_mem_replicate hc)
      (congrArg (· + 1) List.length_replicate)
  refine ⟨_, hmerged, ?_, fun hsame => ?_⟩
  · rw [String.toList_ofList, List.getLast?_concat]
  · have hlast := (collapse_eq_self_iff.mp hsame).last
    rw [String.toList_ofList, List.getLast?_concat] at hlast
    exact hlast rfl

end PlainText

end TenantSearch
