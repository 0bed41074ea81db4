-- Plain texts are collapsed, and a text without references loses all its tags and stays as it
-- is when it is made plain once more. What has no plain text is a reference of too many digits.
import TenantSearch.Proofs.CollapsedTexts
import TenantSearch.Proofs.SpoiledTexts

namespace TenantSearch

namespace PlainText

/-! ## Tags -/

/-- A tag is in front: `<`, one or more characters other than `>`, and then `>`. -/
def OpensTag (cs : List Char) : Prop :=
  ∃ body rest, cs = '<' :: (body ++ '>' :: rest) ∧ body ≠ [] ∧ '>' ∉ body

/-- A tag is somewhere. -/
def HasTag (cs : List Char) : Prop := ∃ before rest, cs = before ++ rest ∧ OpensTag rest

/-- A tag is opened where a `>` follows, but not at once. -/
theorem opensTag_cons_iff {c : Char} {cs : List Char} :
    OpensTag (c :: cs) ↔ c = '<' ∧ '>' ∈ cs ∧ cs.head? ≠ some '>' := by
  constructor
  · rintro ⟨body, rest, heq, hne, hbody⟩
    obtain ⟨rfl, rfl⟩ := List.cons.inj heq
    refine ⟨rfl, List.mem_append_right _ List.mem_cons_self, fun hfirst => ?_⟩
    rw [List.head?_append_of_ne_nil _ hne] at hfirst
    exact hbody (List.mem_of_mem_head? hfirst)
  · rintro ⟨rfl, hmem, hfirst⟩
    obtain ⟨body, rest, rfl, hbody⟩ := List.eq_append_cons_of_mem hmem
    refine ⟨body, rest, rfl, ?_, hbody⟩
    rintro rfl
    exact hfirst rfl

theorem hasTag_cons_iff {c : Char} {cs : List Char} :
    HasTag (c :: cs) ↔ OpensTag (c :: cs) ∨ HasTag cs := by
  constructor
  · rintro ⟨before, rest, heq, hopens⟩
    rcases before with _ | ⟨d, before⟩
    · exact Or.inl (heq ▸ hopens)
    · obtain ⟨rfl, rfl⟩ := List.cons.inj heq
      exact Or.inr ⟨before, rest, rfl, hopens⟩
  · rintro (hopens | ⟨before, rest, rfl, hopens⟩)
    · exact ⟨[], _, rfl, hopens⟩
    · exact ⟨c :: before, rest, rfl, hopens⟩

theorem not_hasTag_of_not_mem {cs : List Char} (h : '<' ∉ cs) : ¬ HasTag cs := by
  rintro ⟨before, rest, rfl, body, more, rfl, -⟩
  exact h (List.mem_append_right _ List.mem_cons_self)

/-! ## Stripping -/

/-- The text with its tags replaced by spaces: the leftmost tag first, and the others in what
follows it. -/
inductive Stripped : List Char → List Char → Prop
  | nil : Stripped [] []
  | tag {body rest out : List Char} (given : body ≠ []) (within : '>' ∉ body)
      (others : Stripped rest out) : Stripped ('<' :: (body ++ '>' :: rest)) (' ' :: out)
  | char {c : Char} {rest out : List Char} (plain : ¬ OpensTag (c :: rest))
      (others : Stripped rest out) : Stripped (c :: rest) (c :: out)

/-- Within a tag all is passed over up to its end. -/
theorem stripFrom_within {body : List Char} (h : '>' ∉ body) (ends : Nat) (done rest : List Char) :
    stripFrom true ends done (body ++ '>' :: rest) = stripFrom false (ends - 1) done rest := by
  induction body with
  | nil => simp [stripFrom]
  | cons c more ih =>
    obtain ⟨hc, hmore⟩ := List.ne_and_not_mem_of_not_mem_cons h
    rw [List.cons_append, stripFrom]
    simp [ih hmore, Ne.symm hc]

/-- Whether a tag is opened is seen by the number of `>` that are ahead. -/
theorem opensTag_iff_test {c : Char} {rest : List Char} : OpensTag (c :: rest) ↔
    (c = '<' && (c :: rest).count '>' != 0 && rest.head? != some '>') = true := by
  rw [opensTag_cons_iff, Bool.and_eq_true, Bool.and_eq_true, decide_eq_true_iff, bne_iff_ne,
    bne_iff_ne, and_assoc]
  refine and_congr_right fun hc => and_congr_left fun _ => ?_
  rw [hc, Ne, List.count_eq_zero, Decidable.not_not, List.mem_cons]
  exact (or_iff_right (by decide)).symm

/-- From any place on, with the number of `>` ahead, the tags are replaced. The induction is on the
length of what is ahead, since a tag is passed over as a whole. -/
theorem exists_stripFrom (cs done : List Char) :
    ∃ out, stripFrom false (cs.count '>') done cs = done.reverse ++ out ∧ Stripped cs out := by
  induction hsize : cs.length using Nat.strong_induction_on generalizing cs done with
  | _ n ih =>
    rcases cs with _ | ⟨c, rest⟩
    · exact ⟨[], by simp [stripFrom], .nil⟩
    · subst hsize
      rw [stripFrom, if_neg Bool.false_ne_true]
      by_cases hopens : OpensTag (c :: rest)
      · rw [if_pos (opensTag_iff_test.mp hopens)]
        obtain ⟨body, after, heq, hgiven, hbody⟩ := hopens
        obtain ⟨rfl, rfl⟩ := List.cons.inj heq
        have hcount : ('<' :: (body ++ '>' :: after)).count '>' = after.count '>' + 1 := by
          simp [List.count_eq_zero.mpr hbody]
        obtain ⟨out, hout, hstripped⟩ := ih after.length (by simp; omega) after (' ' :: done) rfl
        refine ⟨' ' :: out, ?_, .tag hgiven hbody hstripped⟩
        rw [hcount, stripFrom_within hbody, Nat.add_sub_cancel, hout, List.reverse_cons,
          List.append_assoc, List.singleton_append]
      · rw [if_neg (mt opensTag_iff_test.mpr hopens)]
        obtain ⟨out, hout, hstripped⟩ := ih rest.length (by simp) rest (c :: done) rfl
        refine ⟨c :: out, ?_, .char hopens hstripped⟩
        have hcount : (if c = '>' then (c :: rest).count '>' - 1 else (c :: rest).count '>') =
            rest.count '>' := by
          split
          · next hc => simp [hc]
          · next hc => simp [hc]
        rw [hcount, hout, List.reverse_cons, List.append_assoc, List.singleton_append]

/-- Stripping replaces the tags. -/
theorem stripped_stripTags (cs : List Char) : Stripped cs (stripTags cs) := by
  obtain ⟨out, hout, hstripped⟩ := exists_stripFrom cs []
  unfold stripTags
  rw [hout]
  exact hstripped

namespace Stripped

variable {cs out : List Char}

theorem mem (h : Stripped cs out) {c : Char} (hc : c ∈ out) : c = ' ' ∨ c ∈ cs := by
  induction h with
  | nil => exact absurd hc List.not_mem_nil
  | tag _ _ _ ih =>
    rcases List.mem_cons.mp hc with rfl | hc
    · exact Or.inl rfl
    · exact (ih hc).imp_right fun h => by simp [h]
  | char _ _ ih =>
    rcases List.mem_cons.mp hc with rfl | hc
    · exact Or.inr List.mem_cons_self
    · exact (ih hc).imp_right (List.mem_cons_of_mem _)

/-- A `>` that stands in front stays in front. -/
theorem head (h : Stripped cs out) (hfirst : cs.head? = some '>') : out.head? = some '>' := by
  cases h with
  | nil => cases hfirst
  | tag => cases hfirst
  | char => exact hfirst

/-- No tag is left, and none comes up by what stripping puts together. -/
theorem not_hasTag (h : Stripped cs out) : ¬ HasTag out := by
  induction h with
  | nil => exact not_hasTag_of_not_mem List.not_mem_nil
  | tag _ _ _ ih =>
    rw [hasTag_cons_iff, opensTag_cons_iff]
    rintro (⟨hspace, -⟩ | hothers)
    · cases hspace
    · exact ih hothers
  | char plain others ih =>
    rw [hasTag_cons_iff, opensTag_cons_iff]
    rintro (⟨rfl, hend, hfirst⟩ | hothers)
    · refine plain (opensTag_cons_iff.mpr ⟨rfl, ?_, fun hhead => hfirst (others.head hhead)⟩)
      exact (others.mem hend).resolve_left (by decide)
    · exact ih hothers

theorem eq_self (h : Stripped cs out) (hplain : ¬ HasTag cs) : out = cs := by
  induction h with
  | nil => rfl
  | tag given within _ _ => exact absurd ⟨[], _, rfl, _, _, rfl, given, within⟩ hplain
  | char _ _ ih => rw [ih fun htag => hplain (hasTag_cons_iff.mpr (Or.inr htag))]

end Stripped

/-! ## Collapsing makes no tag -/

/-- A tag stays one with more in it, but for another `>`. -/
theorem HasTag.of_sublist {cs ds : List Char} (h : cs.Sublist ds)
    (hends : cs.count '>' = ds.count '>') (htag : HasTag cs) : HasTag ds := by
  induction h with
  | slnil => exact htag
  | @cons cs ds d hsub ih =>
    have hle := hsub.count_le '>'
    rw [List.count_cons] at hends
    exact hasTag_cons_iff.mpr (Or.inr (ih (by omega) htag))
  | @cons_cons cs ds c hsub ih =>
    rw [List.count_cons, List.count_cons, Nat.add_right_cancel_iff] at hends
    rcases hasTag_cons_iff.mp htag with hopens | hothers
    · obtain ⟨rfl, hmem, hfirst⟩ := opensTag_cons_iff.mp hopens
      refine hasTag_cons_iff.mpr (Or.inl (opensTag_cons_iff.mpr ⟨rfl, hsub.subset hmem, ?_⟩))
      intro hhead
      obtain ⟨rest, rfl⟩ := List.head?_eq_some_iff.mp hhead
      cases hsub with
      | cons _ hrest =>
        have hle := hrest.count_le '>'
        rw [List.count_cons_self] at hends
        omega
      | cons_cons _ _ => exact hfirst rfl
    · exact hasTag_cons_iff.mpr (Or.inr (ih hends hothers))

theorem HasTag.of_map_asSpace {cs : List Char} (h : HasTag (cs.map asSpace)) : HasTag cs := by
  have hend : isBlank '>' = false := by decide
  have hstart : isBlank '<' = false := by decide
  induction cs with
  | nil => exact h
  | cons c rest ih =>
    rw [List.map_cons, hasTag_cons_iff, opensTag_cons_iff, asSpace_eq_iff hstart] at h
    rw [hasTag_cons_iff, opensTag_cons_iff]
    refine h.imp (fun ⟨hc, hmem, hfirst⟩ => ⟨hc, ?_, fun hhead => hfirst ?_⟩) ih
    · obtain ⟨d, hd, heq⟩ := List.mem_map.mp hmem
      rwa [← (asSpace_eq_iff hend).mp heq]
    · rw [List.head?_map, hhead]
      rfl

theorem not_hasTag_collapse {s : String} (h : ¬ HasTag s.toList) :
    ¬ HasTag (collapse s).toList := by
  intro htag
  refine h (HasTag.of_map_asSpace (htag.of_sublist (collapse_sublist s) ?_))
  rw [count_collapse (by decide), count_map_asSpace (by decide)]

/-! ## Plain texts -/

theorem not_mem_stripTags {c : Char} {cs : List Char} (hspace : c ≠ ' ') (h : c ∉ cs) :
    c ∉ stripTags cs :=
  fun hmem => h (((stripped_stripTags cs).mem hmem).resolve_left hspace)

/-- A text without references is stripped and collapsed. -/
theorem ofText_of_no_reference {s : String} (h : '&' ∉ s.toList) :
    ofText s = .ok (collapse (String.ofList (stripTags s.toList))) := by
  have hplain : (String.ofList (stripTags s.toList)).contains '&' = false := by
    rw [String.contains_char_eq, String.toList_ofList]
    exact decide_eq_false (not_mem_stripTags (by decide) h)
  unfold ofText unescape?
  rw [hplain]
  rfl

/-- A collapsed text without tags and references is its own plain text. -/
theorem ofText_eq_self {s : String} (hcollapsed : IsCollapsed s.toList) (htag : ¬ HasTag s.toList)
    (hreference : '&' ∉ s.toList) : ofText s = .ok s := by
  rw [ofText_of_no_reference hreference, (stripped_stripTags s.toList).eq_self htag,
    String.ofList_toList, collapse_eq_self_iff.mpr hcollapsed]

/-- Making a text without references plain leaves no tag, and nothing to do a second time. -/
theorem ofText_settles {s : String} (h : '&' ∉ s.toList) :
    ∃ text, ofText s = .ok text ∧ ¬ HasTag text.toList ∧ ofText text = .ok text := by
  have hstripped := stripped_stripTags s.toList
  have htag : ¬ HasTag (collapse (String.ofList (stripTags s.toList))).toList :=
    not_hasTag_collapse (by rw [String.toList_ofList]; exact hstripped.not_hasTag)
  have hreference : '&' ∉ (collapse (String.ofList (stripTags s.toList))).toList := by
    rw [← List.count_eq_zero, count_collapse (by decide), String.toList_ofList,
      List.count_eq_zero]
    exact not_mem_stripTags (by decide) h
  exact ⟨_, ofText_of_no_reference h, htag,
    ofText_eq_self (isCollapsed_collapse _) htag hreference⟩

/-- The text of a double has no blank. -/
theorem not_isBlank_text (d : Double) : ∀ c ∈ d.text.toList, isBlank c = false := by
  have hsigned {s : String} (h : ∀ c ∈ s.toList, isBlank c = false) :
      ∀ c ∈ ((if d.negative then "-" else "") ++ s).toList, isBlank c = false := by
    rw [String.toList_append, List.forall_mem_append]
    refine ⟨?_, h⟩
    split
    · exact no_blank_of_any (by decide)
    · exact no_blank_of_any (by decide)
  unfold Double.text
  dsimp only
  split
  · exact no_blank_of_any (by decide)
  · split
    · exact hsigned (no_blank_of_any (by decide))
    · split
      · exact hsigned (no_blank_of_any (by decide))
      · exact hsigned (isNumberText_decimal standardStyle d.shortest).not_isBlank

end PlainText

/-! ## What has no plain text -/

namespace CharacterReference

/-- A decimal reference of too many digits is somewhere. -/
def HasLongReference (cs : List Char) : Prop :=
  ∃ before digits rest, cs = before ++ '&' :: '#' :: (digits ++ rest) ∧
    (∀ c ∈ digits, (asciiDigit? c).isSome = true) ∧ mostDigits < digits.length

theorem hasOversized_cons {c : Char} {cs : List Char} (h : hasOversized cs = true) :
    hasOversized (c :: cs) = true := by
  unfold hasOversized
  split
  · next heq => cases heq
  · next rest heq =>
    obtain ⟨-, rfl⟩ := List.cons.inj heq
    rw [hasOversized] at h
    · rw [h, Bool.or_true]
    · rintro _ hmark
      cases hmark
  · next d rest _ heq =>
    obtain ⟨rfl, rfl⟩ := List.cons.inj heq
    exact h

theorem hasOversized_iff {cs : List Char} : hasOversized cs = true ↔ HasLongReference cs := by
  constructor
  · intro h
    fun_induction hasOversized cs with
    | case1 => cases h
    | case2 rest ih =>
      rcases (Bool.or_eq_true _ _).mp h with hmany | hlater
      · refine ⟨[], _, _, congrArg _ (congrArg _ List.takeWhile_append_dropWhile.symm), ?_,
          of_decide_eq_true hmany⟩
        exact fun c hc => List.all_eq_true.mp (List.all_takeWhile) c hc
      · obtain ⟨before, digits, more, rfl, hdigits, hmany⟩ := ih hlater
        exact ⟨'&' :: '#' :: before, digits, more, rfl, hdigits, hmany⟩
    | case3 c rest _ ih =>
      obtain ⟨before, digits, more, rfl, hdigits, hmany⟩ := ih h
      exact ⟨c :: before, digits, more, rfl, hdigits, hmany⟩
  · rintro ⟨before, digits, rest, rfl, hdigits, hmany⟩
    induction before with
    | nil =>
      rw [List.nil_append, hasOversized, List.takeWhile_append_of_pos hdigits, List.length_append,
        Bool.or_eq_true, decide_eq_true_iff]
      exact Or.inl (by omega)
    | cons c before ih => exact hasOversized_cons ih

end CharacterReference

namespace PlainText

/-- A text that stands in a value, by itself or in its lists. -/
inductive HasText : Json → String → Prop
  | self {s : String} : HasText (.str s) s
  | item {items : List Json} {v : Json} {s : String} (mem : v ∈ items) (inner : HasText v s) :
      HasText (.arr items) s

/-- A value with a text that has, once its tags are gone, a reference of too many digits. -/
def IsUnreadable (v : Json) : Prop :=
  ∃ s, HasText v s ∧ CharacterReference.HasLongReference (stripTags s.toList)

theorem isUnreadable_str_iff {s : String} :
    IsUnreadable (.str s) ↔ CharacterReference.HasLongReference (stripTags s.toList) := by
  constructor
  · rintro ⟨_, ⟨⟩, h⟩
    exact h
  · exact fun h => ⟨s, .self, h⟩

theorem isUnreadable_arr_iff {items : List Json} :
    IsUnreadable (.arr items) ↔ ∃ v ∈ items, IsUnreadable v := by
  constructor
  · rintro ⟨s, ⟨⟩ | ⟨hv, htext⟩, h⟩
    exact ⟨_, hv, s, htext, h⟩
  · rintro ⟨v, hv, s, htext, h⟩
    exact ⟨s, .item hv htext, h⟩

theorem ofText_cases (s : String) :
    IsUnreadable (.str s) ∧ ofText s = .error .badNumber ∨
      ¬ IsUnreadable (.str s) ∧ ∃ text, ofText s = .ok text ∧ IsCollapsed text.toList := by
  rw [isUnreadable_str_iff, ← CharacterReference.hasOversized_iff, ← unescape?_eq_none_iff]
  unfold ofText
  rcases unescape? (String.ofList (stripTags s.toList)) with _ | text
  · exact Or.inl ⟨rfl, rfl⟩
  · exact Or.inr ⟨(nomatch ·), _, rfl, isCollapsed_collapse text⟩

mutual

/-- A value without a reference of too many digits has a plain text, and only such a value; the
plain text is collapsed, however deep the lists of the value are. -/
theorem ofValue_cases (v : Json) :
    IsUnreadable v ∧ ofValue v = .error .badNumber ∨
      ¬ IsUnreadable v ∧ ∃ text, ofValue v = .ok text ∧ IsCollapsed text.toList := by
  cases v with
  | str s => exact ofText_cases s
  | arr items =>
    rw [isUnreadable_arr_iff, ofValue]
    rcases ofItems_cases items with ⟨hbad, hitems⟩ | ⟨hgood, texts, hitems, hall⟩
    · rw [hitems]
      exact Or.inl ⟨hbad, rfl⟩
    · rw [hitems]
      exact Or.inr ⟨fun ⟨v, hv, hbad⟩ => hgood v hv hbad, _, rfl, isCollapsed_join hall⟩
  | int n =>
    refine Or.inr ⟨?_, _, rfl, isCollapsed_of_no_blank (isNumberText_int n).not_isBlank⟩
    rintro ⟨_, ⟨⟩, -⟩
  | float d =>
    refine Or.inr ⟨?_, _, rfl, isCollapsed_of_no_blank (not_isBlank_text d)⟩
    rintro ⟨_, ⟨⟩, -⟩
  | null => exact Or.inr ⟨by rintro ⟨_, ⟨⟩, -⟩, _, rfl, .nil⟩
  | bool b => exact Or.inr ⟨by rintro ⟨_, ⟨⟩, -⟩, _, rfl, .nil⟩
  | obj fields => exact Or.inr ⟨by rintro ⟨_, ⟨⟩, -⟩, _, rfl, .nil⟩

theorem ofItems_cases (items : List Json) :
    (∃ v ∈ items, IsUnreadable v) ∧ ofItems items = .error .badNumber ∨
      (∀ v ∈ items, ¬ IsUnreadable v) ∧
        ∃ texts, ofItems items = .ok texts ∧ ∀ text ∈ texts, IsCollapsed text.toList := by
  cases items with
  | nil =>
    exact Or.inr ⟨fun _ h => absurd h List.not_mem_nil, [], rfl,
      fun _ h => absurd h List.not_mem_nil⟩
  | cons item rest =>
    rw [ofItems]
    rcases ofValue_cases item with ⟨hbad, hvalue⟩ | ⟨hgood, text, hvalue, htext⟩
    · rw [hvalue]
      exact Or.inl ⟨⟨item, List.mem_cons_self, hbad⟩, rfl⟩
    · rw [hvalue]
      rcases ofItems_cases rest with ⟨⟨v, hv, hbad⟩, herror⟩ | ⟨hothers, texts, htexts, hall⟩
      · rw [herror]
        exact Or.inl ⟨⟨v, List.mem_cons_of_mem _ hv, hbad⟩, rfl⟩
      · rw [htexts]
        exact Or.inr ⟨List.forall_mem_cons.mpr ⟨hgood, hothers⟩, text :: texts, rfl,
          List.forall_mem_cons.mpr ⟨htext, hall⟩⟩

end

/-- The test for spoiled values finds the unreadable ones. -/
theorem spoils_iff {v : Json} : spoils v = true ↔ IsUnreadable v := by
  have hok := ofValue_isOk v
  rcases ofValue_cases v with ⟨hbad, hvalue⟩ | ⟨hgood, text, hvalue, -⟩
  · rw [hvalue] at hok
    exact iff_of_true ((Bool.not_eq_false' _).mp hok.symm) hbad
  · rw [hvalue] at hok
    exact iff_of_false (Bool.eq_false_iff.mp ((Bool.not_eq_true' _).mp hok.symm)) hgood

/-- A value, however deep its lists are, has a collapsed plain text just when none of its texts
has a decimal reference of too many digits. The plain text of a text without references is the text
with its tags replaced by spaces, collapsed: it has no tag, and it is its own plain text. Whole
numbers are written out however long they are: the reader of JSON gives none that is too long. -/
theorem a_value_has_a_collapsed_plain_text_iff (v : Json) :
    ((∃ text, ofValue v = .ok text ∧ collapse text = text) ↔ ¬ IsUnreadable v) ∧
      (IsUnreadable v → ofValue v = .error .badNumber) ∧
      ∀ s, v = .str s → '&' ∉ s.toList →
        ∃ stripped text, Stripped s.toList stripped ∧ text = collapse (String.ofList stripped) ∧
          ofValue v = .ok text ∧ ¬ HasTag text.toList ∧ ofValue (.str text) = .ok text := by
  rw [← and_assoc]
  refine ⟨?_, ?_⟩
  · rcases ofValue_cases v with ⟨hunreadable, hvalue⟩ | ⟨hreadable, text, hvalue, hcollapsed⟩
    · refine ⟨iff_of_false ?_ (not_not_intro hunreadable), fun _ => hvalue⟩
      rintro ⟨text, htext, -⟩
      rw [hvalue] at htext
      cases htext
    · exact ⟨iff_of_true ⟨text, hvalue, collapse_eq_self_iff.mpr hcollapsed⟩ hreadable,
        fun hunreadable => absurd hunreadable hreadable⟩
  · rintro s rfl h
    obtain ⟨text, htext, htag, hagain⟩ := ofText_settles h
    have hstripped := ofText_of_no_reference h
    exact ⟨_, text, stripped_stripTags s.toList, Except.ok.inj (htext.symm.trans hstripped), htext,
      htag, hagain⟩

/-- The first tag reaches over a second opening mark; marks with nothing in between are no tag. -/
theorem an_unclosed_tag_settles :
    '&' ∉ "<p <b>Jazz</b>\n<> 1 < 2".toList ∧
      ∃ stripped text, Stripped "<p <b>Jazz</b>\n<> 1 < 2".toList stripped ∧
        text = collapse (String.ofList stripped) ∧ text = "Jazz <> 1 < 2" ∧
        ofValue (.str "<p <b>Jazz</b>\n<> 1 < 2") = .ok text ∧ ¬ HasTag text.toList ∧
        ofValue (.str text) = .ok text := by
  have hplain : '&' ∉ "<p <b>Jazz</b>\n<> 1 < 2".toList := by decide
  obtain ⟨stripped, text, hstripped, hcollapsed, htext, htag, hagain⟩ :=
    (a_value_has_a_collapsed_plain_text_iff _).2.2 _ rfl hplain
  have hjazz : collapse (String.ofList (stripTags "<p <b>Jazz</b>\n<> 1 < 2".toList)) =
      "Jazz <> 1 < 2" := by decide +kernel
  have hsame := Except.ok.inj (htext.symm.trans (ofText_of_no_reference hplain))
  exact ⟨hplain, stripped, text, hstripped, hcollapsed, hsame.trans hjazz, htext, htag, hagain⟩

/-- A decimal reference with one digit too many. -/
def longReference : String :=
  String.ofList ('&' :: '#' :: List.replicate (CharacterReference.mostDigits + 1) '1')

/-- A text with such a reference has no plain text at all. -/
theorem a_long_reference_has_no_plain_text : ¬ ∃ text, ofValue (.str longReference) = .ok text := by
  have hdigits : ∀ c ∈ List.replicate (CharacterReference.mostDigits + 1) '1',
      (asciiDigit? c).isSome = true := by
    intro c hc
    rw [List.eq_of_mem_replicate hc]
    rfl
  have hspoils : spoils (.str longReference) = true :=
    spoils_of_digits hdigits (by rw [List.length_replicate]; omega)
  rcases ofValue_cases (.str longReference) with ⟨-, hvalue⟩ | ⟨hreadable, -⟩
  · rw [hvalue]
    exact fun ⟨_, htext⟩ => nomatch htext
  · exact absurd (spoils_iff.mp hspoils) hreadable

end PlainText

end TenantSearch
