-- Collapsed texts: words with single spaces between. Collapsing makes a text one and leaves one
-- as it is; several joined by spaces are one, and so is a beginning that ends in no space.
import Mathlib.Data.List.Chain
import Mathlib.Data.List.Induction
import TenantSearch.Document.PlainText

namespace TenantSearch

/-- Two spaces in a row. -/
def AreSpaces (a b : Char) : Prop := a = ' ' ∧ b = ' '

/-- Single spaces, none of them in front, and no other blank. -/
structure IsSpaced (cs : List Char) : Prop where
  blanks : ∀ c ∈ cs, isBlank c = true → c = ' '
  first : cs.head? ≠ some ' '
  single : cs.IsChain fun a b => ¬ AreSpaces a b

/-- A collapsed text: no blank but single spaces, and none at its ends. -/
structure IsCollapsed (cs : List Char) : Prop extends IsSpaced cs where
  last : cs.getLast? ≠ some ' '

theorem IsSpaced.of_isPrefix {cs ds : List Char} (h : IsSpaced ds) (hbegins : cs <+: ds) :
    IsSpaced cs where
  blanks c hc := h.blanks c (hbegins.subset hc)
  first := by
    obtain ⟨rest, rfl⟩ := hbegins
    rcases cs with _ | ⟨c, more⟩
    · exact fun hnone => nomatch hnone
    · exact h.first
  single := by
    obtain ⟨rest, rfl⟩ := hbegins
    exact (List.isChain_append.mp h.single).1

theorem IsCollapsed.nil : IsCollapsed [] where
  blanks _ hc := absurd hc List.not_mem_nil
  first := fun h => nomatch h
  single := .nil
  last := fun h => nomatch h

theorem isBlank_space : isBlank ' ' = true := by decide

theorem ne_of_isBlank_eq_false {c d : Char} (hc : isBlank c = true) (hd : isBlank d = false) :
    c ≠ d := by
  rintro rfl
  rw [hc] at hd
  cases hd

/-- One character more may be a blank only as a space behind a word. -/
theorem isSpaced_snoc_iff {cs : List Char} {d : Char} : IsSpaced (cs ++ [d]) ↔
    IsSpaced cs ∧
      (isBlank d = true → d = ' ' ∧ ∃ c, cs.getLast? = some c ∧ isBlank c = false) := by
  constructor
  · intro h
    refine ⟨h.of_isPrefix (List.prefix_append cs [d]), fun hblank => ?_⟩
    have hspace := h.blanks d (List.mem_append_right _ (List.mem_singleton_self d)) hblank
    rcases hend : cs.getLast? with _ | c
    · rw [List.getLast?_eq_none_iff.mp hend, hspace] at h
      exact absurd rfl h.first
    · refine ⟨hspace, c, rfl, Bool.eq_false_iff.mpr fun hc => ?_⟩
      have hbefore := h.blanks c (List.mem_append_left _ (List.mem_of_getLast? hend)) hc
      exact (List.isChain_append.mp h.single).2.2 c hend d rfl ⟨hbefore, hspace⟩
  · rintro ⟨h, hend⟩
    refine ⟨fun c hc hblank => ?_, fun hfirst => ?_, List.isChain_append.mpr ⟨h.single, ?_, ?_⟩⟩
    · rcases List.mem_append.mp hc with hmem | hmem
      · exact h.blanks c hmem hblank
      · obtain rfl := List.mem_singleton.mp hmem
        exact (hend hblank).1
    · rcases cs with _ | ⟨c, rest⟩
      · obtain rfl := Option.some.inj hfirst
        obtain ⟨-, c, hlast, -⟩ := hend isBlank_space
        cases hlast
      · exact h.first hfirst
    · exact List.isChain_singleton d
    · intro c hc e he hspaces
      obtain rfl := Option.some.inj he
      obtain ⟨-, e, hlast, hword⟩ := hend (hspaces.2 ▸ isBlank_space)
      obtain rfl := Option.some.inj (hlast.symm.trans hc)
      exact ne_of_isBlank_eq_false isBlank_space hword hspaces.1.symm

theorem no_blank_of_any {cs : List Char} (h : cs.any isBlank = false) :
    ∀ c ∈ cs, isBlank c = false :=
  fun c hc => Bool.eq_false_iff.mpr (List.any_eq_false.mp h c hc)

/-- Without blanks there is nothing to collapse. -/
theorem isCollapsed_of_no_blank {cs : List Char} (h : ∀ c ∈ cs, isBlank c = false) :
    IsCollapsed cs := by
  have hspace : ' ' ∉ cs := fun hmem => absurd (h _ hmem) (by decide)
  refine ⟨⟨fun c hc hblank => ?_, fun hfirst => hspace (List.mem_of_mem_head? hfirst), ?_⟩,
    fun hlast => hspace (List.mem_of_getLast? hlast)⟩
  · rw [h c hc] at hblank
    cases hblank
  · refine (List.pairwise_of_forall_mem_list fun a ha b _ hspaces => ?_).isChain
    exact hspace (hspaces.1 ▸ ha)

/-! ## Putting together and cutting off -/

theorem IsCollapsed.append_space {cs ds : List Char} (hcs : IsCollapsed cs) (hds : IsCollapsed ds)
    (hne : cs ≠ []) (hne' : ds ≠ []) : IsCollapsed (cs ++ ' ' :: ds) where
  blanks c hc hblank := by
    rcases List.mem_append.mp hc with hmem | hmem
    · exact hcs.blanks c hmem hblank
    · rcases List.mem_cons.mp hmem with rfl | hmem
      · rfl
      · exact hds.blanks c hmem hblank
  first := by
    rw [List.head?_append_of_ne_nil _ hne]
    exact hcs.first
  single := by
    refine List.isChain_append.mpr ⟨hcs.single, ?_, ?_⟩
    · refine List.isChain_cons.mpr ⟨fun d hd hspaces => ?_, hds.single⟩
      exact hds.first (hspaces.2 ▸ hd)
    · intro c hc d _ hspaces
      exact hcs.last (hspaces.1 ▸ hc)
  last := by
    rw [List.getLast?_append_of_ne_nil _ (List.cons_ne_nil _ _), List.getLast?_cons_of_ne_nil hne']
    exact hds.last

/-- Texts that are collapsed and not empty make up one with single spaces between them. -/
theorem isCollapsed_intercalate {texts : List (List Char)}
    (h : ∀ cs ∈ texts, IsCollapsed cs ∧ cs ≠ []) : IsCollapsed ([' '].intercalate texts) := by
  induction texts with
  | nil => exact .nil
  | cons cs rest ih =>
    obtain ⟨hfirst, hrest⟩ := List.forall_mem_cons.mp h
    rcases rest with _ | ⟨ds, more⟩
    · rw [List.intercalate_singleton]
      exact hfirst.1
    · rw [List.intercalate_cons_cons, List.append_assoc, List.singleton_append]
      refine hfirst.1.append_space (ih hrest) hfirst.2 ?_
      have hds := (hrest ds List.mem_cons_self).2
      rcases more with _ | ⟨es, others⟩
      · rwa [List.intercalate_singleton]
      · rw [List.intercalate_cons_cons]
        simp [hds]

theorem PlainText.isCollapsed_join {texts : List String}
    (h : ∀ text ∈ texts, IsCollapsed text.toList) : IsCollapsed (join texts).toList := by
  unfold join
  rw [String.toList_intercalate]
  refine isCollapsed_intercalate fun cs hcs => ?_
  obtain ⟨text, htext, rfl⟩ := List.mem_map.mp hcs
  obtain ⟨hmem, hgiven⟩ := List.mem_filter.mp htext
  refine ⟨h text hmem, fun hnil => ?_⟩
  rw [String.toList_eq_nil_iff.mp hnil] at hgiven
  cases hgiven

/-- A beginning of a collapsed text is collapsed unless it was cut after a space. -/
theorem IsCollapsed.take_iff {cs : List Char} (h : IsCollapsed cs) (n : Nat) :
    IsCollapsed (cs.take (n + 1)) ↔ cs[n]? ≠ some ' ' := by
  have hlast : (cs.take (n + 1)).getLast? ≠ some ' ' ↔ cs[n]? ≠ some ' ' := by
    rw [List.getLast?_take, if_neg n.succ_ne_zero, Nat.add_sub_cancel]
    rcases hat : cs[n]? with _ | c
    · simp [h.last]
    · simp
  rw [← hlast]
  exact ⟨fun htake => htake.last, fun htake => ⟨h.of_isPrefix (List.take_prefix _ cs), htake⟩⟩

/-! ## Collapsing -/

/-- Where a reader of words is after a text: its finished words, and the one that it reads. -/
def wordsRead (cs : List Char) : List (List Char) × List Char :=
  cs.foldl (wordStep isBlank) ([], [])

/-- What has been read: each finished word with a space after it, and the one that is being read. -/
def respaced (cs : List Char) : List Char :=
  (wordsRead cs).1.reverse.flatMap (· ++ [' ']) ++ (wordsRead cs).2.reverse

theorem wordsRead_snoc (cs : List Char) (c : Char) :
    wordsRead (cs ++ [c]) = wordStep isBlank (wordsRead cs) c := by
  unfold wordsRead
  rw [List.foldl_append]
  rfl

/-- A blank is read as a space when it ends a word, and is passed over when it does not. -/
theorem respaced_snoc (cs : List Char) (c : Char) :
    respaced (cs ++ [c]) =
      if isBlank c = true then
        if (wordsRead cs).2 = [] then respaced cs else respaced cs ++ [' ']
      else respaced cs ++ [c] := by
  unfold respaced
  rw [wordsRead_snoc]
  by_cases hblank : isBlank c = true
  · rw [if_pos hblank]
    by_cases hword : (wordsRead cs).2 = []
    · simp [wordStep, hblank, hword]
    · simp [wordStep, hblank, hword]
  · simp [wordStep, hblank]

/-- No word is being read just when nothing was read or a blank was read last. -/
theorem wordsRead_eq_nil_iff (cs : List Char) :
    (wordsRead cs).2 = [] ↔ ∀ c ∈ cs.getLast?, isBlank c = true := by
  induction cs using List.reverseRecOn with
  | nil => simp [wordsRead]
  | append_singleton cs c _ =>
    rw [wordsRead_snoc, List.getLast?_concat]
    by_cases hblank : isBlank c = true
    · simp [wordStep, hblank]
    · simp [wordStep, hblank]

/-- Between words a space was read last, unless nothing was. -/
theorem respaced_of_no_word {cs : List Char} (h : (wordsRead cs).2 = []) :
    respaced cs = [] ∨ (respaced cs).getLast? = some ' ' := by
  induction cs using List.reverseRecOn with
  | nil => exact Or.inl rfl
  | append_singleton cs c ih =>
    rw [wordsRead_eq_nil_iff, List.getLast?_concat] at h
    rw [respaced_snoc, if_pos (h c rfl)]
    split
    · next hword => exact ih hword
    · exact Or.inr List.getLast?_concat

/-- The word that is being read ends what has been read, and it has no blank. -/
theorem getLast?_respaced {cs : List Char} (h : (wordsRead cs).2 ≠ []) :
    ∃ c, (respaced cs).getLast? = some c ∧ isBlank c = false := by
  induction cs using List.reverseRecOn with
  | nil => exact absurd rfl h
  | append_singleton cs c _ =>
    rw [Ne, wordsRead_eq_nil_iff, List.getLast?_concat] at h
    have hblank : isBlank c = false := by simpa using h
    refine ⟨c, ?_, hblank⟩
    rw [respaced_snoc, if_neg (by rw [hblank]; exact Bool.false_ne_true), List.getLast?_concat]

theorem isSpaced_respaced (cs : List Char) : IsSpaced (respaced cs) := by
  induction cs using List.reverseRecOn with
  | nil => exact IsCollapsed.nil.toIsSpaced
  | append_singleton cs c ih =>
    rw [respaced_snoc]
    split
    · split
      · exact ih
      · next hword => exact isSpaced_snoc_iff.mpr ⟨ih, fun _ => ⟨rfl, getLast?_respaced hword⟩⟩
    · next hblank => exact isSpaced_snoc_iff.mpr ⟨ih, fun h => absurd h hblank⟩

theorem intercalate_snoc (words : List (List Char)) (word : List Char) :
    [' '].intercalate (words ++ [word]) = words.flatMap (· ++ [' ']) ++ word := by
  induction words with
  | nil => simp
  | cons first rest ih =>
    rw [List.flatMap_cons, List.append_assoc, ← ih]
    rcases rest with _ | ⟨second, more⟩
    · simp
    · simp [List.intercalate_cons_cons]

/-- Collapsing leaves what has been read, without the space after the last word. -/
theorem toList_collapse (s : String) :
    (collapse s).toList =
      if (wordsRead s.toList).2 = [] then (respaced s.toList).dropLast else respaced s.toList := by
  have hwords : (collapse s).toList = [' '].intercalate (wordsBy isBlank s.toList) := by
    unfold collapse words
    rw [String.toList_intercalate, List.map_map]
    simp
  have hread : wordsBy isBlank s.toList =
      if (wordsRead s.toList).2 = [] then (wordsRead s.toList).1.reverse
      else (wordsRead s.toList).1.reverse ++ [(wordsRead s.toList).2.reverse] := by
    unfold wordsBy wordsRead
    dsimp only
    by_cases hword : (s.toList.foldl (wordStep isBlank) ([], [])).2 = []
    · simp [hword]
    · simp [hword]
  rw [hwords, hread]
  unfold respaced
  split
  · next hword =>
    rw [hword, List.reverse_nil, List.append_nil]
    rcases List.eq_nil_or_concat (wordsRead s.toList).1.reverse with hnone | ⟨rest, word, hsome⟩
    · rw [hnone]
      rfl
    · rw [hsome, List.concat_eq_append, intercalate_snoc, List.flatMap_append]
      simp [← List.append_assoc]
  · exact intercalate_snoc _ _

/-- What has been read is the collapsed text, with one more space when it ends in one. -/
theorem respaced_cases (s : String) :
    respaced s.toList = (collapse s).toList ∧ (respaced s.toList).getLast? ≠ some ' ' ∨
      respaced s.toList = (collapse s).toList ++ [' '] := by
  rw [toList_collapse]
  split
  · next hword =>
    rcases respaced_of_no_word hword with hnone | hspace
    · rw [hnone]
      exact Or.inl ⟨rfl, fun h => nomatch h⟩
    · obtain ⟨ds, hds⟩ := List.getLast?_eq_some_iff.mp hspace
      rw [hds, List.dropLast_concat]
      exact Or.inr rfl
  · next hword =>
    refine Or.inl ⟨rfl, fun hspace => ?_⟩
    obtain ⟨c, hlast, hblank⟩ := getLast?_respaced hword
    obtain rfl := Option.some.inj (hlast.symm.trans hspace)
    cases hblank

theorem isPrefix_collapse (s : String) : (collapse s).toList <+: respaced s.toList := by
  rcases respaced_cases s with ⟨h, -⟩ | h
  · exact h ▸ List.prefix_rfl
  · exact h ▸ List.prefix_append _ _

/-- What is collapsed is collapsed: in front of a last space that is left out there is no other. -/
theorem isCollapsed_collapse (s : String) : IsCollapsed (collapse s).toList := by
  have hspaced := isSpaced_respaced s.toList
  refine ⟨hspaced.of_isPrefix (isPrefix_collapse s), fun hlast => ?_⟩
  rcases respaced_cases s with ⟨h, hword⟩ | h
  · rw [h] at hword
    exact hword hlast
  · rw [h] at hspaced
    exact (List.isChain_append.mp hspaced.single).2.2 _ hlast _ rfl ⟨rfl, rfl⟩

/-- A text without superfluous blanks is read as it is. -/
theorem respaced_of_isSpaced {cs : List Char} (h : IsSpaced cs) : respaced cs = cs := by
  induction cs using List.reverseRecOn with
  | nil => rfl
  | append_singleton cs c ih =>
    obtain ⟨hcs, hfits⟩ := isSpaced_snoc_iff.mp h
    rw [respaced_snoc, ih hcs]
    by_cases hblank : isBlank c = true
    · obtain ⟨rfl, d, hend, hd⟩ := hfits hblank
      have hword : (wordsRead cs).2 ≠ [] := by
        rw [Ne, wordsRead_eq_nil_iff]
        exact fun hall => ne_of_isBlank_eq_false (hall d hend) hd rfl
      rw [if_pos hblank, if_neg hword]
    · rw [if_neg hblank]

/-- A text stays as it is when it is collapsed just when it is a collapsed one. -/
theorem collapse_eq_self_iff {s : String} : collapse s = s ↔ IsCollapsed s.toList := by
  constructor
  · intro h
    rw [← h]
    exact isCollapsed_collapse s
  · intro h
    rw [← String.toList_inj, toList_collapse, respaced_of_isSpaced h.toIsSpaced]
    split
    · next hword =>
      rw [wordsRead_eq_nil_iff] at hword
      rcases hend : s.toList.getLast? with _ | c
      · rw [List.getLast?_eq_none_iff.mp hend]
        rfl
      · have hc := h.blanks c (List.mem_of_getLast? hend) (hword c hend)
        exact absurd (hc ▸ hend) h.last
    · rfl

/-! ## What collapsing keeps -/

/-- The character, with any blank spelled as a space. -/
def asSpace (c : Char) : Char := if isBlank c then ' ' else c

theorem asSpace_eq_iff {c d : Char} (hd : isBlank d = false) : asSpace c = d ↔ c = d := by
  unfold asSpace
  split
  · next hblank =>
    exact iff_of_false (ne_of_isBlank_eq_false isBlank_space hd) (ne_of_isBlank_eq_false hblank hd)
  · exact Iff.rfl

theorem count_map_asSpace {d : Char} (hd : isBlank d = false) (cs : List Char) :
    (cs.map asSpace).count d = cs.count d := by
  induction cs with
  | nil => rfl
  | cons c rest ih =>
    rw [List.map_cons, List.count_cons, List.count_cons, ih]
    simp [asSpace_eq_iff hd]

/-- Nothing is read that was not there, apart from how a blank is spelled. -/
theorem respaced_sublist (cs : List Char) : (respaced cs).Sublist (cs.map asSpace) := by
  induction cs using List.reverseRecOn with
  | nil => exact .slnil
  | append_singleton cs c ih =>
    rw [respaced_snoc, List.map_append, List.map_singleton]
    split
    · next hblank =>
      split
      · exact ih.trans (List.sublist_append_left _ _)
      · rw [asSpace, if_pos hblank]
        exact ih.append (List.Sublist.refl _)
    · next hblank =>
      rw [asSpace, if_neg hblank]
      exact ih.append (List.Sublist.refl _)

/-- All that is no blank is read. -/
theorem count_respaced {d : Char} (hd : isBlank d = false) (cs : List Char) :
    (respaced cs).count d = cs.count d := by
  induction cs using List.reverseRecOn with
  | nil => rfl
  | append_singleton cs c ih =>
    rw [respaced_snoc, List.count_append]
    split
    · next hblank =>
      have hne := ne_of_isBlank_eq_false hblank hd
      split
      · simp [ih, hne]
      · simp [ih, hne, ne_of_isBlank_eq_false isBlank_space hd]
    · rw [List.count_append, ih]

theorem collapse_sublist (s : String) : (collapse s).toList.Sublist (s.toList.map asSpace) :=
  (isPrefix_collapse s).sublist.trans (respaced_sublist s.toList)

theorem count_collapse {d : Char} (hd : isBlank d = false) (s : String) :
    (collapse s).toList.count d = s.toList.count d := by
  rw [← count_respaced hd s.toList]
  rcases respaced_cases s with ⟨h, -⟩ | h
  · rw [h]
  · rw [h, List.count_append]
    simp [ne_of_isBlank_eq_false isBlank_space hd]

end TenantSearch
