-- How the search engine reads a list of index names: it joins them with
-- commas, takes the text apart at every comma, and in each expression a star
-- stands for any run of characters.
import Mathlib.Data.List.Infix
import TenantSearch.Proofs.IndexNames

namespace TenantSearch

/-! ## The pure model -/

/-- An expression addresses a name: a star stands for any run of
characters, every other character for itself. -/
def addresses : List Char → List Char → Bool
  | [], name => name.isEmpty
  | c :: e, name =>
    if c = '*' then name.tails.any (addresses e)
    else match name with
      | [] => false
      | d :: rest => c == d && addresses e rest

/-- The expressions that the engine reads out of a list of index names. -/
def expressions (indices : List String) : List String := commaPieces (",".intercalate indices)

/-- A name that an index can bear: lower case, not empty, and without the
two characters that mean something in a list of names. -/
structure IsIndexName (name : String) : Prop where
  nonempty : name ≠ ""
  small : lower name = name
  no_comma : ',' ∉ name.toList
  no_star : '*' ∉ name.toList

/-- The concrete index names that a list of index names addresses. -/
structure Addressed (indices : List String) (name : String) : Prop where
  isName : IsIndexName name
  expression : ∃ e ∈ expressions indices, addresses e.toList name.toList = true

/-- The expression with the same run of characters for every star. -/
def filled (run e : List Char) : List Char := e.flatMap fun c => if c = '*' then run else [c]

/-- Whether an expression addresses some name that begins like this. -/
def canStart : List Char → List Char → Bool
  | _, [] => true
  | [], _ :: _ => false
  | c :: e, d :: start => c == '*' || (c == d && canStart e start)

/-- Whether an expression addresses some index of an entity: the entity's
own or one of its subtypes'. -/
def reaches (e entity : List Char) : Bool := addresses e entity || canStart e (entity ++ ['_'])

/-! ## Expressions without a star -/

theorem addresses_star (e name : List Char) :
    addresses ('*' :: e) name = true ↔ ∃ run rest, name = run ++ rest ∧ addresses e rest = true := by
  simp only [addresses, if_true, List.any_eq_true, List.mem_tails]
  constructor
  · rintro ⟨rest, ⟨run, hrun⟩, h⟩
    exact ⟨run, rest, hrun.symm, h⟩
  · rintro ⟨run, rest, rfl, h⟩
    exact ⟨rest, ⟨run, rfl⟩, h⟩

theorem addresses_cons {c : Char} (hc : c ≠ '*') (e name : List Char) :
    addresses (c :: e) name = true ↔ ∃ rest, name = c :: rest ∧ addresses e rest = true := by
  cases name with
  | nil => simp [addresses, hc]
  | cons d rest =>
    simp only [addresses, hc, if_false, Bool.and_eq_true, beq_iff_eq, List.cons.injEq]
    constructor
    · rintro ⟨rfl, h⟩
      exact ⟨rest, ⟨rfl, rfl⟩, h⟩
    · rintro ⟨rest', ⟨rfl, rfl⟩, h⟩
      exact ⟨rfl, h⟩

theorem eq_of_addresses {e name : List Char} (hs : '*' ∉ e) (h : addresses e name = true) :
    name = e := by
  induction e generalizing name with
  | nil => simpa [addresses] using h
  | cons c e ih =>
    rw [List.mem_cons, not_or] at hs
    obtain ⟨rest, rfl, hrest⟩ := (addresses_cons (Ne.symm hs.1) e name).mp h
    rw [ih hs.2 hrest]

/-- While no star stands before the first underscore, every name that is
addressed begins with the same entity. -/
theorem takeWhile_of_addresses {e name : List Char} (hs : '*' ∉ e.takeWhile (· != '_'))
    (h : addresses e name = true) : name.takeWhile (· != '_') = e.takeWhile (· != '_') := by
  induction e generalizing name with
  | nil => rw [eq_of_addresses (by simp) h]
  | cons c e ih =>
    have hc : c ≠ '*' := by
      rintro rfl
      simp at hs
    obtain ⟨rest, rfl, hrest⟩ := (addresses_cons hc e name).mp h
    rw [List.takeWhile_cons, List.takeWhile_cons]
    split
    · rename_i hu
      rw [List.takeWhile_cons, if_pos hu, List.mem_cons, not_or] at hs
      rw [ih hs.2 hrest]
    · rfl

/-! ## Filling the stars -/

theorem filled_cons (run : List Char) (c : Char) (e : List Char) :
    filled run (c :: e) = (if c = '*' then run else [c]) ++ filled run e := List.flatMap_cons

/-- An expression addresses what comes out when its stars are filled. -/
theorem addresses_filled (run e : List Char) : addresses e (filled run e) = true := by
  induction e with
  | nil => rfl
  | cons c e ih =>
    rw [filled_cons]
    by_cases hc : c = '*'
    · subst hc
      rw [if_pos rfl, addresses_star]
      exact ⟨run, _, rfl, ih⟩
    · rw [if_neg hc, addresses_cons hc]
      exact ⟨_, rfl, ih⟩

theorem mem_filled {run e : List Char} {x : Char} (h : x ∈ filled run e) :
    x ∈ run ∨ (x ∈ e ∧ x ≠ '*') := by
  obtain ⟨c, hc, hx⟩ := List.mem_flatMap.mp h
  split at hx
  · exact Or.inl hx
  · rename_i hstar
    rw [List.mem_singleton] at hx
    exact Or.inr ⟨hx ▸ hc, hx ▸ hstar⟩

theorem filled_of_no_star (run : List Char) {e : List Char} (hs : '*' ∉ e) : filled run e = e :=
  eq_of_addresses hs (addresses_filled run e)

theorem subset_filled (run : List Char) {e : List Char} (hs : '*' ∈ e) :
    run.Sublist (filled run e) := by
  obtain ⟨a, b, rfl⟩ := List.append_of_mem hs
  unfold filled
  rw [List.flatMap_append, List.flatMap_cons, if_pos rfl]
  exact (List.sublist_append_left run _).trans (List.sublist_append_right _ _)

theorem takeWhile_filled {run : List Char} (hr : '_' ∉ run) (e : List Char) :
    (filled run e).takeWhile (· != '_') = filled run (e.takeWhile (· != '_')) := by
  induction e with
  | nil => rfl
  | cons c e ih =>
    rw [filled_cons]
    by_cases hc : c = '*'
    · subst hc
      rw [if_pos rfl, List.takeWhile_append_of_pos, ih, List.takeWhile_cons, if_pos (by decide),
        filled_cons, if_pos rfl]
      intro x hx
      simpa using fun hxu : x = '_' => hr (hxu ▸ hx)
    · rw [if_neg hc, List.singleton_append, List.takeWhile_cons, List.takeWhile_cons, ih]
      split
      · rw [filled_cons, if_neg hc, List.singleton_append]
      · rfl

theorem IsIndexName.of_chars {name : List Char} (hne : name ≠ [])
    (h : ∀ c ∈ name, IsSmall c ∧ c ≠ ',' ∧ c ≠ '*') : IsIndexName (String.ofList name) := by
  refine ⟨?_, ?_, ?_, ?_⟩
  · intro hempty
    exact hne (by simpa using congrArg String.toList hempty)
  · rw [lower_ofList, lowerChars_of_small fun c hc => (h c hc).1]
  · rw [String.toList_ofList]
    exact fun hc => (h _ hc).2.1 rfl
  · rw [String.toList_ofList]
    exact fun hc => (h _ hc).2.2 rfl

/-- The characters of an expression in lower case, its stars aside, may all
stand in an index name. -/
theorem mem_lower_nameable {e : String} {c : Char} (hcomma : ',' ∉ (lower e).toList)
    (hc : c ∈ (lower e).toList) (hne : c ≠ '*') : IsSmall c ∧ c ≠ ',' ∧ c ≠ '*' := by
  refine ⟨?_, fun h => hcomma (h ▸ hc), hne⟩
  rw [toList_lower] at hc
  exact mem_lowerChars_small hc

theorem isSmall_z : IsSmall 'z' :=
  IsSmall.of_code (by decide) (by decide) (by decide) (by decide)

/-- An expression in lower case becomes an index name when its stars are
filled with letters. -/
theorem isIndexName_filled {e : String} {run : List Char} (hcomma : ',' ∉ (lower e).toList)
    (hrun : ∀ c ∈ run, c = 'z') (hne : filled run (lower e).toList ≠ []) :
    IsIndexName (String.ofList (filled run (lower e).toList)) := by
  apply IsIndexName.of_chars hne
  intro c hc
  rcases mem_filled hc with h | ⟨h, hstar⟩
  · rw [hrun c h]
    exact ⟨isSmall_z, by decide, by decide⟩
  · exact mem_lower_nameable hcomma h hstar

/-! ## Which entities an expression reaches -/

theorem canStart_of_addresses {e start rest : List Char} (h : addresses e (start ++ rest) = true) :
    canStart e start = true := by
  induction e, start using canStart.induct with
  | case1 e => simp [canStart]
  | case2 d start => simp [addresses] at h
  | case3 c e d start ih =>
    rw [canStart, Bool.or_eq_true, Bool.and_eq_true, beq_iff_eq, beq_iff_eq]
    by_cases hc : c = '*'
    · exact Or.inl hc
    · rw [List.cons_append, addresses_cons hc] at h
      obtain ⟨_, heq, h⟩ := h
      obtain ⟨rfl, rfl⟩ := List.cons.inj heq
      exact Or.inr ⟨rfl, ih h⟩

theorem exists_of_canStart {e start : List Char} (h : canStart e start = true) :
    ∃ rest, addresses e (start ++ rest) = true ∧ ∀ c ∈ rest, c ∈ e ∧ c ≠ '*' := by
  induction e, start using canStart.induct with
  | case1 e =>
    refine ⟨filled [] e, addresses_filled [] e, fun c hc => ?_⟩
    exact (mem_filled hc).resolve_left List.not_mem_nil
  | case2 d start => simp [canStart] at h
  | case3 c e d start ih =>
    by_cases hc : c = '*'
    · subst hc
      refine ⟨filled [] e, ?_, fun x hx => ?_⟩
      · rw [addresses_star]
        exact ⟨_, _, rfl, addresses_filled [] e⟩
      · obtain ⟨hx, hne⟩ := (mem_filled hx).resolve_left List.not_mem_nil
        exact ⟨List.mem_cons_of_mem _ hx, hne⟩
    · rw [canStart, Bool.or_eq_true, Bool.and_eq_true, beq_iff_eq, beq_iff_eq] at h
      obtain ⟨rfl, hstart⟩ := h.resolve_left hc
      obtain ⟨rest, hrest, hmem⟩ := ih hstart
      refine ⟨rest, ?_, fun x hx => ⟨List.mem_cons_of_mem _ (hmem x hx).1, (hmem x hx).2⟩⟩
      rw [List.cons_append, addresses_cons hc]
      exact ⟨_, rfl, hrest⟩

theorem takeWhile_eq_iff {entity name : List Char} (hu : '_' ∉ entity) :
    name.takeWhile (· != '_') = entity ↔ name = entity ∨ ∃ rest, name = entity ++ '_' :: rest := by
  constructor
  · intro h
    rcases eq_or_append_of_char '_' name with hn | ⟨a, b, rfl, ha⟩
    · rw [takeWhile_ne_of_not_mem hn] at h
      exact Or.inl h
    · rw [takeWhile_ne_append b ha] at h
      exact Or.inr ⟨b, by rw [h]⟩
  · rintro (rfl | ⟨rest, rfl⟩)
    · exact takeWhile_ne_of_not_mem hu
    · exact takeWhile_ne_append rest hu

/-- An expression reaches an entity exactly when it addresses an index name
that begins with it. -/
theorem reaches_iff {e : String} {entity : List Char} (hcomma : ',' ∉ (lower e).toList)
    (hne : entity ≠ []) (hu : '_' ∉ entity)
    (hentity : ∀ c ∈ entity, IsSmall c ∧ c ≠ ',' ∧ c ≠ '*') :
    reaches (lower e).toList entity = true ↔
      ∃ name, IsIndexName name ∧ addresses (lower e).toList name.toList = true ∧
        IndexTarget.entityPart name = entity := by
  unfold reaches IndexTarget.entityPart
  rw [Bool.or_eq_true]
  constructor
  · rintro (h | h)
    · refine ⟨String.ofList entity, IsIndexName.of_chars hne hentity, ?_, ?_⟩
      · rwa [String.toList_ofList]
      · rw [String.toList_ofList, takeWhile_ne_of_not_mem hu]
    · obtain ⟨rest, hrest, hmem⟩ := exists_of_canStart h
      refine ⟨String.ofList (entity ++ ['_'] ++ rest), ?_, ?_, ?_⟩
      · apply IsIndexName.of_chars (by simp)
        intro c hc
        simp only [List.mem_append, List.mem_singleton] at hc
        rcases hc with (hc | rfl) | hc
        · exact hentity c hc
        · exact ⟨isDivider_underscore.small, by decide, by decide⟩
        · exact mem_lower_nameable hcomma (hmem c hc).1 (hmem c hc).2
      · rwa [String.toList_ofList]
      · rw [String.toList_ofList, List.append_assoc, List.singleton_append,
          takeWhile_ne_append rest hu]
  · rintro ⟨name, _, haddr, hpart⟩
    rcases (takeWhile_eq_iff hu).mp hpart with h | ⟨rest, h⟩
    · rw [h] at haddr
      exact Or.inl haddr
    · rw [h, ← List.singleton_append, ← List.append_assoc] at haddr
      exact Or.inr (canStart_of_addresses haddr)

end TenantSearch
