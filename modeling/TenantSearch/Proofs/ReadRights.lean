-- Who may read which index. The answer looks at the entity of a name and at
-- the name as a whole, both without case, and a caller holds rights under
-- finitely many names only.
import TenantSearch.Proofs.Addressing
import TenantSearch.Query.Policy

namespace TenantSearch

open IndexTarget

/-! ## The pure model -/

namespace CallerContext

/-- The caller holds a privilege of this lower-case name that lets it read. -/
def reads (c : CallerContext) (name : String) : Bool :=
  (c.granted name).any fun right => readRights.contains (lower right)

/-- The caller may read every index: it owns the solution, or it holds the
privilege for everything. -/
def readsAll (c : CallerContext) : Bool := c.isSolutionOwner || c.reads anyEntity

end CallerContext

/-- A caller may read whatever a piece of a requested name addresses: it
may read everything, the piece is empty, the piece is a plain name that it
may read, or it may read the entity and the stars stand in the subtype. -/
def Covers (c : CallerContext) (piece : String) : Prop :=
  c.readsAll = true ∨ piece = "" ∨
    ('*' ∉ piece.toList ∧ Policy.mayRead c piece = true) ∨
    ('*' ∉ entityPart piece ∧ c.reads (entityOf piece) = true)

/-! ## Reading an index -/

theorem canRead_eq (c : CallerContext) (t : IndexTarget) :
    c.canRead t =
      (c.isSolutionOwner || (c.reads t.name || (c.reads (lower t.entityName) || c.reads anyEntity))) := by
  simp only [CallerContext.canRead, CallerContext.hasPrivilege, CallerContext.privilegeNames,
    List.any_cons, List.any_nil, Bool.or_false]
  rfl

theorem mayRead_iff (c : CallerContext) (name : String) :
    Policy.mayRead c name = true ↔
      c.readsAll = true ∨ c.reads (entityOf name) = true ∨
        (hasSubtype name = true ∧ c.reads (lower name) = true) := by
  have hentity : lower (parse name).entityName = entityOf name := rfl
  unfold Policy.mayRead CallerContext.readsAll
  rw [canRead_eq, name_parse, hentity]
  generalize c.isSolutionOwner = owner
  generalize c.reads anyEntity = everything
  cases hasSubtype name with
  | true =>
    rw [if_pos rfl]
    generalize c.reads (lower name) = whole
    generalize c.reads (entityOf name) = entity
    cases owner <;> cases everything <;> cases whole <;> cases entity <;> decide
  | false =>
    rw [if_neg Bool.false_ne_true]
    generalize c.reads (entityOf name) = entity
    cases owner <;> cases everything <;> cases entity <;> simp

/-- The letter case of an index name changes nothing. -/
@[simp]
theorem mayRead_lower (c : CallerContext) (name : String) :
    Policy.mayRead c (lower name) = Policy.mayRead c name := by
  rw [Bool.eq_iff_iff, mayRead_iff, mayRead_iff]
  simp

theorem mayRead_of_readsAll {c : CallerContext} (h : c.readsAll = true) (name : String) :
    Policy.mayRead c name = true := (mayRead_iff c name).mpr (Or.inl h)

theorem exists_length_bound (names : List String) :
    ∃ most, ∀ name ∈ names, name.toList.length ≤ most := by
  induction names with
  | nil => exact ⟨0, by simp⟩
  | cons first rest ih =>
    obtain ⟨most, hmost⟩ := ih
    refine ⟨max first.toList.length most, fun name hname => ?_⟩
    rcases List.mem_cons.mp hname with rfl | hname
    · exact Nat.le_max_left _ _
    · exact (hmost name hname).trans (Nat.le_max_right _ _)

/-- A caller reads under finitely many names, so under none that is too long. -/
theorem exists_reads_bound (c : CallerContext) :
    ∃ most, ∀ name, c.reads name = true → name.toList.length ≤ most := by
  obtain ⟨most, hmost⟩ := exists_length_bound (c.grants.map (·.1))
  refine ⟨most, fun name hreads => hmost name ?_⟩
  unfold CallerContext.reads CallerContext.granted at hreads
  rcases hfind : c.grants.reverse.find? (·.1 == name) with _ | grant
  · simp [hfind] at hreads
  · have hname : grant.1 = name := by simpa using List.find?_some hfind
    have hmem : grant ∈ c.grants := List.mem_reverse.mp (List.mem_of_find?_eq_some hfind)
    exact List.mem_map.mpr ⟨grant, hmem, hname⟩

/-! ## Pieces that a caller covers -/

theorem toList_entityOf_of_isIndexName {name : String} (h : IsIndexName name) :
    (entityOf name).toList = entityPart name := by
  rw [toList_entityOf, ← entityPart_lower, h.small]

theorem star_mem_lower (piece : String) : '*' ∈ (lower piece).toList ↔ '*' ∈ piece.toList := by
  rw [toList_lower, isDivider_star.mem_lowerChars]

theorem star_mem_entityPart_lower (piece : String) :
    '*' ∈ entityPart (lower piece) ↔ '*' ∈ entityPart piece := by
  rw [entityPart_lower, isDivider_star.mem_lowerChars]

theorem lower_eq_empty (s : String) : lower s = "" ↔ s = "" := by
  rw [← String.toList_inj, ← String.toList_inj, toList_lower, String.toList_empty,
    lowerChars_eq_nil]

theorem mayRead_of_covers {c : CallerContext} {piece name : String} (h : Covers c piece)
    (hname : IsIndexName name) (haddr : addresses (lower piece).toList name.toList = true) :
    Policy.mayRead c name = true := by
  rcases h with h | rfl | ⟨hstar, h⟩ | ⟨hstar, h⟩
  · exact mayRead_of_readsAll h name
  · have hnil : name.toList = (lower "").toList := eq_of_addresses (by decide) haddr
    exact absurd (String.toList_inj.mp hnil) hname.nonempty
  · have heq : name.toList = (lower piece).toList :=
      eq_of_addresses (mt (star_mem_lower piece).mp hstar) haddr
    rw [String.toList_inj.mp heq, mayRead_lower, h]
  · have hpart : entityPart name = entityPart (lower piece) :=
      takeWhile_of_addresses (mt (star_mem_entityPart_lower piece).mp hstar) haddr
    have hentity : entityOf name = entityOf piece := by
      rw [← String.toList_inj, toList_entityOf, hpart, ← toList_entityOf, entityOf_lower]
    rw [mayRead_iff, hentity]
    exact Or.inr (Or.inl h)

/-- The name that an expression addresses when every star is a long run of
letters. -/
def stretched (most : Nat) (e : String) : String :=
  String.ofList (filled (List.replicate (most + 1) 'z') e.toList)

theorem length_filled (most : Nat) {e : List Char} (h : '*' ∈ e) :
    most < (filled (List.replicate (most + 1) 'z') e).length := by
  have := (subset_filled (List.replicate (most + 1) 'z') h).length_le
  rw [List.length_replicate] at this
  omega

theorem entityPart_stretched (most : Nat) (e : String) :
    entityPart (stretched most e) = filled (List.replicate (most + 1) 'z') (entityPart e) := by
  unfold entityPart stretched
  rw [String.toList_ofList, takeWhile_filled]
  intro h
  exact absurd (List.eq_of_mem_replicate h) (by decide)

theorem isIndexName_stretched {piece : String} (most : Nat) (hcomma : ',' ∉ piece.toList)
    (hne : piece ≠ "") : IsIndexName (stretched most (lower piece)) := by
  apply isIndexName_filled
  · rwa [toList_lower, isDivider_comma.mem_lowerChars]
  · exact fun c hc => List.eq_of_mem_replicate hc
  · by_cases hstar : '*' ∈ (lower piece).toList
    · intro hnil
      have := length_filled most hstar
      rw [hnil] at this
      exact absurd this (Nat.not_lt_zero _)
    · rw [filled_of_no_star _ hstar, ← String.toList_empty, ne_eq, String.toList_inj,
        lower_eq_empty]
      exact hne

theorem stretched_of_no_star (most : Nat) {e : String} (h : '*' ∉ e.toList) :
    stretched most e = e := by
  unfold stretched
  rw [filled_of_no_star _ h, String.ofList_toList]

theorem entityOf_stretched {most : Nat} {piece : String}
    (hname : IsIndexName (stretched most (lower piece))) (h : '*' ∉ entityPart piece) :
    entityOf (stretched most (lower piece)) = entityOf piece := by
  rw [← String.toList_inj, toList_entityOf_of_isIndexName hname, entityPart_stretched,
    filled_of_no_star _ (mt (star_mem_entityPart_lower piece).mp h), entityPart_lower,
    toList_entityOf]

/-- A right to read the stretched name is a right to all that the piece
addresses: past the bound there is no right under the name itself, nor under
its entity when a star stands there. -/
theorem covers_of_stretched {c : CallerContext} {piece : String} {most : Nat}
    (hmost : ∀ name, c.reads name = true → name.toList.length ≤ most)
    (hname : IsIndexName (stretched most (lower piece)))
    (hread : Policy.mayRead c (stretched most (lower piece)) = true) : Covers c piece := by
  by_cases hstar : '*' ∈ piece.toList
  · rw [mayRead_iff] at hread
    rcases hread with hall | hentity | ⟨_, hwhole⟩
    · exact Or.inl hall
    · by_cases hpart : '*' ∈ entityPart piece
      · have hlong := length_filled most ((star_mem_entityPart_lower piece).mpr hpart)
        have hshort := hmost _ hentity
        rw [toList_entityOf_of_isIndexName hname, entityPart_stretched] at hshort
        omega
      · rw [entityOf_stretched hname hpart] at hentity
        exact Or.inr (Or.inr (Or.inr ⟨hpart, hentity⟩))
    · have hlong := length_filled most ((star_mem_lower piece).mpr hstar)
      have hshort := hmost _ hwhole
      rw [hname.small] at hshort
      unfold stretched at hshort
      rw [String.toList_ofList] at hshort
      omega
  · rw [stretched_of_no_star _ (mt (star_mem_lower piece).mp hstar), mayRead_lower] at hread
    exact Or.inr (Or.inr (Or.inl ⟨hstar, hread⟩))

/-- A caller may read every name that a piece addresses exactly when it
covers the piece. No other piece with a star is safe: its stars stretch to
names longer than all that the caller holds rights under. -/
theorem covers_iff {c : CallerContext} {piece : String} (hcomma : ',' ∉ piece.toList) :
    (∀ name, IsIndexName name → addresses (lower piece).toList name.toList = true →
      Policy.mayRead c name = true) ↔ Covers c piece := by
  constructor
  · intro h
    by_cases hempty : piece = ""
    · exact Or.inr (Or.inl hempty)
    obtain ⟨most, hmost⟩ := exists_reads_bound c
    have hname := isIndexName_stretched most hcomma hempty
    refine covers_of_stretched hmost hname (h _ hname ?_)
    unfold stretched
    rw [String.toList_ofList]
    exact addresses_filled _ _
  · exact fun h name hname haddr => mayRead_of_covers h hname haddr

end TenantSearch
