-- What an index comes to when one after the other makes sure of it. Whoever comes
-- first with a descriptor creates an index that is not good; all others only look.
import TenantSearch.Proofs.LockedUpkeep

namespace TenantSearch

/-- What an index is created with, or the failure to make it. -/
abbrev Shape := Except Failure IndexDescriptor

/-- The calls by which an index is created anew: it is looked at, dropped if it is
there, and created. -/
def recreation (index : String) (existed : Bool) (d : IndexDescriptor) : List EngineCall :=
  [.mapping index, .hasIndex index] ++ (if existed then [.drop index] else []) ++ [.create d]

/-- How many indices were created where this became of making sure of one. -/
def createdBy : Except Failure Bool → Nat
  | .ok true => 1
  | _ => 0

namespace IndexTrace

/-! ## One visit -/

/-- The trace with so many looks more. -/
def peeked (t : IndexTrace) (index : String) (looks : Nat) : IndexTrace :=
  { t with calls := t.calls ++ List.replicate looks (.mapping index) }

/-- The trace of an index that was created anew after so many looks. -/
def renewed (t : IndexTrace) (index : String) (looks : Nat) (d : IndexDescriptor) : IndexTrace where
  definitions := t.definitions
  mapping := some d.mappings
  known := true
  calls := t.calls ++ List.replicate looks (.mapping index) ++
    recreation index t.mapping.isSome d

variable {t : IndexTrace} {index : String}

theorem definitions_visited (t : IndexTrace) (index : String) (shape : Shape) :
    (t.visited index shape).definitions = t.definitions := by
  unfold visited looked replaced
  repeat' split
  all_goals rfl

/-- Whoever visits an index that is known leaves it as it is. -/
theorem visited_of_known (h : t.known = true) (shape : Shape) : t.visited index shape = t := by
  unfold visited isGood looked
  rw [h]
  rfl

theorem verdict_of_good (h : t.isGood = true) (shape : Shape) : t.verdict shape = .ok false :=
  if_pos h

theorem verdict_of_bad (h : t.isGood = false) (shape : Shape) :
    t.verdict shape = shape.map fun _ => true := by
  unfold verdict
  rw [h]
  rfl

theorem isGood_of_known (h : t.known = true) : t.isGood = true := by
  unfold isGood
  rw [h, Bool.true_or]

theorem known_looked (h : t.isGood = true) : (t.looked index).known = true := by
  unfold looked
  split
  · assumption
  · next hunknown =>
    unfold isGood at h
    rw [Bool.eq_false_iff.mpr hunknown, Bool.false_or] at h
    exact h

theorem visited_of_good (h : t.isGood = true) (shape : Shape) :
    t.visited index shape = t.looked index := if_pos h

theorem isGood_peeked (looks : Nat) : (t.peeked index looks).isGood = t.isGood := rfl

/-- A visit without a descriptor leaves an index that is not good as it is. -/
theorem visited_error (h : t.isGood = false) (looks : Nat) (f : Failure) :
    (t.peeked index looks).visited index (.error f) = t.peeked index (looks + 1) := by
  obtain ⟨hunknown, -⟩ := Bool.or_eq_false_iff.mp h
  have hvisited : (t.peeked index looks).visited index (.error f) =
      (((t.peeked index looks).noting (.mapping index)).knowing
        (isSound t.mapping)).knowing false := by
    unfold visited looked
    rw [isGood_peeked, h]
    have hpeeked : (t.peeked index looks).known = false := hunknown
    rw [hpeeked]
    rfl
  rw [hvisited]
  unfold peeked noting knowing
  rw [List.replicate_succ', ← List.append_assoc, ← hunknown]

/-- A visit with a descriptor creates an index that is not good. -/
theorem visited_ok (h : t.isGood = false) (looks : Nat) (d : IndexDescriptor) :
    (t.peeked index looks).visited index (.ok d) = t.renewed index looks d := by
  obtain ⟨hunknown, -⟩ := Bool.or_eq_false_iff.mp h
  have hvisited : (t.peeked index looks).visited index (.ok d) =
      (((((t.peeked index looks).noting (.mapping index)).knowing
        (isSound t.mapping)).knowing false).replaced index d).knowing true := by
    unfold visited looked
    rw [isGood_peeked, h]
    have hpeeked : (t.peeked index looks).known = false := hunknown
    rw [hpeeked]
    rfl
  rw [hvisited]
  unfold peeked noting knowing replaced renewed recreation
  rcases t.mapping with _ | old
  · simp [noting, mapped]
  · simp [noting, mapped]

/-! ## Visits one after the other -/

/-- The trace of an index after visits, of which the latest comes first. -/
def after (t : IndexTrace) (index : String) : List Shape → IndexTrace
  | [] => t
  | shape :: earlier => (t.after index earlier).visited index shape

/-- How often an index is created on these visits. -/
def creations (t : IndexTrace) (index : String) : List Shape → Nat
  | [] => 0
  | shape :: earlier =>
    t.creations index earlier + createdBy ((t.after index earlier).verdict shape)

theorem definitions_after (t : IndexTrace) (index : String) (shapes : List Shape) :
    (t.after index shapes).definitions = t.definitions := by
  induction shapes with
  | nil => rfl
  | cons shape earlier ih => exact (definitions_visited _ _ _).trans ih

/-- A good index is looked at, unless it is known. -/
theorem after_of_good (h : t.isGood = true) (shapes : List Shape) :
    (t.after index shapes = t ∨ t.after index shapes = t.looked index) ∧
      t.creations index shapes = 0 := by
  induction shapes with
  | nil => exact ⟨Or.inl rfl, rfl⟩
  | cons shape earlier ih =>
    obtain ⟨hafter, hnone⟩ := ih
    have hgood : (t.after index earlier).isGood = true := by
      rcases hafter with hsame | hlooked
      · rw [hsame]
        exact h
      · rw [hlooked]
        exact isGood_of_known (known_looked h)
    refine ⟨Or.inr ?_, ?_⟩
    · unfold after
      rcases hafter with hsame | hlooked
      · rw [hsame]
        exact visited_of_good h shape
      · rw [hlooked]
        exact visited_of_known (known_looked h) shape
    · unfold creations
      rw [hnone, verdict_of_good hgood]
      rfl

/-- An index that is not good is created by the first visit that comes with a
descriptor. -/
theorem after_of_bad (h : t.isGood = false) (shapes : List Shape) :
    (t.after index shapes = t.peeked index shapes.length ∧ t.creations index shapes = 0 ∧
      ∀ d, .ok d ∉ shapes) ∨
    ∃ looks d, t.after index shapes = t.renewed index looks d ∧ t.creations index shapes = 1 ∧
      .ok d ∈ shapes ∧ (0 < looks → ∃ f, .error f ∈ shapes) := by
  induction shapes with
  | nil =>
    refine Or.inl ⟨?_, rfl, fun _ => List.not_mem_nil⟩
    unfold peeked
    rw [List.length_nil, List.replicate_zero, List.append_nil]
    rfl
  | cons shape earlier ih =>
    unfold after creations
    rcases ih with ⟨hafter, hnone, hfails⟩ | ⟨looks, d, hafter, hone, hok, hlooks⟩
    · rw [hafter, hnone, verdict_of_bad ((isGood_peeked _).trans h)]
      rcases shape with f | d
      · refine Or.inl ⟨visited_error h _ f, rfl, fun d hd => ?_⟩
        rcases List.mem_cons.mp hd with hd | hd
        · cases hd
        · exact hfails d hd
      · refine Or.inr ⟨earlier.length, d, visited_ok h _ d, rfl, List.mem_cons_self, fun hlen => ?_⟩
        obtain ⟨first, rest, rfl⟩ := List.exists_cons_of_length_pos hlen
        rcases first with f | d'
        · exact ⟨f, List.mem_cons_of_mem _ List.mem_cons_self⟩
        · exact absurd List.mem_cons_self (hfails d')
    · have hknown : (t.renewed index looks d).known = true := rfl
      rw [hafter, hone, verdict_of_good (isGood_of_known hknown)]
      obtain hlooks : 0 < looks → ∃ f, .error f ∈ shape :: earlier := fun hpos =>
        (hlooks hpos).imp fun _ => List.mem_cons_of_mem _
      exact Or.inr ⟨looks, d, visited_of_known hknown shape, rfl, List.mem_cons_of_mem _ hok, hlooks⟩

end IndexTrace

end TenantSearch
