-- The parts of an index name, and of a list of names between commas. Letter
-- case changes neither the entity of a name nor where a list is taken apart.
import TenantSearch.Index.Target
import TenantSearch.Proofs.Dividers
import TenantSearch.Text.Blank

namespace TenantSearch

/-! ## Pieces between commas -/

/-- One more character of the loop of `piecesBy`. -/
def pieceStep (p : Char → Bool) (state : List (List Char) × List Char) (c : Char) :
    List (List Char) × List Char :=
  if p c then (state.2.reverse :: state.1, []) else (state.1, c :: state.2)

theorem foldl_pieceStep (p : Char → Bool) (cs : List Char) (done : List (List Char))
    (current : List Char) :
    ((cs.foldl (pieceStep p) (done, current)).2.reverse ::
        (cs.foldl (pieceStep p) (done, current)).1).reverse =
      done.reverse ++ cs.splitOnPPrepend p current := by
  induction cs generalizing done current with
  | nil => simp
  | cons c cs ih =>
    rw [List.foldl_cons, List.splitOnPPrepend_cons_eq_if]
    by_cases h : p c = true
    · have hstep : pieceStep p (done, current) c = (current.reverse :: done, []) := by
        simp [pieceStep, h]
      rw [hstep, ih, if_pos h]
      simp
    · have hstep : pieceStep p (done, current) c = (done, c :: current) := by
        simp [pieceStep, h]
      rw [hstep, ih, if_neg h]

theorem piecesBy_eq_splitOnP (p : Char → Bool) (cs : List Char) :
    piecesBy p cs = cs.splitOnP p := foldl_pieceStep p cs [] []

theorem mem_commaPieces (s piece : String) :
    piece ∈ commaPieces s ↔ piece.toList ∈ s.toList.splitOnP (· == ',') := by
  unfold commaPieces
  rw [piecesBy_eq_splitOnP, List.mem_map]
  constructor
  · rintro ⟨cs, hcs, rfl⟩
    rwa [String.toList_ofList]
  · intro h
    exact ⟨_, h, String.ofList_toList⟩

theorem not_mem_of_mem_splitOnP {d : Char} {cs piece : List Char}
    (h : piece ∈ cs.splitOnP (· == d)) : d ∉ piece := by
  rcases eq_or_append_of_char d cs with hd | ⟨a, b, rfl, ha⟩
  · rw [splitOnP_eq_self hd, List.mem_singleton] at h
    exact h ▸ hd
  · rw [splitOnP_append ha, List.mem_cons] at h
    rcases h with rfl | h
    · exact ha
    · exact not_mem_of_mem_splitOnP h
termination_by cs.length

/-- The pieces of the lower case are the lower cases of the pieces. -/
theorem mem_commaPieces_lower (s piece : String) :
    piece ∈ commaPieces (lower s) ↔ ∃ raw ∈ commaPieces s, piece = lower raw := by
  rw [mem_commaPieces, toList_lower, isDivider_comma.splitOnP_lowerChars, List.mem_map]
  constructor
  · rintro ⟨cs, hcs, hpiece⟩
    refine ⟨String.ofList cs, ?_, ?_⟩
    · rwa [mem_commaPieces, String.toList_ofList]
    · rw [lower_ofList, hpiece, String.ofList_toList]
  · rintro ⟨raw, hraw, rfl⟩
    exact ⟨raw.toList, (mem_commaPieces s raw).mp hraw, (toList_lower raw).symm⟩

theorem splitOnP_intercalate (d : Char) (first : List Char) (rest : List (List Char)) :
    ([d].intercalate (first :: rest)).splitOnP (· == d) =
      (first :: rest).flatMap (·.splitOnP (· == d)) := by
  induction rest generalizing first with
  | nil => simp
  | cons next rest ih =>
    rw [List.intercalate_cons_cons, List.append_assoc, List.singleton_append,
      List.splitOnP_append_cons _ _ (by simp), ih]
    simp only [List.flatMap_cons]

/-- A list of names joined with commas falls apart into the pieces of all. -/
theorem mem_commaPieces_intercalate {names : List String} (h : names ≠ []) (piece : String) :
    piece ∈ commaPieces (",".intercalate names) ↔ ∃ name ∈ names, piece ∈ commaPieces name := by
  obtain ⟨first, rest, rfl⟩ := List.exists_cons_of_ne_nil h
  rw [mem_commaPieces, String.toList_intercalate, List.map_cons]
  have hcomma : ",".toList = [','] := by decide
  rw [hcomma, splitOnP_intercalate, ← List.map_cons (f := String.toList), List.mem_flatMap]
  simp only [List.mem_map, exists_exists_and_eq_and, mem_commaPieces]

/-! ## The entity of a name -/

namespace IndexTarget

/-- The part of a name before the first underscore. -/
def entityPart (name : String) : List Char := name.toList.takeWhile (· != '_')

/-- Whether anything follows the first underscore. -/
def hasSubtype (name : String) : Bool := !((name.toList.dropWhile (· != '_')).drop 1).isEmpty

theorem toList_entityOf (name : String) : (entityOf name).toList = lowerChars (entityPart name) := by
  unfold entityOf parse entityPart
  rw [toList_lower, String.toList_ofList]

theorem entityPart_lower (name : String) : entityPart (lower name) = lowerChars (entityPart name) := by
  unfold entityPart
  rw [toList_lower, isDivider_underscore.takeWhile_lowerChars]

@[simp]
theorem entityOf_lower (name : String) : entityOf (lower name) = entityOf name := by
  rw [← String.toList_inj, toList_entityOf, toList_entityOf, entityPart_lower, lowerChars_lowerChars]

@[simp]
theorem hasSubtype_lower (name : String) : hasSubtype (lower name) = hasSubtype name := by
  unfold hasSubtype
  rw [toList_lower, isDivider_underscore.dropWhile_lowerChars]
  rcases eq_or_append_of_char '_' name.toList with h | ⟨a, b, hab, ha⟩
  · rw [dropWhile_ne_of_not_mem h]
    rfl
  · rw [hab, dropWhile_ne_append b ha, isDivider_underscore.lowerChars_cons, List.drop_one,
      List.drop_one, List.tail_cons, List.tail_cons]
    congr 1
    rw [Bool.eq_iff_iff, List.isEmpty_iff, List.isEmpty_iff, lowerChars_eq_nil]

theorem parse_of_not_mem {name : String} (h : '_' ∉ name.toList) : parse name = ⟨name, .null⟩ := by
  simp [parse, takeWhile_ne_of_not_mem h, dropWhile_ne_of_not_mem h]

theorem parse_of_append {name : String} {a b : List Char} (hname : name.toList = a ++ '_' :: b)
    (ha : '_' ∉ a) :
    parse name = ⟨String.ofList a, if b.isEmpty then .null else .str (String.ofList b)⟩ := by
  simp only [parse, hname, takeWhile_ne_append b ha, dropWhile_ne_append b ha, List.drop_one,
    List.tail_cons]

/-- A name stands for its subtype's index, or for its entity's when nothing
follows the underscore. -/
theorem name_parse (name : String) :
    (parse name).name = if hasSubtype name then lower name else entityOf name := by
  unfold entityOf hasSubtype
  rcases eq_or_append_of_char '_' name.toList with h | ⟨a, b, hab, ha⟩
  · rw [parse_of_not_mem h, dropWhile_ne_of_not_mem h]
    rfl
  · rw [parse_of_append hab ha, hab, dropWhile_ne_append b ha]
    cases b with
    | nil => rfl
    | cons c b =>
      have hname : String.ofList a ++ "_" ++ String.ofList (c :: b) = name := by
        rw [← String.toList_inj, hab]
        simp
      have hgiven : (Json.str (String.ofList (c :: b))).given = true := by simp [Json.given]
      simp only [IndexTarget.name, List.isEmpty_cons, Bool.false_eq_true, if_false, hgiven, if_true,
        Json.text, hname, List.drop_one, List.tail_cons, Bool.not_false]

end IndexTarget

end TenantSearch
