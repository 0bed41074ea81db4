-- Lists of named values, as documents and the search engine keep them: what
-- stands under a name after another value was put in its place.
import TenantSearch.World.SearchEngine

namespace TenantSearch

variable {α : Type}

/-- The value under a name: the first one. -/
def valueUnder (pairs : List (String × α)) (name : String) : Option α :=
  (pairs.find? (·.1 == name)).map (·.2)

theorem valueUnder_cons (pair : String × α) (pairs : List (String × α)) (name : String) :
    valueUnder (pair :: pairs) name =
      if pair.1 = name then some pair.2 else valueUnder pairs name := by
  unfold valueUnder
  rw [List.find?_cons]
  by_cases h : pair.1 = name
  · simp [h]
  · have hne : (pair.1 == name) = false := by simpa using h
    simp [h, hne]

theorem valueUnder_append (pairs more : List (String × α)) (name : String) :
    valueUnder (pairs ++ more) name = (valueUnder pairs name).or (valueUnder more name) := by
  induction pairs with
  | nil => simp [valueUnder]
  | cons pair pairs ih =>
    rw [List.cons_append, valueUnder_cons, valueUnder_cons, ih]
    split
    · rfl
    · rfl

theorem valueUnder_isSome (pairs : List (String × α)) (name : String) :
    (valueUnder pairs name).isSome = pairs.any (·.1 == name) := by
  unfold valueUnder
  rw [Bool.eq_iff_iff]
  simp

/-- Pairs whose names are all kept, with one value in the place of another. -/
theorem valueUnder_replaced (pairs : List (String × α)) (name other : String) (v : α) :
    valueUnder (pairs.map fun p => if p.1 == name then (name, v) else p) other =
      if other = name ∧ (valueUnder pairs name).isSome then some v else valueUnder pairs other := by
  induction pairs with
  | nil => simp [valueUnder]
  | cons pair pairs ih =>
    rw [List.map_cons, valueUnder_cons, valueUnder_cons, valueUnder_cons, ih]
    by_cases hpair : pair.1 = name
    · subst hpair
      by_cases hother : other = pair.1
      · subst hother
        simp
      · have hother' : ¬ pair.1 = other := fun h => hother h.symm
        simp [hother, hother']
    · have hne : (pair.1 == name) = false := by simpa using hpair
      by_cases hother : pair.1 = other
      · subst hother
        simp [hpair]
      · simp [hpair, hother]

theorem valueUnder_place (name other : String) (v : α) (pairs : List (String × α)) :
    valueUnder (SearchEngine.place name v pairs) other =
      if other = name then some v else valueUnder pairs other := by
  unfold SearchEngine.place
  rw [← valueUnder_isSome]
  by_cases hthere : (valueUnder pairs name).isSome = true
  · rw [if_pos hthere, valueUnder_replaced]
    simp [hthere]
  · rw [if_neg hthere, valueUnder_append]
    have hnone : valueUnder pairs name = none := by simpa using hthere
    by_cases hother : other = name
    · subst hother
      rw [hnone, valueUnder_cons]
      simp
    · have hother' : ¬ name = other := fun h => hother h.symm
      rw [valueUnder_cons]
      simp [hother, hother', valueUnder]

theorem valueUnder_filter (keep : String → Bool) (pairs : List (String × α)) (name : String) :
    valueUnder (pairs.filter fun p => keep p.1) name =
      if keep name = true then valueUnder pairs name else none := by
  induction pairs with
  | nil => simp [valueUnder]
  | cons pair pairs ih =>
    rw [List.filter_cons, valueUnder_cons]
    by_cases hname : pair.1 = name
    · subst hname
      by_cases hkeep : keep pair.1 = true
      · simp [hkeep, valueUnder_cons]
      · simp [hkeep, ih]
    · by_cases hkeep : keep pair.1 = true
      · simp [hkeep, valueUnder_cons, hname, ih]
      · simp [hkeep, hname, ih]

end TenantSearch
