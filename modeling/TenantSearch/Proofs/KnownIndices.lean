-- What is known of indices while requests run side by side. Whatever order their
-- steps come in and whatever calls fail, an index that is known to be good is
-- live and compatible, and its state is good just when it is known.
import TenantSearch.Proofs.SideBySide

namespace TenantSearch

/-! ## Known indices -/

/-- A sound mapping is there and gives its identifiers as keywords. -/
theorem exists_of_isSound {mapping? : Option Json} (h : isSound mapping? = true) :
    ∃ mapping types, mapping? = some mapping ∧ Engine.fieldTypes mapping = .ok types ∧
      types.find? (·.1 == "id") = some ("id", .str "keyword") := by
  rcases mapping? with _ | mapping
  · cases h
  · unfold isSound at h
    dsimp only at h
    rcases htypes : Engine.fieldTypes mapping with b | types
    · rw [htypes] at h
      cases h
    · rw [htypes] at h
      refine ⟨mapping, types, rfl, htypes, ?_⟩
      unfold Index.isCompatible at h
      dsimp only at h
      rcases hid : types.find? (·.1 == "id") with _ | ⟨name, type⟩
      · rw [hid] at h
        cases h
      · have hname : name = "id" := by simpa using List.find?_some hid
        rw [hid] at h
        cases type with
        | str type =>
          have htype : type = "keyword" := by simpa using h
          rw [hname, htype] at hid
          exact hid
        | _ => cases h

/-- Requests side by side that start with an empty memory: in whatever order
their steps come and whatever calls fail, before or after they took effect, an
index that is known is live with keywords for its identifiers, and the indices
whose state is good are those that are known. -/
theorem known_indices_are_live_and_good {requests : List IndexRequest} {w : World}
    (fresh : w.memory = {}) {t : Crew} (reached : (Crew.start requests w).Reached t)
    (index : String) :
    (t.world.memory.knows index = true → ∃ mapping types,
      t.world.engine.mapping? index = some mapping ∧ Engine.fieldTypes mapping = .ok types ∧
        types.find? (·.1 == "id") = some ("id", .str "keyword")) ∧
      (t.world.memory.stateOf index = .good ↔ t.world.memory.knows index = true) := by
  obtain ⟨guards, hstart⟩ := Crew.keeps_start requests (World.honest_of_fresh fresh)
  obtain ⟨guards', hkeeps⟩ := reached.keeps hstart
  obtain ⟨hlive, hhonest⟩ := hkeeps.honest index
  refine ⟨fun hknown => exists_of_isSound (hlive hknown), ?_⟩
  unfold IndexMemory.stateOf
  by_cases hknown : t.world.memory.knows index = true
  · rw [if_pos hknown]
    exact ⟨fun _ => hknown, fun _ => rfl⟩
  · rw [if_neg hknown]
    exact ⟨hhonest, fun h => absurd h hknown⟩

/-- An index for events with identifiers that are not keywords, which the engine
refuses to delete once. -/
def stubbornEvents : World where
  circumstances := morning
  engine := { mappings := [("event", .obj [("properties", .obj [("id", .obj
    [("type", .str "text")])])])] }
  plans := [⟨"indices.delete", .refused, 0, some 1⟩]

/-- Two wishes for the same index. -/
def rivals : List IndexRequest :=
  [.ensure (.str "sol-1") "Event" .null false, .ensure (.str "sol-2") "Event" (.str "Concert") false]

/-- The rivals in turn, with a pause at every call. -/
def rivalTurns (n : Nat) : Turns Unit :=
  (Turns.start (rivals.map (·.program)) stubbornEvents).follow .always (List.replicate n 0)

/-- The first rival fails to delete the index; then the second, which waited for
the lock, creates it anew. -/
theorem rivals_leave_a_known_index_live :
    stubbornEvents.memory = {} ∧ ∃ t, (Crew.start rivals stubbornEvents).Reached t ∧
      t.world = (rivalTurns 30).world ∧ (∃ mapping types,
        t.world.engine.mapping? "event" = some mapping ∧ Engine.fieldTypes mapping = .ok types ∧
          types.find? (·.1 == "id") = some ("id", .str "keyword")) ∧
      t.world.memory.stateOf "event" = .good := by
  have hfresh : stubbornEvents.memory = {} := rfl
  obtain ⟨t, hreached, hworld⟩ := Turns.follow_reached rivals (World.honest_of_fresh hfresh)
    .always (List.replicate 30 0)
  have hknown : t.world.memory.knows "event" = true := by
    rw [hworld]
    decide +kernel
  obtain ⟨hlive, hgood⟩ := known_indices_are_live_and_good hfresh hreached "event"
  exact ⟨hfresh, t, hreached, hworld, hlive hknown, hgood.mpr hknown⟩

end TenantSearch
