-- A write looks its row up and then commits the document over what it found. Where each
-- commit comes right after a step of its own caller, nobody came in between: the row stands
-- as it was looked up, and both steps are one save.
import Mathlib.Data.List.Chain
import TenantSearch.Proofs.Courses

namespace TenantSearch

open Service

/-! ## Commits right after their lookups -/

/-- A program knows what its last step looked up, the identifier and the row that was found, and
commits over that only. -/
def pairing : Discipline (Option (Json × Option Record)) where
  allows
    | x, .call (.database (.commit found document _)) => x = some (document.look "id", found)
    | _, _ => True
  passes
    | _, .call (.database (.lookUp id)), .ok found, x' => x' = some (id, found)
    | _, _, _, x' => x' = none

/-- Every call but a commit. -/
def uncommitted : Contract := .only fun
  | .database (.commit ..) => False
  | _ => True

theorem uncommitted_frees : uncommitted.Frees where
  other c hc := by
    cases c with
    | database c =>
      cases c with
      | commit found document stamp => cases hc
      | _ => trivial
    | _ => trivial
  create _ _ := trivial

/-- A program that never commits keeps to any pairing. -/
theorem Prog.Keeps.pairs {α : Type} {post : α → Prop} {p : Prog α} (h : p.Keeps uncommitted post)
    (x : Option (Json × Option Record)) : p.Obeys pairing (fun _ _ => True) x := by
  induction p generalizing x with
  | done a => trivial
  | step s next ih =>
    refine ⟨?_, fun r x' _ => ih r ?_ x'⟩
    · cases s with
      | call c =>
        cases c with
        | database c =>
          cases c with
          | commit found document stamp => exact h.1.elim
          | _ => trivial
        | _ => trivial
      | _ => trivial
    · cases s with
      | call c => exact h.2 r fun _ _ => trivial
      | _ => exact h r

namespace Service

variable {α β : Type}

/-- Whatever was looked up before, the service commits only over what it looked up right before. -/
def Pairs (x : Service α) : Prop := ∀ looked, x.Obeys pairing looked fun _ _ => True

theorem Within.pairs {x : Service α} (h : x.Within uncommitted) : x.Pairs := by
  unfold Within Keeps at h
  exact fun looked => h.pairs looked

theorem pairs_pure (a : α) : (pure a : Service α).Pairs := fun _ => trivial

theorem pairs_orFail (outcome : Except Failure α) : (orFail outcome).Pairs := fun _ => trivial

theorem pairs_orBroken (outcome : Except Breakage α) : (orBroken outcome).Pairs := fun _ => trivial

theorem Pairs.bind {x : Service α} {f : α → Service β} (hx : x.Pairs) (hf : ∀ a, (f a).Pairs) :
    (x >>= f).Pairs := by
  intro looked
  refine (obeys_bind _ _ _ _).mpr ((hx looked).mono fun r looked _ => ?_)
  rcases r with e | a
  · trivial
  · exact hf a looked

theorem Pairs.attempt {x : Service α} (hx : x.Pairs) : (attempt x).Pairs := fun looked =>
  (obeys_attempt _ _ _).mpr ((hx looked).mono fun _ _ _ => trivial)

end Service

theorem upsert_pairs (document : Fields) : (Indexing.upsert document).Pairs :=
  (upsert_within uncommitted_frees fun _ _ _ _ => trivial).pairs

theorem write_pairs (document : Fields) : (Store.write document).Pairs := by
  refine (pairs_orFail _).bind fun stamp looked => ?_
  refine (obeys_bind _ _ _ _).mpr ((obeys_call _ _ _ _).mpr ⟨trivial, fun found looked h => ?_⟩)
  rcases found with o | found
  · trivial
  · obtain rfl : looked = some (document.look "id", found) := h
    refine (obeys_bind _ _ _ _).mpr ((obeys_call _ _ _ _).mpr ⟨rfl, fun saved looked _ => ?_⟩)
    rcases saved with o | saved
    · trivial
    · have hfollow : (Indexing.follow saved).Pairs :=
        (upsert_pairs saved).attempt.bind fun _ => pairs_pure _
      exact (hfollow.bind fun _ => pairs_pure saved) looked

theorem visit_pairs (counts : BucketCounts) (document : Fields) :
    (Reindex.visit counts document).Pairs := by
  have hrecord : (Reindex.record document).Pairs := by
    refine (lookUpSchema_within uncommitted_frees _ _ _).pairs.bind fun schema => ?_
    refine (keeps_ask (by simp)).within.pairs.bind fun here => ?_
    exact (pairs_orBroken _).bind fun refreshed => write_pairs refreshed
  unfold Reindex.visit
  split
  · exact pairs_pure _
  · refine hrecord.attempt.bind fun r => ?_
    rcases r with f | saved
    · exact pairs_pure _
    · exact pairs_pure _

theorem visitAll_pairs (counts : BucketCounts) (documents : List Fields) :
    (Reindex.visitAll counts documents).Pairs := by
  induction documents generalizing counts with
  | nil => exact pairs_pure _
  | cons document rest ih => exact (visit_pairs counts document).bind fun counts => ih counts

theorem foldFrom_pairs (s : Store.Scan) (fuel : Nat) (after : String) (counts : BucketCounts) :
    (s.foldFrom Reindex.visitAll fuel after counts).Pairs := by
  induction fuel generalizing after counts with
  | zero => exact pairs_pure _
  | succ fuel ih =>
    have hpage : (s.page after).Pairs := by
      refine (pairs_orBroken _).bind fun limit => ?_
      exact (keeps_call (uncommitted_frees.other _ rfl) _).within.pairs
    refine hpage.bind fun rows => ?_
    split
    · exact pairs_pure _
    · refine (visitAll_pairs _ _).bind fun counts => (pairs_orBroken _).bind fun short => ?_
      split
      · exact pairs_pure _
      · exact ih _ _

theorem stale_pairs (solutionId entityName pageSize : Json) (cutoff : Option Timestamp) :
    (Reindex.stale solutionId entityName pageSize cutoff).Pairs := by
  have hrun (cutoff : Timestamp) :
      (Reindex.run { solutionId, cutoff, entityName, pageSize }).Pairs :=
    (keeps_ask (by simp)).within.pairs.bind fun rows => foldFrom_pairs _ _ _ _
  cases cutoff with
  | some cutoff => exact hrun cutoff
  | none => exact usualCutoff_within.pairs.bind hrun

/-- Every call commits only over what it looked up right before. -/
theorem IndexingCall.obeys_pairing (c : IndexingCall) :
    c.program.Obeys pairing (fun _ _ => True) none := by
  have hlast {α : Type} {x : Service α} (hx : x.Pairs) :
      ((fun _ => ()) <$> x.run : Prog Unit).Obeys pairing (fun _ _ => True) none :=
    (Prog.obeys_bind _ _ _ _).mpr ((hx none).mono fun _ _ _ => trivial)
  cases c with
  | upsert document => exact hlast (upsert_pairs document)
  | write document => exact hlast (write_pairs document)
  | reindex solutionId entityName pageSize cutoff => exact hlast (stale_pairs _ _ _ _)

/-! ## Undivided courses -/

namespace Act

/-- Whether an act commits a document. -/
def isCommit (a : Act) : Bool :=
  match a.step with
  | .call (.database (.commit ..)) => true
  | _ => false

end Act

/-- Each commit comes right after a step of its own caller. So the lookup of a row and the commit
over it are one step to everybody else. -/
def Undivided (acts : List Act) : Prop :=
  acts.IsChain fun a b => b.isCommit = true → a.actor = b.actor

instance (acts : List Act) : Decidable (Undivided acts) := by
  unfold Undivided
  infer_instance

theorem Undivided.snoc {acts : List Act} {b : Act} (h : Undivided (acts ++ [b])) :
    Undivided acts ∧ (b.isCommit = true → ∀ a, acts.getLast? = some a → a.actor = b.actor) := by
  obtain ⟨hacts, -, hlast⟩ := List.isChain_append.mp h
  exact ⟨hacts, fun hb a ha => hlast a ha b rfl hb⟩

variable {frail : Call → Prop} {w w' : World}

/-- What a program looked up, if it took the last step. -/
def Current (acts : List Act) (w : World) (looked : Nat → Option (Json × Option Record)) : Prop :=
  ∀ number id found, looked number = some (id, found) →
    (∀ a, acts.getLast? = some a → a.actor = number) → w.records.rowOf id = .ok found

/-- What was looked up last is current, and nothing else is known. -/
theorem Current.step {acts : List Act} {looked : Nat → Option (Json × Option Record)}
    {number : Nat} {s : Step} {r : s.Reply} (meets : w.MeetsAmid frail s r w') :
    ∃ after, pairing.passes (looked number) s r after ∧
      Current (acts ++ [⟨number, s, r, w, w'⟩]) w' (Function.update looked number after) := by
  have hcurrent {after : Option (Json × Option Record)}
      (hafter : ∀ id found, after = some (id, found) → w'.records.rowOf id = .ok found) :
      Current (acts ++ [⟨number, s, r, w, w'⟩]) w' (Function.update looked number after) := by
    intro other id found hlooked hlast
    obtain rfl : number = other := hlast _ List.getLast?_concat
    rw [Function.update_self] at hlooked
    exact hafter id found hlooked
  have hnone : Current (acts ++ [⟨number, s, r, w, w'⟩]) w' (Function.update looked number none) :=
    hcurrent nofun
  cases s with
  | call c =>
    cases c with
    | database c =>
      cases c with
      | lookUp id =>
        rcases r with o | found
        · exact ⟨none, rfl, hnone⟩
        · refine ⟨some (id, found), rfl, hcurrent ?_⟩
          rintro _ _ ⟨⟩
          exact meets.lookUp
      | _ => exact ⟨none, rfl, hnone⟩
    | _ => exact ⟨none, rfl, hnone⟩
  | _ => exact ⟨none, rfl, hnone⟩

/-- A commit that comes right after a step of its own caller finds the row as it was looked up. -/
theorem Crew.Course.rowOf_of_commit {calls : List IndexingCall} {u : Crew} {acts : List Act}
    (h : (begin (calls.map (·.program)) w).Course (World.MeetsAmid frail) acts u) {number : Nat}
    {found : Option Record} {document : Fields} {stamp : Option Timestamp}
    {next : Step.Reply (.call (.database (.commit found document stamp))) → Prog Unit}
    (turn : u.programs[number]? =
      some (.step (.call (.database (.commit found document stamp))) next))
    (own : ∀ a, acts.getLast? = some a → a.actor = number) :
    u.world.records.rowOf (document.look "id") = .ok found := by
  have hpairs (number : Nat) (p : Prog Unit) (hp : (calls.map (·.program))[number]? = some p) :
      p.Obeys pairing (fun _ _ => True) none := by
    rw [List.getElem?_map] at hp
    obtain ⟨c, -, rfl⟩ := Option.map_eq_some_iff.mp hp
    exact c.obeys_pairing
  obtain ⟨looked, hcurrent, hobeys⟩ :=
    h.obeys (fun acts _ w looked => Current acts w looked) (fun _ => none) hpairs nofun
      fun _ _ _ _ meets => Current.step meets
  exact hcurrent number _ _ (hobeys number _ turn).1 own

end TenantSearch
