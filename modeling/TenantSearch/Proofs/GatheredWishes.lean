-- Wishes that indices be made sure of, side by side and without outages. In whatever
-- order their steps come, an index that is missing or not compatible is created
-- once, and a compatible one is left as it is.
import TenantSearch.Proofs.IndexVisits
import TenantSearch.Proofs.SideBySide

namespace TenantSearch

/-! ## Wishes side by side -/

/-- Wishes that run side by side, the locks that are held, and the world. -/
structure Gathering where
  programs : List (Prog (Except Failure (List String)))
  held : List String
  world : World

/-- The targets of a wish, which are none where it names no entity. -/
def EnsureWish.targets (e : EnsureWish) : List IndexTarget :=
  match Index.entityNameOf e.entityName with
  | .ok name => IndexTarget.writeTargets name e.entityType
  | .error _ => []

namespace Gathering

/-- Wishes that have not begun. -/
def start (wishes : List EnsureWish) (w : World) : Gathering where
  programs := wishes.map (·.program)
  held := []
  world := w

/-- One of the wishes takes a step. -/
inductive Goes : Gathering → Gathering → Prop
  | step {before after : List (Prog (Except Failure (List String)))} {s : Step}
      {next : s.Reply → Prog (Except Failure (List String))} {r : s.Reply}
      {held held' : List String} {w w' : World} (locks : Locks s held held')
      (meets : w.Meets noCall s r w') :
    Goes ⟨before ++ .step s next :: after, held, w⟩ ⟨before ++ next r :: after, held', w'⟩

/-- What wishes side by side can come to. -/
inductive Reached (t : Gathering) : Gathering → Prop
  | start : Reached t t
  | next {u v : Gathering} (reached : Reached t u) (goes : Goes u v) : Reached t v

/-! ## Where a wish stands -/

/-- The rest of a wish that has created these indices and has these targets to come. -/
def pending (solutionId : Json) (made : List String) (rest : List IndexTarget) :
    Prog (Except Failure (List String)) :=
  (Index.ensureEach solutionId false rest).run.bind fun r => .done (r.map (made ++ ·))

/-- The rest of a wish that has made sure of an index: it gives back the lock and goes
on to the next one. -/
def leaving (solutionId : Json) (made : List String) (target : IndexTarget)
    (rest : List IndexTarget) (r : Except Failure Bool) : Prog (Except Failure (List String)) :=
  .step (.release target.name) fun _ => match r with
    | .ok created => pending solutionId (if created then made ++ [target.name] else made) rest
    | .error f => .done (.error f)

theorem pending_nil (solutionId : Json) (made : List String) :
    pending solutionId made [] = .done (.ok made) := by
  have hnil : pending solutionId made [] = .done (.ok (made ++ [])) := rfl
  rw [hnil, List.append_nil]

theorem run_locked {α : Type} (index : String) (x : Service α) :
    (Service.locked index x).run =
      .step (.acquire index) fun _ => x.run.bind fun r => .step (.release index) fun _ => .done r := by
  have hlocked : (Service.locked index x).run = .step (.acquire index) fun _ =>
      ExceptT.run (Service.attempt x >>= fun r => do
        Service.ask (.release index)
        Service.orFail r) := rfl
  have hattempt : (Service.attempt x).run = x.run.bind fun r => .done (.ok r) := rfl
  rw [hlocked]
  refine congrArg (Prog.step _) (funext fun _ => ?_)
  rw [ExceptT.run_bind, hattempt]
  refine (Prog.bind_assoc _ _ _).trans ?_
  rfl

theorem pending_cons (solutionId : Json) (made : List String) (target : IndexTarget)
    (rest : List IndexTarget) : pending solutionId made (target :: rest) =
      .step (.acquire target.name) fun _ =>
        (Index.ensuring solutionId target).run.bind (leaving solutionId made target rest) := by
  unfold pending Index.ensureEach
  rw [ExceptT.run_bind, ensureOne_eq, run_locked]
  refine congrArg (Prog.step _) (funext fun _ => ?_)
  refine (Prog.bind_assoc _ _ _).trans ?_
  refine (Prog.bind_assoc _ _ _).trans ?_
  refine congrArg (Prog.bind _) (funext fun r => ?_)
  refine congrArg (Prog.step _) (funext fun _ => ?_)
  rcases r with f | created
  · rfl
  · have hmapped (r : Except Failure (List String)) :
        (r.map fun others => if created then target.name :: others else others).map (made ++ ·) =
          r.map ((if created then made ++ [target.name] else made) ++ ·) := by
      rcases r with f | others
      · rfl
      · rcases created with _ | _
        · rfl
        · exact congrArg Except.ok (List.append_assoc made [target.name] others).symm
    have hrest : (Index.ensureEach solutionId false rest >>= fun others =>
        pure (if created then target.name :: others else others)).run =
          (Index.ensureEach solutionId false rest).run.bind fun r =>
            .done (r.map fun others => if created then target.name :: others else others) := by
      rw [ExceptT.run_bind]
      refine congrArg (Prog.bind _) (funext fun r => ?_)
      rcases r with f | others
      · rfl
      · rfl
    refine (congrArg (Prog.bind · _) hrest).trans ?_
    refine (Prog.bind_assoc _ _ _).trans ?_
    exact congrArg (Prog.bind _) (funext fun r => congrArg Prog.done (hmapped r))

/-- Where a wish stands: between two targets, at a target under its lock with so much
left to do there, or where it failed. -/
inductive Stand where
  | between (made : List String) (rest : List IndexTarget)
  | inside (made : List String) (target : IndexTarget) (rest : List IndexTarget)
      (left : Prog (Except Failure Bool))
  | failed (made : List String) (f : Failure)

namespace Stand

/-- What a wish has left to do. -/
def program (solutionId : Json) : Stand → Prog (Except Failure (List String))
  | between made rest => pending solutionId made rest
  | inside made target rest left => left.bind (leaving solutionId made target rest)
  | failed _ f => .done (.error f)

def lock? : Stand → Option String
  | inside _ target _ _ => some target.name
  | _ => none

/-- The indices that were created so far. -/
def made : Stand → List String
  | between made _ => made
  | inside made _ _ _ => made
  | failed made _ => made

/-- The targets that are not made sure of yet. -/
def ahead : Stand → List IndexTarget
  | between _ rest => rest
  | inside _ target rest _ => target :: rest
  | failed _ _ => []

/-- Where a wish stands after a target. -/
def next (made : List String) (target : IndexTarget) (rest : List IndexTarget) :
    Except Failure Bool → Stand
  | .ok created => between (if created then made ++ [target.name] else made) rest
  | .error f => failed made f

theorem lock?_next (made : List String) (target : IndexTarget) (rest : List IndexTarget)
    (r : Except Failure Bool) : (next made target rest r).lock? = none := by
  rcases r with f | created
  · rfl
  · rfl

end Stand

theorem leaving_eq (solutionId : Json) (made : List String) (target : IndexTarget)
    (rest : List IndexTarget) (r : Except Failure Bool) : leaving solutionId made target rest r =
      .step (.release target.name) fun _ => (Stand.next made target rest r).program solutionId := by
  rcases r with f | created
  · rfl
  · rfl

/-- What a wish has left to do where it can go on: it comes to a target, does something
there, or gives back the lock. -/
inductive Stand.Steps (solutionId : Json) : Stand → Prog (Except Failure (List String)) → Prop
  | enter {made : List String} {target : IndexTarget} {rest : List IndexTarget} :
      Steps solutionId (.between made (target :: rest)) (.step (.acquire target.name) fun _ =>
        (Index.ensuring solutionId target).run.bind (leaving solutionId made target rest))
  | work {made : List String} {target : IndexTarget} {rest : List IndexTarget} {s : Step}
      {next : s.Reply → Prog (Except Failure Bool)} :
      Steps solutionId (.inside made target rest (.step s next)) (.step s fun r =>
        (next r).bind (leaving solutionId made target rest))
  | leave {made : List String} {target : IndexTarget} {rest : List IndexTarget}
      {r : Except Failure Bool} :
      Steps solutionId (.inside made target rest (.done r)) (.step (.release target.name) fun _ =>
        (Stand.next made target rest r).program solutionId)

theorem Stand.steps_of_program {solutionId : Json} {stand : Stand} {s : Step}
    {next : s.Reply → Prog (Except Failure (List String))}
    (h : stand.program solutionId = .step s next) : stand.Steps solutionId (.step s next) := by
  rw [← h]
  cases stand with
  | failed made f => cases h
  | between made rest =>
    dsimp only [Stand.program] at h ⊢
    rcases rest with _ | ⟨target, rest⟩
    · rw [pending_nil] at h
      cases h
    · rw [pending_cons]
      exact .enter
  | inside made target rest left =>
    dsimp only [Stand.program]
    cases left with
    | done r =>
      have hleaving : (Prog.done r).bind (leaving solutionId made target rest) =
          leaving solutionId made target rest r := rfl
      rw [hleaving, leaving_eq]
      exact .leave
    | step s next => exact .work

end Gathering

/-! ## Wishes that can be met -/

/-- What an index is created with for a target of a wish. -/
def World.shapeFor (w : World) (e : EnsureWish) (target : IndexTarget) : Shape :=
  descriptorFor w.definitions e.solutionId target

/-- Somebody among these wishes comes to the index with this shape. -/
def World.Wants (w : World) (wishes : List EnsureWish) (index : String) (shape : Shape) : Prop :=
  ∃ e ∈ wishes, ∃ target ∈ e.targets, target.name = index ∧ w.shapeFor e target = shape

/-- The wish names an entity, and all its targets have descriptors. -/
structure World.Describes (w : World) (e : EnsureWish) : Prop where
  named : ∃ name, Index.entityNameOf e.entityName = .ok name
  shaped : ∀ target ∈ e.targets, ∃ d, w.shapeFor e target = .ok d

namespace Gathering

/-! ## Wishes and where they stand -/

/-- A wish and where it stands. -/
structure Place where
  wish : EnsureWish
  stand : Stand

def Place.program (p : Place) : Prog (Except Failure (List String)) :=
  p.stand.program p.wish.solutionId

/-- What is left to do at a target makes sure of it, whatever the others do: nobody
else leaves a trace on its index. -/
def Place.Works (p : Place) (start w : World) (visits : String → List Shape) : Prop :=
  match p.stand with
  | .inside _ target _ left =>
    let before := (start.trace target.name).after target.name (visits target.name)
    let shape := start.shapeFor p.wish target
    left.Takes (Step.IsFor target.name) ∧ left.ComesTo target.name w fun r trace =>
      r = before.verdict shape ∧ trace = before.visited target.name shape
  | _ => True

/-- A wish stands where it can: it has visited those of its targets that are not ahead,
unless it failed, and it fails only where it cannot be met. -/
structure Place.Fits (p : Place) (start w : World) (visits : String → List Shape) : Prop where
  ahead : ∀ target ∈ p.stand.ahead, target ∈ p.wish.targets
  made : ∀ index ∈ p.stand.made, ∃ target ∈ p.wish.targets, target.name = index
  visited : ∀ target ∈ p.wish.targets, target ∈ p.stand.ahead ∨
    start.shapeFor p.wish target ∈ visits target.name ∨ ∃ made f, p.stand = .failed made f
  fails : ∀ made f, p.stand = .failed made f → ¬ start.Describes p.wish
  works : p.Works start w visits

/-- The locks that wishes hold. -/
def locksOf (places : List Place) : List String := places.filterMap (·.stand.lock?)

theorem locksOf_middle (first second : List Place) (p : Place) : locksOf (first ++ p :: second) =
    locksOf first ++ (p.stand.lock?.toList ++ locksOf second) := by
  unfold locksOf
  rw [List.filterMap_append, List.filterMap_cons]
  rcases p.stand.lock? with _ | index
  · rfl
  · rfl

/-- Wishes side by side that started in this world, where each of them stands, and who
visited which index, the latest first. -/
structure Keeps (t : Gathering) (wishes : List EnsureWish) (start : World) (places : List Place)
    (visits : String → List Shape) : Prop where
  same : places.map (·.wish) = wishes
  programs : t.programs = places.map (·.program)
  fits : ∀ p ∈ places, p.Fits start t.world visits
  locks : (locksOf places).Perm t.held
  apart : t.held.Nodup
  free : ∀ index, index ∉ t.held →
    t.world.trace index = (start.trace index).after index (visits index)
  made : ∀ index, (places.flatMap (·.stand.made)).count index =
    (start.trace index).creations index (visits index)
  wanted : ∀ index, ∀ shape ∈ visits index, start.Wants wishes index shape

/-! ## What every step keeps -/

section

variable {wishes : List EnsureWish} {start w w' : World} {p q : Place} {first second : List Place}
  {visits visits' : String → List Shape} {held held' : List String}

/-- A wish stands where it can as long as the others leave its index alone. -/
theorem Place.Fits.beside (h : p.Fits start w visits)
    (grows : ∀ index, visits index ⊆ visits' index)
    (away : ∀ index ∈ p.stand.lock?,
      w'.trace index = w.trace index ∧ visits' index = visits index) :
    p.Fits start w' visits' := by
  refine ⟨h.ahead, h.made, fun target htarget => ?_, h.fails, ?_⟩
  · exact (h.visited target htarget).imp_right (Or.imp_left fun hvisit => grows _ hvisit)
  · have hworks := h.works
    obtain ⟨wish, stand⟩ := p
    cases stand with
    | inside made target rest left =>
      obtain ⟨htrace, hvisits⟩ := away target.name rfl
      obtain ⟨htakes, hcomes⟩ := hworks
      refine ⟨htakes, ?_⟩
      rw [hvisits]
      exact hcomes.of_trace htrace
    | _ => trivial

/-- One of the wishes moves on, and the others stand where they stood. -/
theorem Keeps.move {programs : List (Prog (Except Failure (List String)))}
    (h : Keeps ⟨programs, held, w⟩ wishes start (first ++ p :: second) visits)
    (same : q.wish = p.wish) (fits : q.Fits start w' visits')
    (grows : ∀ index, visits index ⊆ visits' index)
    (away : ∀ index ∈ locksOf first ++ locksOf second,
      w'.trace index = w.trace index ∧ visits' index = visits index)
    (locks : (locksOf first ++ (q.stand.lock?.toList ++ locksOf second)).Perm held')
    (apart : held'.Nodup)
    (free : ∀ index, index ∉ held' →
      w'.trace index = (start.trace index).after index (visits' index))
    (made : ∀ index, q.stand.made.count index + (start.trace index).creations index (visits index) =
      p.stand.made.count index + (start.trace index).creations index (visits' index))
    (wanted : ∀ index, ∀ shape ∈ visits' index, start.Wants wishes index shape) :
    Keeps ⟨first.map (·.program) ++ q.program :: second.map (·.program), held', w'⟩ wishes start
      (first ++ q :: second) visits' := by
  have hothers (o : Place) (ho : o ∈ first ++ second) : o.Fits start w' visits' := by
    have hmem : o ∈ first ++ p :: second :=
      List.mem_append.mpr ((List.mem_append.mp ho).imp_right (List.mem_cons_of_mem _))
    refine (h.fits o hmem).beside grows fun index hindex => away index ?_
    unfold locksOf
    rw [← List.filterMap_append]
    exact List.mem_filterMap.mpr ⟨o, ho, hindex⟩
  refine ⟨?_, ?_, ?_, (locksOf_middle first second q).symm ▸ locks, apart, free, ?_, wanted⟩
  · rw [← h.same, List.map_append, List.map_cons, same, List.map_append, List.map_cons]
  · rw [List.map_append, List.map_cons]
  · intro o ho
    rcases List.mem_append.mp ho with ho | ho
    · exact hothers o (List.mem_append_left _ ho)
    · rcases List.mem_cons.mp ho with rfl | ho
      · exact fits
      · exact hothers o (List.mem_append_right _ ho)
  · intro index
    have hbefore := h.made index
    have hmade := made index
    simp only [List.flatMap_append, List.flatMap_cons, List.count_append] at hbefore ⊢
    omega

/-- A lock that a wish holds is held, and by no other wish. -/
theorem Keeps.lock_apart {programs : List (Prog (Except Failure (List String)))}
    (h : Keeps ⟨programs, held, w⟩ wishes start (first ++ p :: second) visits) (index : String)
    (hlock : p.stand.lock? = some index) :
    (index :: (locksOf first ++ locksOf second)).Perm held ∧
      index ∉ locksOf first ++ locksOf second := by
  have hperm := h.locks
  rw [locksOf_middle, hlock, Option.toList_some, List.singleton_append] at hperm
  have hmoved := List.perm_middle.symm.trans hperm
  exact ⟨hmoved, (List.nodup_cons.mp (hmoved.nodup_iff.mpr h.apart)).1⟩

/-- A wish comes to its next target and takes the lock. -/
theorem Keeps.enter {programs : List (Prog (Except Failure (List String)))} {wish : EnsureWish}
    {made : List String} {target : IndexTarget} {rest : List IndexTarget}
    (h : Keeps ⟨programs, held, w⟩ wishes start
      (first ++ ⟨wish, .between made (target :: rest)⟩ :: second) visits)
    (free : target.name ∉ held) :
    Keeps ⟨first.map (·.program) ++ (Index.ensuring wish.solutionId target).run.bind
        (leaving wish.solutionId made target rest) :: second.map (·.program),
      target.name :: held, w⟩ wishes start
      (first ++ ⟨wish, .inside made target rest (Index.ensuring wish.solutionId target).run⟩ ::
        second) visits := by
  have hfits := h.fits _ (List.mem_append_right first List.mem_cons_self)
  have hperm := h.locks
  rw [locksOf_middle] at hperm
  refine h.move (q := ⟨wish, .inside made target rest (Index.ensuring wish.solutionId target).run⟩)
    rfl ⟨hfits.ahead, hfits.made, ?_, nofun, ensuring_takes _ _, ?_⟩ (fun _ _ => id)
    (fun _ _ => ⟨rfl, rfl⟩) ?_ ?_ ?_ (fun _ => rfl) h.wanted
  · exact fun other hother => (hfits.visited other hother).imp_right (Or.imp_right nofun)
  · intro r moments w' hruns
    have htrace := h.free target.name free
    have hshape : descriptorFor (w.trace target.name).definitions wish.solutionId target =
        start.shapeFor wish target := by
      rw [htrace, IndexTrace.definitions_after]
      rfl
    have hgives := ensuring_gives rfl r moments w' hruns
    rw [hshape, htrace] at hgives
    exact hgives
  · exact List.perm_middle.trans (hperm.cons target.name)
  · exact List.nodup_cons.mpr ⟨free, h.apart⟩
  · exact fun index hindex => h.free index (List.not_mem_of_not_mem_cons hindex)

/-- A wish does something at its target, under the lock. -/
theorem Keeps.work {programs : List (Prog (Except Failure (List String)))} {wish : EnsureWish}
    {made : List String} {target : IndexTarget} {rest : List IndexTarget} {s : Step}
    {next : s.Reply → Prog (Except Failure Bool)} {r : s.Reply}
    (h : Keeps ⟨programs, held, w⟩ wishes start
      (first ++ ⟨wish, .inside made target rest (.step s next)⟩ :: second) visits)
    (meets : w.Meets noCall s r w') :
    Keeps ⟨first.map (·.program) ++ (next r).bind (leaving wish.solutionId made target rest) ::
        second.map (·.program), held, w'⟩ wishes start
      (first ++ ⟨wish, .inside made target rest (next r)⟩ :: second) visits := by
  have hfits := h.fits _ (List.mem_append_right first List.mem_cons_self)
  obtain ⟨htakes, hcomes⟩ := hfits.works
  obtain ⟨hperm, hapart⟩ := h.lock_apart target.name rfl
  have hothers (index : String) (hindex : index ≠ target.name) :
      w'.trace index = w.trace index := meets.trace_of_avoids (htakes.1.avoids index hindex)
  refine h.move (q := ⟨wish, .inside made target rest (next r)⟩) rfl
    ⟨hfits.ahead, hfits.made, ?_, nofun, htakes.2 r, hcomes.step meets⟩ (fun _ _ => id)
    ?_ ?_ h.apart ?_ (fun _ => rfl) h.wanted
  · exact fun other hother => (hfits.visited other hother).imp_right (Or.imp_right nofun)
  · exact fun index hindex => ⟨hothers index fun hsame => hapart (hsame ▸ hindex), rfl⟩
  · exact List.perm_middle.trans hperm
  · intro index hindex
    have hother : index ≠ target.name := by
      rintro rfl
      exact hindex (hperm.mem_iff.mp List.mem_cons_self)
    exact (hothers index hother).trans (h.free index hindex)

/-- The visits with one more. -/
def visiting (visits : String → List Shape) (index : String) (shape : Shape) :
    String → List Shape :=
  fun other => if other = index then shape :: visits index else visits other

theorem visiting_self (visits : String → List Shape) (index : String) (shape : Shape) :
    visiting visits index shape index = shape :: visits index := if_pos rfl

theorem visiting_of_ne (visits : String → List Shape) {index other : String} (shape : Shape)
    (h : other ≠ index) : visiting visits index shape other = visits other := if_neg h

theorem subset_visiting (visits : String → List Shape) (index : String) (shape : Shape)
    (other : String) : visits other ⊆ visiting visits index shape other := by
  by_cases hsame : other = index
  · rw [hsame, visiting_self]
    exact List.subset_cons_self _ _
  · rw [visiting_of_ne visits shape hsame]
    exact fun _ => id

/-- A wish notes the index that it created. -/
theorem count_made_next (made : List String) (target : IndexTarget) (rest : List IndexTarget)
    (r : Except Failure Bool) (index : String) : (Stand.next made target rest r).made.count index =
      made.count index + if index = target.name then createdBy r else 0 := by
  rcases r with f | created
  · exact (congrArg (made.count index + ·) (ite_self 0)).symm
  · rcases created with _ | _
    · exact (congrArg (made.count index + ·) (ite_self 0)).symm
    · have hmade : (Stand.next made target rest (.ok true)).made = made ++ [target.name] := rfl
      rw [hmade, List.count_append]
      by_cases hsame : index = target.name
      · rw [if_pos hsame, hsame, List.count_singleton_self]
        rfl
      · rw [if_neg hsame, List.count_eq_zero.mpr fun hin => hsame (List.mem_singleton.mp hin)]

/-- A wish fails at a target only if that has no descriptor. -/
theorem shape_of_verdict_error {before : IndexTrace} {shape : Shape} {f : Failure}
    (h : before.verdict shape = .error f) (d : IndexDescriptor) : shape ≠ .ok d := by
  rintro rfl
  unfold IndexTrace.verdict at h
  split at h
  · cases h
  · cases h

/-- Whatever became of it, a wish stands where it can after its target. -/
theorem Place.Fits.leave {wish : EnsureWish} {made : List String} {target : IndexTarget}
    {rest : List IndexTarget} {left : Prog (Except Failure Bool)} {before : IndexTrace}
    (h : Fits ⟨wish, .inside made target rest left⟩ start w visits) :
    Fits ⟨wish, Stand.next made target rest (before.verdict (start.shapeFor wish target))⟩ start w
      (visiting visits target.name (start.shapeFor wish target)) := by
  have htarget : target ∈ wish.targets := h.ahead target List.mem_cons_self
  rcases hverdict : before.verdict (start.shapeFor wish target) with f | created
  · refine ⟨nofun, h.made, fun _ _ => Or.inr (Or.inr ⟨made, f, rfl⟩), fun _ _ _ hdescribes => ?_,
      trivial⟩
    obtain ⟨d, hd⟩ := hdescribes.shaped target htarget
    exact shape_of_verdict_error hverdict d hd
  · refine ⟨fun other hother => h.ahead other (List.mem_cons_of_mem _ hother), fun index hindex => ?_,
      fun other hother => ?_, nofun, trivial⟩
    · rcases created with _ | _
      · exact h.made index hindex
      · rcases List.mem_append.mp hindex with hbefore | hnew
        · exact h.made index hbefore
        · exact ⟨target, htarget, (List.mem_singleton.mp hnew).symm⟩
    · rcases h.visited other hother with hahead | hvisited | ⟨_, _, hfailed⟩
      · rcases List.mem_cons.mp hahead with rfl | hrest
        · refine Or.inr (Or.inl ?_)
          rw [visiting_self]
          exact List.mem_cons_self
        · exact Or.inl hrest
      · exact Or.inr (Or.inl (subset_visiting _ _ _ _ hvisited))
      · cases hfailed

/-- A wish has made sure of its target, or failed to, and gives back the lock. -/
theorem Keeps.leave {programs : List (Prog (Except Failure (List String)))} {wish : EnsureWish}
    {made : List String} {target : IndexTarget} {rest : List IndexTarget} {r : Except Failure Bool}
    (h : Keeps ⟨programs, held, w⟩ wishes start
      (first ++ ⟨wish, .inside made target rest (.done r)⟩ :: second) visits) :
    Keeps ⟨first.map (·.program) ++ (Stand.next made target rest r).program wish.solutionId ::
        second.map (·.program), held.erase target.name, w⟩ wishes start
      (first ++ ⟨wish, Stand.next made target rest r⟩ :: second)
      (visiting visits target.name (start.shapeFor wish target)) := by
  have hmem : ⟨wish, .inside made target rest (.done r)⟩ ∈
      first ++ ⟨wish, .inside made target rest (.done r)⟩ :: second :=
    List.mem_append_right first List.mem_cons_self
  have hfits := h.fits _ hmem
  have htarget : target ∈ wish.targets := hfits.ahead target List.mem_cons_self
  obtain ⟨-, hcomes⟩ := hfits.works
  obtain ⟨hverdict, htrace⟩ := hcomes r [] w (.done r w)
  obtain ⟨hperm, hapart⟩ := h.lock_apart target.name rfl
  generalize hshape : start.shapeFor wish target = shape at hverdict htrace ⊢
  have hheld : (locksOf first ++ locksOf second).Perm (held.erase target.name) := by
    have herased := hperm.erase target.name
    rwa [List.erase_cons_head] at herased
  have hfits' : Place.Fits ⟨wish, Stand.next made target rest r⟩ start w
      (visiting visits target.name shape) := by
    rw [hverdict, ← hshape]
    exact hfits.leave
  refine h.move (q := ⟨wish, Stand.next made target rest r⟩) rfl hfits'
    (subset_visiting visits target.name shape) ?_ ?_ (h.apart.erase _) ?_ ?_ ?_
  · exact fun index hindex =>
      ⟨rfl, visiting_of_ne visits shape fun hsame => hapart (hsame ▸ hindex)⟩
  · rw [Stand.lock?_next]
    exact hheld
  · intro index hindex
    by_cases hsame : index = target.name
    · rw [hsame, visiting_self]
      exact htrace
    · rw [visiting_of_ne visits shape hsame]
      exact h.free index fun hin => hindex ((List.mem_erase_of_ne hsame).mpr hin)
  · intro index
    rw [count_made_next]
    by_cases hsame : index = target.name
    · rw [hsame, visiting_self, if_pos rfl]
      have hmore : (start.trace target.name).creations target.name
          (shape :: visits target.name) =
            (start.trace target.name).creations target.name (visits target.name) + createdBy r :=
        hverdict ▸ rfl
      rw [hmore]
      dsimp only [Stand.made]
      omega
    · rw [visiting_of_ne visits shape hsame, if_neg hsame]
      rfl
  · intro index other hother
    by_cases hsame : index = target.name
    · rw [hsame, visiting_self] at hother
      rcases List.mem_cons.mp hother with rfl | hother
      · refine ⟨wish, ?_, target, htarget, hsame.symm, hshape⟩
        exact h.same ▸ List.mem_map_of_mem hmem
      · exact hsame ▸ h.wanted target.name other hother
    · rw [visiting_of_ne visits shape hsame] at hother
      exact h.wanted index other hother

theorem Keeps.step {before after : List (Prog (Except Failure (List String)))} {s : Step}
    {next : s.Reply → Prog (Except Failure (List String))} {r : s.Reply} {places : List Place}
    (h : Keeps ⟨before ++ .step s next :: after, held, w⟩ wishes start places visits)
    (locks : Locks s held held') (meets : w.Meets noCall s r w') :
    ∃ places' visits', Keeps ⟨before ++ next r :: after, held', w'⟩ wishes start places' visits' := by
  obtain ⟨first, others, rfl, rfl, hothers⟩ := List.map_eq_append_iff.mp h.programs.symm
  obtain ⟨⟨wish, stand⟩, second, rfl, hprogram, rfl⟩ := List.map_eq_cons_iff.mp hothers
  cases Stand.steps_of_program hprogram with
  | enter =>
    cases meets
    cases locks with
    | acquire free => exact ⟨_, visits, h.enter free⟩
    | plain plain => exact absurd trivial plain
  | work =>
    have hplain : ¬ s.IsLocking :=
      (h.fits _ (List.mem_append_right first List.mem_cons_self)).works.1.1.plain
    cases locks with
    | plain => exact ⟨_, visits, h.work meets⟩
    | _ => exact absurd trivial hplain
  | leave =>
    cases meets
    cases locks with
    | release => exact ⟨_, _, h.leave⟩
    | plain plain => exact absurd trivial plain

theorem Reached.keeps {t u : Gathering} {places : List Place} (h : Reached t u)
    (keeps : t.Keeps wishes start places visits) :
    ∃ places' visits', u.Keeps wishes start places' visits' := by
  induction h with
  | start => exact ⟨places, visits, keeps⟩
  | next reached goes ih =>
    obtain ⟨places', visits', hkeeps⟩ := ih
    cases goes with
    | step locks meets => exact hkeeps.step locks meets

/-- Where a wish stands at the start. -/
def opening (e : EnsureWish) : Stand :=
  match Index.entityNameOf e.entityName with
  | .ok _ => .between [] e.targets
  | .error f => .failed [] f

theorem opening_cases (e : EnsureWish) : opening e = .between [] e.targets ∨
    ∃ f, opening e = .failed [] f ∧ Index.entityNameOf e.entityName = .error f := by
  unfold opening
  rcases Index.entityNameOf e.entityName with f | name
  · exact Or.inr ⟨f, rfl, rfl⟩
  · exact Or.inl rfl

theorem program_opening {e : EnsureWish} (unforced : e.force = false) :
    (opening e).program e.solutionId = e.program := by
  unfold opening EnsureWish.program Index.ensure EnsureWish.targets
  rw [unforced]
  rcases Index.entityNameOf e.entityName with f | name
  · rfl
  · have hmade (r : Except Failure (List String)) : r.map ([] ++ ·) = r := by
      rcases r with f | names
      · rfl
      · rfl
    have hdone : (fun r : Except Failure (List String) => Prog.done (r.map ([] ++ ·))) = .done :=
      funext fun r => congrArg Prog.done (hmade r)
    dsimp only [Stand.program]
    unfold pending
    rw [hdone, Prog.bind_done]
    rfl

theorem fits_opening (e : EnsureWish) (w : World) :
    Place.Fits ⟨e, opening e⟩ w w fun _ => [] := by
  rcases opening_cases e with hopening | ⟨f, hopening, hname⟩
  · rw [hopening]
    exact ⟨fun _ => id, nofun, fun _ => Or.inl, nofun, trivial⟩
  · rw [hopening]
    refine ⟨nofun, nofun, fun _ _ => Or.inr (Or.inr ⟨[], f, rfl⟩), fun _ _ _ hdescribes => ?_,
      trivial⟩
    obtain ⟨name, hnamed⟩ := hdescribes.named
    rw [hname] at hnamed
    cases hnamed

theorem lock?_opening (e : EnsureWish) : (opening e).lock? = none := by
  rcases opening_cases e with hopening | ⟨f, hopening, -⟩
  · rw [hopening]
    rfl
  · rw [hopening]
    rfl

theorem made_opening (e : EnsureWish) : (opening e).made = [] := by
  rcases opening_cases e with hopening | ⟨f, hopening, -⟩
  · rw [hopening]
    rfl
  · rw [hopening]
    rfl

theorem keeps_start (unforced : ∀ e ∈ wishes, e.force = false) (w : World) :
    (Gathering.start wishes w).Keeps wishes w (wishes.map fun e => ⟨e, opening e⟩)
      fun _ => [] := by
  have hlocks : locksOf (wishes.map fun e => ⟨e, opening e⟩) = [] := by
    refine List.filterMap_eq_nil_iff.mpr fun p hp => ?_
    obtain ⟨e, -, rfl⟩ := List.mem_map.mp hp
    exact lock?_opening e
  have hmade : (wishes.map fun e => Place.mk e (opening e)).flatMap (·.stand.made) = [] := by
    refine List.flatMap_eq_nil_iff.mpr fun p hp => ?_
    obtain ⟨e, -, rfl⟩ := List.mem_map.mp hp
    exact made_opening e
  refine ⟨?_, ?_, ?_, hlocks ▸ .refl _, List.nodup_nil, fun _ _ => rfl, ?_, nofun⟩
  · rw [List.map_map]
    exact List.map_id' wishes
  · rw [List.map_map]
    exact List.map_congr_left fun e he => (program_opening (unforced e he)).symm
  · intro p hp
    obtain ⟨e, -, rfl⟩ := List.mem_map.mp hp
    exact fits_opening e w
  · intro index
    rw [hmade]
    rfl

end

end Gathering

end TenantSearch
