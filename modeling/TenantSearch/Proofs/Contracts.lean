-- What a program does whatever it is answered. A contract says which calls a
-- program may make and what it may rely on in the answers. A program that
-- keeps a contract leaves every world that upholds the contract as it should.
import TenantSearch.Proofs.Running

namespace TenantSearch

/-- Which calls a program may make, and what it may rely on when they are
answered. -/
structure Contract where
  allows : Call → Prop
  promises : (c : Call) → c.Reply → Prop

/-- The contract that allows calls with a property and relies on nothing. -/
def Contract.only (allows : Call → Prop) : Contract := ⟨allows, fun _ _ => True⟩

namespace Prog

variable {α β : Type} {k : Contract}

/-- Whatever is answered within the promises, the program makes allowed calls
only, and its value has the property. -/
def Keeps (k : Contract) (post : α → Prop) : Prog α → Prop
  | .done a => post a
  | .step (.call c) next =>
    k.allows c ∧ ∀ r : Except Outage c.Reply, (∀ v, r = .ok v → k.promises c v) →
      (next r).Keeps k post
  | .step _ next => ∀ r, (next r).Keeps k post

theorem Keeps.bind {mid : α → Prop} {post : β → Prop} {p : Prog α} {f : α → Prog β}
    (hp : p.Keeps k mid) (hf : ∀ a, mid a → (f a).Keeps k post) : (p.bind f).Keeps k post := by
  induction p with
  | done a => exact hf a hp
  | step s next ih =>
    cases s with
    | call c => exact ⟨hp.1, fun r hr => ih r (hp.2 r hr)⟩
    | _ => exact fun r => ih r (hp r)

end Prog

/-- A world in which a fact lasts under a contract: allowed calls are answered
as promised, and neither they nor the memory nor the identifiers drawn undo
the fact. -/
structure Contract.Upholds (k : Contract) (fact : World → Prop) : Prop where
  call : ∀ w c, fact w → k.allows c →
    (∀ v, (w.answerCall c).1 = .ok v → k.promises c v) ∧ fact (w.answerCall c).2
  memory : ∀ w m, fact w → fact { w with memory := m }
  supply : ∀ w g, fact w → fact { w with supply := g }

theorem Prog.Keeps.run {α : Type} {k : Contract} {fact : World → Prop} {post : α → Prop}
    {p : Prog α} (hp : p.Keeps k post) (hk : k.Upholds fact) {w : World} (hw : fact w) :
    post (p.run w).1 ∧ fact (p.run w).2 := by
  induction p generalizing w with
  | done a => exact ⟨hp, hw⟩
  | step s next ih =>
    cases s with
    | call c =>
      obtain ⟨hpromise, hfact⟩ := hk.call w c hw hp.1
      exact ih _ (hp.2 _ hpromise) hfact
    | change c => exact ih _ (hp _) (hk.memory w _ hw)
    | keepGuids g => exact ih _ (hp _) (hk.supply w g hw)
    | _ => exact ih _ (hp _) hw

namespace Service

variable {α β : Type} {k : Contract}

/-- The service keeps the contract, and a value that it gives has the
property. -/
def Keeps (k : Contract) (post : α → Prop) (x : Service α) : Prop :=
  Prog.Keeps k (fun r => ∀ a, r = .ok a → post a) x.run

theorem keeps_pure {post : α → Prop} {a : α} (h : post a) : (pure a : Service α).Keeps k post := by
  intro b hb
  cases hb
  exact h

theorem keeps_throw {post : α → Prop} (f : Failure) : (throw f : Service α).Keeps k post := by
  intro b hb
  cases hb

theorem keeps_orFail {post : α → Prop} {x : Except Failure α} (h : ∀ a, x = .ok a → post a) :
    (orFail x).Keeps k post := h

theorem keeps_orBroken {post : α → Prop} {x : Except Breakage α} (h : ∀ a, x = .ok a → post a) :
    (orBroken x).Keeps k post := by
  rcases x with b | a
  · exact keeps_throw _
  · exact keeps_pure (h a rfl)

theorem Keeps.bind {mid : α → Prop} {post : β → Prop} {x : Service α} {f : α → Service β}
    (hx : x.Keeps k mid) (hf : ∀ a, mid a → (f a).Keeps k post) : (x >>= f).Keeps k post := by
  unfold Keeps
  rw [ExceptT.run_bind]
  refine Prog.Keeps.bind hx fun r hr => ?_
  rcases r with e | a
  · exact keeps_throw e
  · exact hf a (hr a rfl)

theorem Keeps.attempt {mid : α → Prop} {x : Service α} (hx : x.Keeps k mid) :
    (attempt x).Keeps k fun r => ∀ a, r = .ok a → mid a := by
  refine Prog.Keeps.bind hx fun r hr => ?_
  intro b hb
  cases hb
  exact hr

/-- A look at the memory, the surroundings or the rows, or a change of what
the process remembers: no call, so every contract is kept. -/
theorem keeps_ask {s : Step} (h : ∀ c, s ≠ .call c) : (ask s).Keeps k fun _ => True := by
  cases s with
  | call c => exact absurd rfl (h c)
  | _ => exact fun _ _ _ => trivial

theorem keeps_askCall {c : Call} (h : k.allows c) :
    (ask (.call c)).Keeps k fun r => ∀ v, r = .ok v → k.promises c v := by
  refine ⟨h, fun r hr => ?_⟩
  intro r' hr'
  cases hr'
  exact hr

theorem keeps_call {c : Call} (h : k.allows c) (blame : Outage → Failure) :
    (call c blame).Keeps k (k.promises c) := by
  refine (keeps_askCall h).bind fun r hr => ?_
  rcases r with o | v
  · exact keeps_throw _
  · exact keeps_pure (hr v rfl)

theorem Keeps.locked {post : α → Prop} {x : Service α} (hx : x.Keeps k post) (index : String) :
    (locked index x).Keeps k post := by
  refine (keeps_ask (by simp)).bind fun _ _ => ?_
  refine hx.attempt.bind fun outcome houtcome => ?_
  exact (keeps_ask (by simp)).bind fun _ _ => keeps_orFail houtcome

/-- Where a fact lasts under the contract, a service that keeps it leaves the
fact in place. -/
theorem Keeps.leads {fact : World → Prop} {post : α → Prop} {x : Service α}
    (hx : x.Keeps k post) (hk : k.Upholds fact) {w : World} (hw : fact w) :
    x.Leads w fun r w' => (∀ a, r = .ok a → post a) ∧ fact w' := Prog.Keeps.run hx hk hw

theorem Keeps.mono {post post' : α → Prop} {x : Service α} (hx : x.Keeps k post)
    (himp : ∀ a, post a → post' a) : x.Keeps k post' := by
  have h := hx.bind (f := pure) fun a ha => keeps_pure (himp a ha)
  rwa [bind_pure] at h

-- From here on a program is taken apart by these lemmas only. Unfolding would
-- run it, index descriptors and all.
attribute [irreducible] Keeps

end Service

end TenantSearch
