-- Which privileges of a caller count. Their names are compared in lower case,
-- and of two privileges with one name only the later is looked at, so an
-- earlier one can be hidden, and the order of the privileges can matter.
import TenantSearch.Proofs.CompiledQueries
import TenantSearch.Proofs.ReadRights

namespace TenantSearch

/-! ## The pure model -/

/-- A privilege holds one of these rights, letter case aside. -/
def HasRight (p : String × List String) (rights : List String) : Prop :=
  ∃ right ∈ p.2, lower right ∈ rights

/-- A privilege grants a target one of these rights: it is under one of the
names of the target, and it holds such a right. -/
def Grants (p : String × List String) (t : IndexTarget) (rights : List String) : Prop :=
  lower p.1 ∈ CallerContext.privilegeNames t ∧ HasRight p rights

/-- The last of the privileges with its name, letter case aside. -/
def Counts (privileges : List (String × List String)) (p : String × List String) : Prop :=
  ∃ before after, privileges = before ++ p :: after ∧ ∀ q ∈ after, lower q.1 ≠ lower p.1

instance (p : String × List String) (rights : List String) : Decidable (HasRight p rights) :=
  inferInstanceAs (Decidable (∃ right ∈ p.2, lower right ∈ rights))

instance (p : String × List String) (t : IndexTarget) (rights : List String) :
    Decidable (Grants p t rights) :=
  inferInstanceAs (Decidable (_ ∧ _))

namespace CallerContext

/-- The caller with other privileges. -/
def holding (c : CallerContext) (privileges : List (String × List String)) : CallerContext :=
  { c with privileges }

/-- Every privilege counts for all that it says: the caller has a right on a
target exactly when some privilege of its grants one. -/
def EveryPrivilegeCounts (c : CallerContext) : Prop :=
  ∀ t rights, (∀ right ∈ rights, lower right = right) →
    (c.hasPrivilege t rights = true ↔ ∃ p ∈ c.privileges, Grants p t rights)

/-- Every right of every privilege is held as well by the last privilege of
that name, or by the last one for everything. -/
def HidesNoRight (c : CallerContext) : Prop :=
  ∀ p ∈ c.privileges, ∀ right ∈ p.2, ∃ q, Counts c.privileges q ∧
    (lower q.1 = lower p.1 ∨ lower q.1 = anyEntity) ∧ HasRight q [lower right]

/-- The verdict on a target is the same in whatever order the privileges
stand. -/
def IgnoresOrder (c : CallerContext) (t : IndexTarget) (rights : List String) : Prop :=
  ∀ privileges, privileges.Perm c.privileges →
    (c.holding privileges).hasPrivilege t rights = c.hasPrivilege t rights

/-- The privileges agree on a target: none of them grants it a right, or all
that are under one of its names do. -/
def Agrees (c : CallerContext) (t : IndexTarget) (rights : List String) : Prop :=
  (∃ p ∈ c.privileges, Grants p t rights) → ∃ name ∈ privilegeNames t,
    (∃ p ∈ c.privileges, lower p.1 = name) ∧
      ∀ p ∈ c.privileges, lower p.1 = name → HasRight p rights

/-- Whatever the caller may read, it may read as well with these privileges. -/
def ReadsOnWith (c : CallerContext) (privileges : List (String × List String)) : Prop :=
  ∀ t, c.canRead t = true → (c.holding privileges).canRead t = true

end CallerContext

/-! ## The privileges that count -/

section

variable {privileges more : List (String × List String)} {p q : String × List String}

theorem Counts.mem (h : Counts privileges p) : p ∈ privileges := by
  obtain ⟨before, after, rfl, -⟩ := h
  simp

/-- Of privileges followed by others, those of the others count, and the
former where no other has their name. -/
theorem counts_append_iff : Counts (privileges ++ more) p ↔
    Counts more p ∨ Counts privileges p ∧ ∀ q ∈ more, lower q.1 ≠ lower p.1 := by
  constructor
  · rintro ⟨before, after, hsplit, hlast⟩
    rcases List.append_eq_append_iff.mp hsplit with ⟨between, rfl, hmore⟩ | ⟨between, hfirst, hrest⟩
    · exact Or.inl ⟨between, after, hmore, hlast⟩
    · cases between with
      | nil => exact Or.inl ⟨[], after, hrest.symm, hlast⟩
      | cons first between =>
        rw [List.cons_append, List.cons.injEq] at hrest
        obtain ⟨rfl, rfl⟩ := hrest
        right
        refine ⟨⟨before, between, hfirst, fun q hq => ?_⟩, fun q hq => ?_⟩
        · exact hlast q (List.mem_append_left _ hq)
        · exact hlast q (List.mem_append_right _ hq)
  · rintro (⟨before, after, rfl, hlast⟩ | ⟨⟨before, after, rfl, hlast⟩, hmore⟩)
    · exact ⟨privileges ++ before, after, by simp, hlast⟩
    · refine ⟨before, after ++ more, by simp, fun q hq => ?_⟩
      rcases List.mem_append.mp hq with hq | hq
      · exact hlast q hq
      · exact hmore q hq

theorem counts_singleton_iff : Counts [q] p ↔ p = q := by
  constructor
  · intro h
    exact List.mem_singleton.mp h.mem
  · rintro rfl
    exact ⟨[], [], rfl, by simp⟩

/-- Every name under which there is a privilege has one that counts. -/
theorem exists_counts (h : p ∈ privileges) : ∃ q, Counts privileges q ∧ lower q.1 = lower p.1 := by
  induction privileges generalizing p with
  | nil => cases h
  | cons first rest ih =>
    have hcons (q : String × List String) : Counts (first :: rest) q ↔
        Counts rest q ∨ Counts [first] q ∧ ∀ r ∈ rest, lower r.1 ≠ lower q.1 :=
      @counts_append_iff [first] rest q
    by_cases hrest : ∃ r ∈ rest, lower r.1 = lower p.1
    · obtain ⟨r, hr, hname⟩ := hrest
      obtain ⟨q, hq, hqname⟩ := ih hr
      exact ⟨q, (hcons q).mpr (Or.inl hq), hqname.trans hname⟩
    · rcases List.mem_cons.mp h with rfl | hp
      · refine ⟨p, (hcons p).mpr (Or.inr ⟨counts_singleton_iff.mpr rfl, ?_⟩), rfl⟩
        exact fun r hr hname => hrest ⟨r, hr, hname⟩
      · exact absurd ⟨p, hp, rfl⟩ hrest

/-- Under names of their own all privileges count. -/
theorem counts_of_pairwise (h : privileges.Pairwise fun p q => lower q.1 ≠ lower p.1)
    (hp : p ∈ privileges) : Counts privileges p := by
  obtain ⟨before, after, rfl⟩ := List.append_of_mem hp
  have hafter := (List.pairwise_append.mp h).2.1
  exact ⟨before, after, rfl, (List.pairwise_cons.mp hafter).1⟩

end

/-! ## The verdict on a target -/

section

variable {c : CallerContext} {t : IndexTarget} {name : String} {rights : List String}
  {p q : String × List String}

theorem any_contains_iff : (p.2.any fun right => rights.contains (lower right)) = true ↔
    HasRight p rights := by
  simp [HasRight]

/-- What is found from the end is the privilege that counts. -/
theorem find?_reverse_iff (name : String) (privileges : List (String × List String))
    (grant : String × List String) :
    (privileges.map fun p => (lower p.1, p.2)).reverse.find? (·.1 == name) = some grant ↔
      ∃ p, Counts privileges p ∧ lower p.1 = name ∧ grant = (lower p.1, p.2) := by
  induction privileges using List.reverseRecOn with
  | nil =>
    constructor
    · intro h
      cases h
    · rintro ⟨p, hp, -⟩
      cases hp.mem
  | append_singleton rest last ih =>
    rw [List.map_append, List.reverse_append, List.map_singleton, List.reverse_singleton,
      List.singleton_append, List.find?_cons]
    by_cases hlast : lower last.1 = name
    · rw [beq_iff_eq.mpr hlast]
      constructor
      · intro h
        obtain rfl : (lower last.1, last.2) = grant := Option.some.inj h
        exact ⟨last, counts_append_iff.mpr (Or.inl (counts_singleton_iff.mpr rfl)), hlast, rfl⟩
      · rintro ⟨p, hp, hname, rfl⟩
        rcases counts_append_iff.mp hp with hp | ⟨-, hother⟩
        · rw [counts_singleton_iff.mp hp]
        · exact absurd (hlast.trans hname.symm) (hother last (List.mem_singleton.mpr rfl))
    · rw [beq_eq_false_iff_ne.mpr hlast, ih]
      refine exists_congr fun p => and_congr_left fun ⟨hname, _⟩ => ?_
      rw [counts_append_iff, counts_singleton_iff]
      constructor
      · refine fun hp => Or.inr ⟨hp, fun q hq => ?_⟩
        rw [List.mem_singleton.mp hq, hname]
        exact hlast
      · rintro (rfl | ⟨hp, -⟩)
        · exact absurd hname hlast
        · exact hp

/-- The rights under a name are those of the privilege that counts there. -/
theorem any_granted_iff :
    ((c.granted name).any fun right => rights.contains (lower right)) = true ↔
      ∃ p, Counts c.privileges p ∧ lower p.1 = name ∧ HasRight p rights := by
  have hfind := find?_reverse_iff name c.privileges
  unfold CallerContext.granted CallerContext.grants
  constructor
  · intro h
    rcases hlast : (c.privileges.map fun p => (lower p.1, p.2)).reverse.find? (·.1 == name) with
      _ | grant
    · rw [hlast] at h
      cases h
    · rw [hlast] at h
      obtain ⟨p, hp, hname, rfl⟩ := (hfind grant).mp hlast
      exact ⟨p, hp, hname, any_contains_iff.mp h⟩
  · rintro ⟨p, hp, hname, hright⟩
    rw [(hfind _).mpr ⟨p, hp, hname, rfl⟩]
    exact any_contains_iff.mpr hright

theorem reads_iff : c.reads name = true ↔
    ∃ p, Counts c.privileges p ∧ lower p.1 = name ∧ HasRight p readRights :=
  any_granted_iff

theorem hasPrivilege_iff (howner : c.isSolutionOwner = false) : c.hasPrivilege t rights = true ↔
    ∃ p, Counts c.privileges p ∧ Grants p t rights := by
  unfold CallerContext.hasPrivilege
  rw [howner, Bool.false_or, List.any_eq_true]
  constructor
  · rintro ⟨name, hname, hany⟩
    obtain ⟨p, hp, rfl, hright⟩ := any_granted_iff.mp hany
    exact ⟨p, hp, hname, hright⟩
  · rintro ⟨p, hp, hname, hright⟩
    exact ⟨lower p.1, hname, any_granted_iff.mpr ⟨p, hp, rfl, hright⟩⟩

/-- A right that some counting privilege lends, is lent by a privilege. -/
theorem grants_of_hasPrivilege (howner : c.isSolutionOwner = false)
    (h : c.hasPrivilege t rights = true) : ∃ p ∈ c.privileges, Grants p t rights := by
  obtain ⟨p, hp, hgrants⟩ := (hasPrivilege_iff howner).mp h
  exact ⟨p, hp.mem, hgrants⟩

/-! ## Hidden rights -/

theorem privilegeNames_entity (name : String) :
    CallerContext.privilegeNames ⟨name, .null⟩ = [lower name, lower name, anyEntity] := rfl

theorem HasRight.mono {few many : List String} (h : HasRight p few) (hsub : few ⊆ many) :
    HasRight p many := by
  obtain ⟨right, hright, hfew⟩ := h
  exact ⟨right, hright, hsub hfew⟩

/-- A target is under the names of its own entity, of itself and of everything. -/
theorem mem_privilegeNames_entity_iff :
    name ∈ CallerContext.privilegeNames ⟨p.1, .null⟩ ↔ name = lower p.1 ∨ name = anyEntity := by
  rw [privilegeNames_entity]
  simp

/-- Every privilege counts for all it says exactly when none of its rights is
hidden: a right on the entity of its name would be missing else. -/
theorem everyPrivilegeCounts_iff (howner : c.isSolutionOwner = false) :
    c.EveryPrivilegeCounts ↔ c.HidesNoRight := by
  constructor
  · intro h p hp right hright
    have hgrants : Grants p ⟨p.1, .null⟩ [lower right] :=
      ⟨mem_privilegeNames_entity_iff.mpr (Or.inl rfl), right, hright, List.mem_singleton.mpr rfl⟩
    have hverdict := (h ⟨p.1, .null⟩ [lower right] (by simp)).mpr ⟨p, hp, hgrants⟩
    obtain ⟨q, hq, hname, hqright⟩ := (hasPrivilege_iff howner).mp hverdict
    exact ⟨q, hq, mem_privilegeNames_entity_iff.mp hname, hqright⟩
  · intro h t rights _
    constructor
    · exact grants_of_hasPrivilege howner
    · rintro ⟨p, hp, hname, right, hright, hrights⟩
      obtain ⟨q, hq, hqname, hqright⟩ := h p hp right hright
      refine (hasPrivilege_iff howner).mpr ⟨q, hq, ?_, hqright.mono (by simpa using hrights)⟩
      rcases hqname with hqname | hqname
      · exact hqname ▸ hname
      · rw [hqname]
        exact List.mem_cons_of_mem _ (List.mem_cons_of_mem _ (List.mem_singleton.mpr rfl))

/-- Where no two privileges share a name, letter case aside, nothing is hidden. -/
theorem hidesNoRight_of_pairwise (h : c.privileges.Pairwise fun p q => lower q.1 ≠ lower p.1) :
    c.HidesNoRight := by
  intro p hp right hright
  have hcounts : Counts c.privileges p := counts_of_pairwise h hp
  exact ⟨p, hcounts, Or.inl rfl, right, hright, List.mem_singleton.mpr rfl⟩

/-! ## The order of the privileges -/

/-- Where the privileges agree, every order of them says what they say. -/
theorem ignoresOrder_of_agrees (howner : c.isSolutionOwner = false) (h : c.Agrees t rights) :
    c.IgnoresOrder t rights := by
  have hverdict (privileges : List (String × List String)) (hperm : privileges.Perm c.privileges) :
      (c.holding privileges).hasPrivilege t rights = true ↔
        ∃ p ∈ c.privileges, Grants p t rights := by
    constructor
    · intro hheld
      obtain ⟨p, hp, hgrants⟩ := grants_of_hasPrivilege (c := c.holding privileges) howner hheld
      exact ⟨p, hperm.mem_iff.mp hp, hgrants⟩
    · intro hgrants
      obtain ⟨name, hname, ⟨p, hp, hpname⟩, hall⟩ := h hgrants
      obtain ⟨q, hq, hqname⟩ := exists_counts (hperm.mem_iff.mpr hp)
      have hq' : q ∈ c.privileges := hperm.mem_iff.mp hq.mem
      have hqname : lower q.1 = name := hqname.trans hpname
      exact (hasPrivilege_iff (c := c.holding privileges) howner).mpr
        ⟨q, hq, hqname ▸ hname, hall q hq' hqname⟩
  intro privileges hperm
  rw [Bool.eq_iff_iff, hverdict privileges hperm]
  exact (hverdict c.privileges (List.Perm.refl _)).symm

/-- With the privileges that grant a target last the verdict is yes, so it has
to be yes with them first, and then no other is under the name that counts. -/
theorem agrees_of_ignoresOrder (howner : c.isSolutionOwner = false)
    (h : c.IgnoresOrder t rights) : c.Agrees t rights := by
  rintro ⟨p, hp, hgrants⟩
  let granting := c.privileges.filter fun p => decide (Grants p t rights)
  let others := c.privileges.filter fun p => !decide (Grants p t rights)
  have hfirst : (granting ++ others).Perm c.privileges := List.filter_append_perm _ _
  have hlast : (others ++ granting).Perm c.privileges := List.perm_append_comm.trans hfirst
  have hp' : p ∈ granting := by simpa [granting] using ⟨hp, hgrants⟩
  have hyes : (c.holding (others ++ granting)).hasPrivilege t rights = true := by
    obtain ⟨q, hq, hname⟩ := exists_counts hp'
    have hqgrants : Grants q t rights := by simpa [granting] using (List.mem_filter.mp hq.mem).2
    exact (hasPrivilege_iff (c := c.holding (others ++ granting)) howner).mpr
      ⟨q, counts_append_iff.mpr (Or.inl hq), hqgrants⟩
  have hstill : (c.holding (granting ++ others)).hasPrivilege t rights = true := by
    rw [h _ hfirst, ← h _ hlast, hyes]
  obtain ⟨q, hq, hqgrants⟩ :=
    (hasPrivilege_iff (c := c.holding (granting ++ others)) howner).mp hstill
  have hnot (r : String × List String) (hr : r ∈ others) : ¬ Grants r t rights := by
    simpa using (List.mem_filter.mp hr).2
  rcases counts_append_iff.mp hq with hq | ⟨hq, halone⟩
  · exact absurd hqgrants (hnot q hq.mem)
  · refine ⟨lower q.1, hqgrants.1, ⟨q, List.mem_of_mem_filter hq.mem, rfl⟩, fun r hr hname => ?_⟩
    by_cases hrgrants : Grants r t rights
    · exact hrgrants.2
    · exact absurd hname (halone r (by simpa [others] using ⟨hr, hrgrants⟩))

/-! ## One privilege more -/

section

variable {before after : List (String × List String)}

theorem counts_insert_iff : Counts (before ++ p :: after) q ↔
    Counts after q ∨ (q = p ∨ Counts before q ∧ lower p.1 ≠ lower q.1) ∧
      ∀ r ∈ after, lower r.1 ≠ lower q.1 := by
  rw [← List.singleton_append, ← List.append_assoc, counts_append_iff, counts_append_iff,
    counts_singleton_iff]
  simp

/-- Under another name a privilege changes nothing. -/
theorem reads_insert_of_ne (hsplit : c.privileges = before ++ after) (hne : lower p.1 ≠ name) :
    (c.holding (before ++ p :: after)).reads name = c.reads name := by
  rw [Bool.eq_iff_iff, reads_iff, reads_iff, hsplit]
  refine exists_congr fun q => and_congr_left fun ⟨hname, _⟩ => ?_
  change Counts (before ++ p :: after) q ↔ _
  rw [counts_insert_iff, counts_append_iff]
  have hqp : q ≠ p := fun h => hne (h ▸ hname)
  have hne' : lower p.1 ≠ lower q.1 := hname ▸ hne
  simp [hqp, hne']

/-- Under its own name a privilege is looked at unless a later one has that
name, and then nothing changes. -/
theorem reads_insert_self (hsplit : c.privileges = before ++ after) :
    (c.holding (before ++ p :: after)).reads (lower p.1) = true ↔
      if ∃ q ∈ after, lower q.1 = lower p.1 then c.reads (lower p.1) = true
      else HasRight p readRights := by
  rw [reads_iff, reads_iff, hsplit]
  change (∃ q, Counts (before ++ p :: after) q ∧ _) ↔ _
  by_cases hlater : ∃ q ∈ after, lower q.1 = lower p.1
  · rw [if_pos hlater]
    obtain ⟨r, hr, hrname⟩ := hlater
    refine exists_congr fun q => and_congr_left fun ⟨hname, _⟩ => ?_
    have hnot : ¬ ∀ r ∈ after, lower r.1 ≠ lower q.1 :=
      fun h => h r hr (hrname.trans hname.symm)
    rw [counts_insert_iff, counts_append_iff, or_iff_left (mt And.right hnot),
      or_iff_left (mt And.right hnot)]
  · rw [if_neg hlater]
    constructor
    · rintro ⟨q, hq, hname, hright⟩
      rcases counts_insert_iff.mp hq with hq | ⟨rfl | ⟨-, hne⟩, -⟩
      · exact absurd ⟨q, hq.mem, hname⟩ hlater
      · exact hright
      · exact absurd hname.symm hne
    · intro hright
      refine ⟨p, counts_insert_iff.mpr (Or.inr ⟨Or.inl rfl, fun r hr hname => ?_⟩), rfl, hright⟩
      exact hlater ⟨r, hr, hname⟩

theorem canRead_entity_iff (howner : c.isSolutionOwner = false) :
    c.canRead ⟨name, .null⟩ = true ↔ c.reads (lower name) = true ∨ c.reads anyEntity = true := by
  have hname : IndexTarget.name ⟨name, .null⟩ = lower name := rfl
  rw [canRead_eq, howner, hname]
  simp

/-- A privilege more takes nothing away exactly when whoever could read under
its name still can, or may read everything. -/
theorem readsOnWith_iff (howner : c.isSolutionOwner = false)
    (hsplit : c.privileges = before ++ after) :
    c.ReadsOnWith (before ++ p :: after) ↔
      (c.reads (lower p.1) = true → (c.holding (before ++ p :: after)).reads (lower p.1) = true ∨
        (c.holding (before ++ p :: after)).reads anyEntity = true) := by
  have howner' : (c.holding (before ++ p :: after)).isSolutionOwner = false := howner
  constructor
  · intro h hreads
    exact (canRead_entity_iff howner').mp (h _ ((canRead_entity_iff howner).mpr (Or.inl hreads)))
  · intro h t hcan
    have hkept (name : String) (hreads : c.reads name = true) :
        (c.holding (before ++ p :: after)).reads name = true ∨
          (c.holding (before ++ p :: after)).reads anyEntity = true := by
      by_cases hname : lower p.1 = name
      · subst hname
        exact h hreads
      · rw [reads_insert_of_ne hsplit hname]
        exact Or.inl hreads
    rw [canRead_eq, howner] at hcan
    rw [canRead_eq, howner']
    simp only [Bool.false_or, Bool.or_eq_true] at hcan ⊢
    rcases hcan with hreads | hreads | hreads
    · rcases hkept _ hreads with h | h
      · exact Or.inl h
      · exact Or.inr (Or.inr h)
    · exact Or.inr (hkept _ hreads)
    · rcases hkept _ hreads with h | h <;> exact Or.inr (Or.inr h)

end

/-- Of a caller that does not own the solution: the verdict looks at the last
privilege of each name; every privilege counts exactly when none of its
rights is hidden; the order of the privileges changes nothing for a target
exactly when they agree on it; and a privilege more, wherever it stands, takes
no right to read away exactly when a later one has its name, or it lets read
itself, or nothing could be read under its name, or it is not the one for
everything and all can be read. -/
theorem the_last_privilege_of_a_name_counts (c : CallerContext)
    (howner : c.isSolutionOwner = false) :
    (∀ t rights, c.hasPrivilege t rights = true ↔
      ∃ p, Counts c.privileges p ∧ Grants p t rights) ∧
    (c.EveryPrivilegeCounts ↔ c.HidesNoRight) ∧
    (∀ t rights, c.IgnoresOrder t rights ↔ c.Agrees t rights) ∧
    (∀ before p after, c.privileges = before ++ after →
      (c.ReadsOnWith (before ++ p :: after) ↔
        (∃ q ∈ after, lower q.1 = lower p.1) ∨ HasRight p readRights ∨
          c.reads (lower p.1) = false ∨ lower p.1 ≠ anyEntity ∧ c.reads anyEntity = true)) := by
  refine ⟨fun t rights => hasPrivilege_iff howner, everyPrivilegeCounts_iff howner,
    fun t rights => ⟨agrees_of_ignoresOrder howner, ignoresOrder_of_agrees howner⟩, ?_⟩
  intro before p after hsplit
  rw [readsOnWith_iff howner hsplit, reads_insert_self hsplit]
  by_cases hlater : ∃ q ∈ after, lower q.1 = lower p.1
  · rw [if_pos hlater]
    exact ⟨fun _ => Or.inl hlater, fun _ hreads => Or.inl hreads⟩
  · rw [if_neg hlater, or_iff_right hlater]
    by_cases hany : lower p.1 = anyEntity
    · have hself := reads_insert_self (c := c) (p := p) hsplit
      rw [if_neg hlater, hany] at hself
      rw [hany, hself]
      cases c.reads anyEntity <;> simp
    · rw [reads_insert_of_ne hsplit hany]
      cases c.reads (lower p.1) <;> simp [hany]

end

/-- Privileges for an entity and for a subtype of another one count both. -/
theorem privileges_of_two_names_count :
    let c := callerWith [("Event", ["Read"]), ("Venue_Hall", ["full"])]
    c.isSolutionOwner = false ∧ c.EveryPrivilegeCounts ∧
      c.hasPrivilege ⟨"event", .str "Concert"⟩ ["read"] = true := by
  intro c
  have howner : c.isSolutionOwner = false := by decide
  have hlaws := the_last_privilege_of_a_name_counts c howner
  have hcounts := hlaws.2.1.mpr (hidesNoRight_of_pairwise (by decide))
  exact ⟨howner, hcounts, (hcounts _ _ (by decide)).mpr ⟨_, List.mem_cons_self, by decide⟩⟩

/-- The name of an entity in two spellings: the right to read that stands first
is hidden by the right to write, the other way round it is not, and so it is
lost with the second privilege. -/
theorem a_spelling_hides_another :
    let c := callerWith [("Event", ["read"]), ("event", ["write"])]
    c.isSolutionOwner = false ∧ ¬ c.EveryPrivilegeCounts ∧
      ¬ c.IgnoresOrder ⟨"Event", .null⟩ ["read"] ∧
      ¬ (callerWith [("Event", ["read"])]).ReadsOnWith c.privileges := by
  refine ⟨by decide, fun h => ?_, fun h => ?_, fun h => ?_⟩
  · have hverdict := (h ⟨"Event", .null⟩ ["read"] (by decide)).mpr
      ⟨("Event", ["read"]), List.mem_cons_self, by decide⟩
    exact absurd hverdict (by decide)
  · have hverdict := h [("event", ["write"]), ("Event", ["read"])] (List.Perm.swap _ _ _)
    exact absurd hverdict (by decide)
  · exact absurd (h ⟨"Event", .null⟩ (by decide)) (by decide)

end TenantSearch
