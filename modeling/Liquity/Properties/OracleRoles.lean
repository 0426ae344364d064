import Liquity.AccessControl
import Liquity.Properties.OracleRounds

/-!
# Who can feed the oracle

The role that administers the setters is administered by a role that nobody has, so that only its first
holder ever has it and it is gone for good once renounced.  The setters are the first one and those that
this account makes setters, and every round comes from one of them.
-/

open Lib

namespace Liquity

/-! ## One role -/

namespace AccessControl

variable {a a' : AccessControl} {role role' : BitVec 256} {account account' sender : Address}

theorem setHasRole_hasRole (value : Bool) :
    (a.setHasRole role account value).hasRole role' account' =
      if role' = role ∧ account' = account then value else a.hasRole role' account' := by
  unfold setHasRole hasRole
  dsimp only
  by_cases hrole : role' = role
  · subst hrole
    rw [Function.update_self]
    dsimp only
    by_cases haccount : account' = account
    · subst haccount
      rw [Function.update_self, if_pos ⟨rfl, rfl⟩]
    · rw [Function.update_of_ne haccount, if_neg fun h => haccount h.2]
  · rw [Function.update_of_ne hrole, if_neg fun h => hrole h.1]

theorem setHasRole_getRoleAdmin (value : Bool) :
    (a.setHasRole role account value).getRoleAdmin role' = a.getRoleAdmin role' := by
  unfold setHasRole getRoleAdmin
  dsimp only
  by_cases hrole : role' = role
  · subst hrole
    rw [Function.update_self]
  · rw [Function.update_of_ne hrole]

/-- Granting a role to an account that has it changes nothing. -/
theorem grantRoleInternal_hasRole :
    (a.grantRoleInternal role account).hasRole role' account' =
      if role' = role ∧ account' = account then true else a.hasRole role' account' := by
  unfold grantRoleInternal
  split
  · exact setHasRole_hasRole true
  next hheld =>
    by_cases hthis : role' = role ∧ account' = account
    · obtain ⟨rfl, rfl⟩ := hthis
      rw [if_pos ⟨rfl, rfl⟩]
      exact eq_true_of_ne_false hheld
    · rw [if_neg hthis]

theorem revokeRoleInternal_hasRole :
    (a.revokeRoleInternal role account).hasRole role' account' =
      if role' = role ∧ account' = account then false else a.hasRole role' account' := by
  unfold revokeRoleInternal
  split
  · exact setHasRole_hasRole false
  next hheld =>
    by_cases hthis : role' = role ∧ account' = account
    · obtain ⟨rfl, rfl⟩ := hthis
      rw [if_pos ⟨rfl, rfl⟩]
      exact eq_false_of_ne_true hheld
    · rw [if_neg hthis]

theorem grantRoleInternal_getRoleAdmin :
    (a.grantRoleInternal role account).getRoleAdmin role' = a.getRoleAdmin role' := by
  unfold grantRoleInternal
  split
  · exact setHasRole_getRoleAdmin true
  · rfl

theorem revokeRoleInternal_getRoleAdmin :
    (a.revokeRoleInternal role account).getRoleAdmin role' = a.getRoleAdmin role' := by
  unfold revokeRoleInternal
  split
  · exact setHasRole_getRoleAdmin false
  · rfl

theorem setRoleAdmin_hasRole {adminRole : BitVec 256} :
    (a.setRoleAdmin role adminRole).hasRole role' account' = a.hasRole role' account' := by
  unfold setRoleAdmin hasRole
  dsimp only
  by_cases hrole : role' = role
  · subst hrole
    rw [Function.update_self]
  · rw [Function.update_of_ne hrole]

theorem setRoleAdmin_getRoleAdmin {adminRole : BitVec 256} :
    (a.setRoleAdmin role adminRole).getRoleAdmin role' =
      if role' = role then adminRole else a.getRoleAdmin role' := by
  unfold setRoleAdmin getRoleAdmin
  dsimp only
  by_cases hrole : role' = role
  · subst hrole
    rw [Function.update_self, if_pos rfl]
  · rw [Function.update_of_ne hrole, if_neg hrole]

end AccessControl

/-! ## The roles of the oracle -/

namespace BTCOracle

open AccessControl

variable {o o' : Deployed} {t : CallIn} {admin ultimateAdmin : Address} {setters : Address → Prop}
  {role : BitVec 256} {account : Address}

/-- What one call can do to the roles: an admin grants one, or somebody loses one. -/
theorem Called.roles (h : Called o t o') :
    (∀ role, o'.access.getRoleAdmin role = o.access.getRoleAdmin role) ∧
    ∀ role account, o'.access.hasRole role account = true → o.access.hasRole role account = true ∨
      t.call = .grantRole role account ∧ o.access.hasRole (o.access.getRoleAdmin role) t.sender = true := by
  have hcall := h.call
  obtain ⟨sender, block, call⟩ := t
  cases call with
  | feedBaseFeeValue newValue blockNumber =>
    obtain ⟨oracle, -, ho'⟩ := bind_ok.mp hcall
    cases ho'
    exact ⟨fun _ => rfl, fun _ _ hheld => .inl hheld⟩
  | grantRole granted grantee =>
    simp only [CallIn.execute, AccessControl.grantRole, checkRole, bind_ok, require_ok, pure_ok] at hcall
    obtain ⟨_, ⟨-, hadmin, rfl⟩, rfl⟩ := hcall
    refine ⟨fun _ => grantRoleInternal_getRoleAdmin, fun role account hheld => ?_⟩
    dsimp only at hheld
    rw [grantRoleInternal_hasRole] at hheld
    split at hheld
    next hthis =>
      obtain ⟨rfl, rfl⟩ := hthis
      exact .inr ⟨rfl, hadmin⟩
    next => exact .inl hheld
  | revokeRole revoked from' =>
    simp only [CallIn.execute, AccessControl.revokeRole, checkRole, bind_ok, require_ok, pure_ok] at hcall
    obtain ⟨_, ⟨-, -, rfl⟩, rfl⟩ := hcall
    refine ⟨fun _ => revokeRoleInternal_getRoleAdmin, fun role account hheld => ?_⟩
    dsimp only at hheld
    rw [revokeRoleInternal_hasRole] at hheld
    split at hheld
    · cases hheld
    · exact .inl hheld
  | renounceRole renounced callerConfirmation =>
    simp only [CallIn.execute, AccessControl.renounceRole, bind_ok, require_ok, pure_ok] at hcall
    obtain ⟨_, ⟨-, -, rfl⟩, rfl⟩ := hcall
    refine ⟨fun _ => revokeRoleInternal_getRoleAdmin, fun role account hheld => ?_⟩
    dsimp only at hheld
    rw [revokeRoleInternal_hasRole] at hheld
    split at hheld
    · cases hheld
    · exact .inl hheld

/-- The setters are administered by the ultimate admin, and nobody can make another one. -/
structure RolesBound (ultimateAdmin : Address) (setters : Address → Prop) (a : AccessControl) : Prop where
  setterAdmin : a.getRoleAdmin SETTER = ULTIMATE_ADMIN
  otherAdmin : ∀ role ≠ SETTER, a.getRoleAdmin role = DEFAULT_ADMIN_ROLE
  setter : ∀ account, a.hasRole SETTER account = true → setters account
  ultimate : ∀ account, a.hasRole ULTIMATE_ADMIN account = true → account = ultimateAdmin
  others : ∀ role ≠ SETTER, role ≠ ULTIMATE_ADMIN → ∀ account, a.hasRole role account = false

theorem rolesBound_constructed (hadmin : setters admin) :
    RolesBound ultimateAdmin setters (constructorRoles admin ultimateAdmin) := by
  have hne : ULTIMATE_ADMIN ≠ SETTER := by decide
  have hadmins : ∀ role, (constructorRoles admin ultimateAdmin).getRoleAdmin role =
      if role = SETTER then ULTIMATE_ADMIN else DEFAULT_ADMIN_ROLE := by
    intro role
    unfold constructorRoles
    rw [grantRoleInternal_getRoleAdmin, setRoleAdmin_getRoleAdmin, grantRoleInternal_getRoleAdmin]
    rfl
  have hroles : ∀ role account, (constructorRoles admin ultimateAdmin).hasRole role account =
      if role = SETTER ∧ account = admin then true
      else if role = ULTIMATE_ADMIN ∧ account = ultimateAdmin then true else false := by
    intro role account
    unfold constructorRoles
    rw [grantRoleInternal_hasRole, setRoleAdmin_hasRole, grantRoleInternal_hasRole]
    rfl
  constructor
  · rw [hadmins, if_pos rfl]
  · intro role hrole
    rw [hadmins, if_neg hrole]
  · intro account hheld
    rw [hroles] at hheld
    split at hheld
    next hthis =>
      rw [hthis.2]
      exact hadmin
    next =>
      rw [if_neg fun hthis => hne hthis.1.symm] at hheld
      cases hheld
  · intro account hheld
    rw [hroles, if_neg fun hthis => hne hthis.1] at hheld
    split at hheld
    next hthis => exact hthis.2
    next => cases hheld
  · intro role hsetter hultimate account
    rw [hroles, if_neg fun hthis => hsetter hthis.1, if_neg fun hthis => hultimate hthis.1]

/-- The only accounts that the ultimate admin makes setters. -/
def GrantsOnly (ultimateAdmin : Address) (setters : Address → Prop) (_ : Deployed) (t : CallIn) : Prop :=
  ∀ account, t.sender = ultimateAdmin → t.call = .grantRole SETTER account → setters account

theorem Called.rolesBound (h : Called o t o') (hgrants : GrantsOnly ultimateAdmin setters o t)
    (ho : RolesBound ultimateAdmin setters o.access) : RolesBound ultimateAdmin setters o'.access := by
  obtain ⟨hadmins, hroles⟩ := h.roles
  -- nobody has the default role, which administers all others
  have hdefault : ∀ account, o.access.hasRole DEFAULT_ADMIN_ROLE account = false :=
    ho.others _ (by decide) (by decide)
  have hnobody : ∀ role ≠ SETTER, ∀ account, o'.access.hasRole role account = true →
      o.access.hasRole role account = true := by
    intro role hrole account hheld
    rcases hroles role account hheld with hbefore | ⟨-, hadmin⟩
    · exact hbefore
    · rw [ho.otherAdmin role hrole, hdefault] at hadmin
      cases hadmin
  constructor
  · rw [hadmins]
    exact ho.setterAdmin
  · intro role hrole
    rw [hadmins]
    exact ho.otherAdmin role hrole
  · intro account hheld
    rcases hroles SETTER account hheld with hbefore | ⟨hcall, hadmin⟩
    · exact ho.setter account hbefore
    · rw [ho.setterAdmin] at hadmin
      exact hgrants account (ho.ultimate _ hadmin) hcall
  · intro account hheld
    exact ho.ultimate account (hnobody _ (by decide) account hheld)
  · intro role hsetter hultimate account
    by_contra hheld
    have hbefore := hnobody role hsetter account (eq_true_of_ne_false hheld)
    rw [ho.others role hsetter hultimate] at hbefore
    cases hbefore

/-! ## Runs -/

theorem CalledFrom.rolesBound (hadmin : setters admin)
    (h : CalledFrom (GrantsOnly ultimateAdmin setters) (.constructed admin ultimateAdmin) o) :
    RolesBound ultimateAdmin setters o.access := by
  induction h with
  | init heq =>
    rw [heq]
    exact rolesBound_constructed hadmin
  | step _ hgrants hcalled ih => exact hcalled.rolesBound hgrants ih

/-- The oracle inside the contract is one that was fed, however the roles changed in between. -/
theorem CalledFrom.reached {cond : Deployed → CallIn → Prop}
    (h : CalledFrom cond (.constructed admin ultimateAdmin) o) :
    ∃ block, Reached o.oracle block ∧ block.toNat ≤ o.block.toNat := by
  induction h with
  | init heq =>
    rw [heq]
    exact ⟨0, .init rfl, Nat.le_refl _⟩
  | @step o o' t _ _ hcalled ih =>
    obtain ⟨block, hreached, hle⟩ := ih
    have hcall := hcalled.call
    have hlater := hcalled.later
    have hpos := hcalled.pos
    have hlt := hcalled.lt
    obtain ⟨sender, now, call⟩ := t
    cases call with
    | feedBaseFeeValue newValue blockNumber =>
      obtain ⟨oracle, hfed, ho'⟩ := bind_ok.mp hcall
      cases ho'
      have hround : Fed (o.oracle, block) ⟨o.access.hasRole SETTER, sender, now, newValue, blockNumber⟩
          (oracle, now) := ⟨rfl, hle.trans hlater, hpos, hlt, hfed⟩
      exact ⟨now, .step hreached trivial hround, Nat.le_refl _⟩
    | grantRole | revokeRole | renounceRole =>
      obtain ⟨access, -, ho'⟩ := bind_ok.mp hcall
      cases ho'
      exact ⟨block, hreached, hle.trans hlater⟩

/-- In every run of the contract each round is fed by the first setter or by one that the ultimate admin
made a setter; nobody else gets a role, and the rounds are those of a fed oracle. -/
theorem only_setters_feed (hadmin : setters admin)
    (h : CalledFrom (GrantsOnly ultimateAdmin setters) (.constructed admin ultimateAdmin) o) :
    (∃ block, Reached o.oracle block ∧ block.toNat ≤ o.block.toNat) ∧
    (∀ role account, o.access.hasRole role account = true →
      role = SETTER ∧ setters account ∨ role = ULTIMATE_ADMIN ∧ account = ultimateAdmin) ∧
    ∀ sender block newValue blockNumber o',
      Called o ⟨sender, block, .feedBaseFeeValue newValue blockNumber⟩ o' → setters sender := by
  have hroles := h.rolesBound hadmin
  refine ⟨h.reached, fun role account hheld => ?_, fun sender block newValue blockNumber o' hcalled => ?_⟩
  · by_cases hsetter : role = SETTER
    · subst hsetter
      exact .inl ⟨rfl, hroles.setter account hheld⟩
    · by_cases hultimate : role = ULTIMATE_ADMIN
      · subst hultimate
        exact .inr ⟨rfl, hroles.ultimate account hheld⟩
      · rw [hroles.others role hsetter hultimate] at hheld
        cases hheld
  · obtain ⟨oracle, hfed, -⟩ := bind_ok.mp hcalled.call
    obtain ⟨_, hheld, -⟩ := bind_ok.mp hfed
    exact hroles.setter sender (require_ok.mp hheld)

/-- Account 1 is the ultimate admin, 2 the first setter and 3 one that is added. -/
theorem only_setters_feed_sample : ∃ o, CalledFrom (GrantsOnly 1 fun a => a = 2 ∨ a = 3)
    (.constructed 2 1) o ∧ o.access.hasRole SETTER 3 = true ∧
    ∀ sender block newValue blockNumber o',
      Called o ⟨sender, block, .feedBaseFeeValue newValue blockNumber⟩ o' → sender = 2 ∨ sender = 3 := by
  obtain ⟨o, ho, hheld⟩ := exists_ok (p := fun o : Deployed => o.access.hasRole SETTER 3 = true)
    (x := CallIn.execute ⟨1, 10, .grantRole SETTER 3⟩ (.constructed 2 1)) (by decide +kernel)
  have hcalled : Called (.constructed 2 1) ⟨1, 10, .grantRole SETTER 3⟩ o :=
    ⟨by decide, by decide, by decide, ho⟩
  have hgrants : GrantsOnly 1 (fun a => a = 2 ∨ a = 3) (.constructed 2 1) ⟨1, 10, .grantRole SETTER 3⟩ := by
    rintro account - heq
    cases heq
    exact .inr rfl
  have hrun : CalledFrom (GrantsOnly 1 fun a => a = 2 ∨ a = 3) (.constructed 2 1) o :=
    .step (.init rfl) hgrants hcalled
  exact ⟨o, hrun, hheld, (only_setters_feed (.inl rfl) hrun).2.2⟩

/-- Once the ultimate admin has renounced the role no account ever gets a role again. -/
theorem renounced_for_good {cond : Deployed → CallIn → Prop}
    (h : CalledFrom cond (.constructed admin ultimateAdmin) o)
    (hgone : o.access.hasRole ULTIMATE_ADMIN ultimateAdmin = false) (hlater : CalledFrom cond o o') :
    ∀ role account, o'.access.hasRole role account = true → o.access.hasRole role account = true := by
  have hany : ∀ o t, cond o t → GrantsOnly ultimateAdmin (fun _ => True) o t := fun _ _ _ _ _ _ => trivial
  have hstart : RolesBound ultimateAdmin (fun _ => True) o.access :=
    @CalledFrom.rolesBound _ admin _ _ trivial (Lib.Reachable.mono hany h)
  have hrun : RolesBound ultimateAdmin (fun _ => True) o'.access ∧
      ∀ role account, o'.access.hasRole role account = true → o.access.hasRole role account = true := by
    induction hlater with
    | init heq =>
      rw [heq]
      exact ⟨hstart, fun _ _ hheld => hheld⟩
    | step _ hcond hcalled ih =>
      obtain ⟨hbound, hkept⟩ := ih
      refine ⟨hcalled.rolesBound (hany _ _ hcond) hbound, fun role account hheld => ?_⟩
      rcases hcalled.roles.2 role account hheld with hbefore | ⟨-, hadmin⟩
      · exact hkept role account hbefore
      · -- the grant needs an admin, and there is none
        by_cases hrole : role = SETTER
        · subst hrole
          rw [hbound.setterAdmin] at hadmin
          have hstill := hkept _ _ hadmin
          rw [hbound.ultimate _ hadmin, hgone] at hstill
          cases hstill
        · rw [hbound.otherAdmin role hrole, hbound.others _ (by decide) (by decide)] at hadmin
          cases hadmin
  exact hrun.2

/-- The ultimate admin 1 renounces before it makes anyone a setter. -/
theorem renounced_for_good_sample : ∃ o, CalledFrom (fun _ _ => True) (.constructed 2 1) o ∧
    ∀ o' account, CalledFrom (fun _ _ => True) o o' → o'.access.hasRole SETTER account = true →
      o.access.hasRole SETTER account = true := by
  obtain ⟨o, ho, hgone⟩ := exists_ok (p := fun o : Deployed => o.access.hasRole ULTIMATE_ADMIN 1 = false)
    (x := CallIn.execute ⟨1, 10, .renounceRole ULTIMATE_ADMIN 1⟩ (.constructed 2 1)) (by decide +kernel)
  have hcalled : Called (.constructed 2 1) ⟨1, 10, .renounceRole ULTIMATE_ADMIN 1⟩ o :=
    ⟨by decide, by decide, by decide, ho⟩
  have hrun : CalledFrom (fun _ _ => True) (.constructed 2 1) o := .step (.init rfl) trivial hcalled
  exact ⟨o, hrun, fun o' account hlater => renounced_for_good hrun hgone hlater SETTER account⟩

end BTCOracle

end Liquity
