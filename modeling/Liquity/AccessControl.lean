import Liquity.BTCOracle

/-!
# Roles of the oracle

`BTCOracle` inherits `AccessControl`: a role is a word, and the accounts that hold its admin role grant
and revoke it.  The constructor gives the setter role to one account and the role that administers it to
another.
-/

open Lib

namespace Liquity

namespace AccessControl

structure RoleData where
  hasRole : Address → Bool
  adminRole : BitVec 256

end AccessControl

structure AccessControl where
  roles : BitVec 256 → AccessControl.RoleData

namespace AccessControl

def DEFAULT_ADMIN_ROLE : BitVec 256 := 0

/-- No account has a role, and every role is administered by the default one. -/
def initial : AccessControl := { roles := fun _ => { hasRole := fun _ => false, adminRole := 0 } }

def hasRole (role : BitVec 256) (account : Address) (a : AccessControl) : Bool :=
  (a.roles role).hasRole account

def checkRole (role : BitVec 256) (account : Address) (a : AccessControl) : Tx Unit :=
  require (a.hasRole role account = true) "Admin Role Missing"

def getRoleAdmin (role : BitVec 256) (a : AccessControl) : BitVec 256 := (a.roles role).adminRole

def setRoleAdmin (role adminRole : BitVec 256) (a : AccessControl) : AccessControl :=
  { roles := Function.update a.roles role { a.roles role with adminRole } }

/-- Writes the membership of one account. -/
def setHasRole (role : BitVec 256) (account : Address) (value : Bool) (a : AccessControl) :
    AccessControl :=
  { roles := Function.update a.roles role { a.roles role with
      hasRole := Function.update (a.roles role).hasRole account value } }

def grantRoleInternal (role : BitVec 256) (account : Address) (a : AccessControl) : AccessControl :=
  if a.hasRole role account = false then a.setHasRole role account true else a

def revokeRoleInternal (role : BitVec 256) (account : Address) (a : AccessControl) : AccessControl :=
  if a.hasRole role account = true then a.setHasRole role account false else a

def grantRole (sender : Address) (role : BitVec 256) (account : Address) (a : AccessControl) :
    Tx AccessControl := do
  a.checkRole (a.getRoleAdmin role) sender
  return a.grantRoleInternal role account

def revokeRole (sender : Address) (role : BitVec 256) (account : Address) (a : AccessControl) :
    Tx AccessControl := do
  a.checkRole (a.getRoleAdmin role) sender
  return a.revokeRoleInternal role account

def renounceRole (sender : Address) (role : BitVec 256) (callerConfirmation : Address)
    (a : AccessControl) : Tx AccessControl := do
  require (callerConfirmation = sender) "AccessControlBadConfirmation"
  return a.revokeRoleInternal role callerConfirmation

end AccessControl

namespace BTCOracle

/-- keccak256 of `SETTER`. -/
def SETTER : BitVec 256 := 0x8e4f01b2ef10e587f670bbfd448bba9a57a36fd9c81549b587269120cb62b24d

/-- keccak256 of `ULTIMATE_ADMIN`. -/
def ULTIMATE_ADMIN : BitVec 256 := 0x6ce44ac19daa541a3cad4667c612cff8964428a20ce88eca8a6022803dbffc32

/-- The roles after the constructor. -/
def constructorRoles (admin ultimateAdmin : Address) : AccessControl :=
  ((AccessControl.initial.grantRoleInternal ULTIMATE_ADMIN ultimateAdmin).setRoleAdmin SETTER
    ULTIMATE_ADMIN).grantRoleInternal SETTER admin

/-- The storage of the contract, with the block it was last called in. -/
structure Deployed where
  oracle : BTCOracle
  access : AccessControl
  block : BitVec 256

inductive Call where
  | feedBaseFeeValue (newValue : BitVec 256) (blockNumber : BitVec 64)
  | grantRole (role : BitVec 256) (account : Address)
  | revokeRole (role : BitVec 256) (account : Address)
  | renounceRole (role : BitVec 256) (callerConfirmation : Address)

/-- A call of `sender` in a block of the chain. -/
structure CallIn where
  sender : Address
  block : BitVec 256
  call : Call

def Deployed.constructed (admin ultimateAdmin : Address) : Deployed :=
  { oracle := initial, access := constructorRoles admin ultimateAdmin, block := 0 }

def CallIn.execute (t : CallIn) (o : Deployed) : Tx Deployed :=
  match t.call with
  | .feedBaseFeeValue newValue blockNumber => do
    let oracle ← BTCOracle.feedBaseFeeValue (o.access.hasRole SETTER) t.sender t.block newValue
      blockNumber o.oracle
    return { o with oracle, block := t.block }
  | .grantRole role account => do
    let access ← o.access.grantRole t.sender role account
    return { o with access, block := t.block }
  | .revokeRole role account => do
    let access ← o.access.revokeRole t.sender role account
    return { o with access, block := t.block }
  | .renounceRole role callerConfirmation => do
    let access ← o.access.renounceRole t.sender role callerConfirmation
    return { o with access, block := t.block }

/-- A successful call in a block of 64 bits that is not before the last one. -/
structure Called (o : Deployed) (t : CallIn) (o' : Deployed) : Prop where
  later : o.block.toNat ≤ t.block.toNat
  pos : 1 ≤ t.block.toNat
  lt : t.block.toNat < 2 ^ 64
  call : t.execute o = .ok o'

/-- A run of calls that meet a condition, from one state of the contract to another. -/
def CalledFrom (cond : Deployed → CallIn → Prop) (o : Deployed) : Deployed → Prop :=
  Lib.Reachable (fun o₀ => o₀ = o) Called cond

end BTCOracle

end Liquity
