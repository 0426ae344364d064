import Liquity.Execution

/-!
# The tokens and the lockups on the chain

What accounts can do with LUSD and LQTY besides the entry points of the protocol: they change
allowances, sign permits, and lock LQTY up in contracts that release it to a beneficiary later.
-/

open Lib

namespace Liquity

open SafeMath

/-! ## Allowances -/

namespace LUSDToken

def increaseAllowance (caller spender : Address) (addedValue : Nat) (t : LUSDToken) :
    Tx LUSDToken := do
  let allowance ← add (t.allowances caller spender) addedValue
  approveInternal caller spender allowance t

def decreaseAllowance (caller spender : Address) (subtractedValue : Nat) (t : LUSDToken) :
    Tx LUSDToken := do
  let allowance ← checkedSub "ERC20: decreased allowance below zero" (t.allowances caller spender)
    subtractedValue
  approveInternal caller spender allowance t

end LUSDToken

namespace LQTYToken

variable (d : Deployment)

def requireCallerIsNotMultisigInFirstYear (timestamp : Nat) (caller : Address) : Tx Unit := do
  let firstYear ← isFirstYear d timestamp
  require (firstYear = true → caller ≠ d.multisig) "LQTYToken: caller must not be the multisig"

def increaseAllowance (timestamp : Nat) (caller spender : Address) (addedValue : Nat)
    (t : LQTYToken) : Tx LQTYToken := do
  requireCallerIsNotMultisigInFirstYear d timestamp caller
  let allowance ← add (t.allowances caller spender) addedValue
  approveInternal caller spender allowance t

def decreaseAllowance (timestamp : Nat) (caller spender : Address) (subtractedValue : Nat)
    (t : LQTYToken) : Tx LQTYToken := do
  requireCallerIsNotMultisigInFirstYear d timestamp caller
  let allowance ← checkedSub "ERC20: decreased allowance below zero" (t.allowances caller spender)
    subtractedValue
  approveInternal caller spender allowance t

end LQTYToken

/-! ## What the chain provides -/

/-- The `v`, `r` and `s` of a signature. -/
structure Signature where
  v : BitVec 8
  r : BitVec 256
  s : BitVec 256
  deriving DecidableEq

/-- The precompiled functions, and the contracts that are not part of the protocol. -/
structure Surroundings where
  keccak256 : List (BitVec 8) → BitVec 256
  ecrecover : BitVec 256 → Signature → Address
  /-- `extcodesize(account) > 0`. -/
  hasCode : Address → Bool
  /-- `getDeploymentStartTime` of a contract other than the LQTY token. -/
  deploymentStartTimeOf : Address → Tx Nat
  /-- The chain that the tokens were deployed on. -/
  cachedChainId : Nat

/-! ## Permits -/

inductive Token where
  | LUSD
  | LQTY
  deriving DecidableEq

structure Permit where
  owner : Address
  spender : Address
  amount : Nat
  deadline : Nat
  deriving DecidableEq

namespace Token

def name : Token → String
  | LUSD => "BUSD"
  | LQTY => "MMMToken"

def version : Token → String
  | LUSD => "1"
  | LQTY => "1"

def address (d : Deployment) : Token → Address
  | LUSD => d.lusdToken
  | LQTY => d.lqtyToken

def expiredDeadline : Token → String
  | LUSD => "LUSD: expired deadline"
  | LQTY => "LQTY: expired deadline"

def invalidSignature : Token → String
  | LUSD => "LUSD: invalid signature"
  | LQTY => "LQTY: invalid signature"

/-- keccak256 of `EIP712Domain(string name,string version,uint256 chainId,address verifyingContract)`. -/
def TYPE_HASH : BitVec 256 :=
  0x8b73c3c69bb8fe3d512ecc4cf759cc79239f7b179b0ffacaa9a75d522b39400f

/-- keccak256 of
`Permit(address owner,address spender,uint256 value,uint256 nonce,uint256 deadline)`. -/
def PERMIT_TYPEHASH : BitVec 256 :=
  0x6e71edae12b1b97f4d1f60370fef10105fa2faae0126114a169c64845d6126c9

/-- A number as the 32 bytes of `abi.encode`. -/
def word (n : Nat) : List (BitVec 8) := (List.range 32).map fun i => BitVec.ofNat 8 (n / 256 ^ (31 - i))

/-- The bytes of an ASCII string. -/
def bytes (s : String) : List (BitVec 8) := s.toList.map fun c => BitVec.ofNat 8 c.toNat

variable (d : Deployment) (around : Surroundings)

def buildDomainSeparator (chainId : Nat) (token : Token) : BitVec 256 :=
  let hashedName := around.keccak256 (bytes token.name)
  let hashedVersion := around.keccak256 (bytes token.version)
  around.keccak256 (word TYPE_HASH.toNat ++ word hashedName.toNat ++ word hashedVersion.toNat ++
    word chainId ++ word (token.address d).val)

def domainSeparator (chainId : Nat) (token : Token) : BitVec 256 :=
  if chainId = around.cachedChainId then token.buildDomainSeparator d around around.cachedChainId
  -- after a fork of the chain the cached separator is not used any more
  else token.buildDomainSeparator d around chainId

/-- What the owner of a permit signs. -/
def digest (chainId nonce : Nat) (permit : Permit) (token : Token) : BitVec 256 :=
  let hashedPermit := around.keccak256 (word PERMIT_TYPEHASH.toNat ++ word permit.owner.val ++
    word permit.spender.val ++ word permit.amount ++ word nonce ++ word permit.deadline)
  around.keccak256 (0x19 :: 0x01 :: word (token.domainSeparator d around chainId).toNat ++
    word hashedPermit.toNat)

end Token

/-! ## Lockups -/

structure LockupContract where
  lqtyToken : Address
  beneficiary : Address
  unlockTime : Nat
  deriving DecidableEq

structure LockupContractFactory where
  owner : Address
  lqtyTokenAddress : Address
  lockupContractToDeployer : Address → Address

namespace LockupContract

def SECONDS_IN_ONE_YEAR : Nat := 31536000

variable (d : Deployment) (around : Surroundings)

/-- `lqtyToken.getDeploymentStartTime()`. -/
def getDeploymentStartTime (lqtyToken : Address) : Tx Nat :=
  if lqtyToken = d.lqtyToken then .ok d.deploymentStartTime
  else around.deploymentStartTimeOf lqtyToken

/-- The constructor. -/
def construct (lqtyToken beneficiary : Address) (unlockTime : Nat) : Tx LockupContract := do
  let systemDeploymentTime ← getDeploymentStartTime d around lqtyToken
  let earliest ← add systemDeploymentTime SECONDS_IN_ONE_YEAR
  require (earliest ≤ unlockTime)
    "LockupContract: unlock time must be at least one year after system deployment"
  return { lqtyToken, beneficiary, unlockTime }

/-- `withdrawLQTY` of the contract at `lockup`. -/
def withdrawLQTY (env : Env) (lockup : Address) (l : LockupContract) (s : System) : Tx System := do
  require (env.sender = l.beneficiary) "LockupContract: caller is not the beneficiary"
  require (l.unlockTime ≤ env.timestamp) "LockupContract: The lockup duration must have passed"
  if l.lqtyToken = d.lqtyToken then
    let LQTYBalance := s.lqtyToken.balances lockup
    s.onLQTYToken (LQTYToken.transfer d env.timestamp lockup l.beneficiary LQTYBalance)
  -- what a withdrawal of another token does is no part of the protocol's storage
  else return s

end LockupContract

/-! ## The chain -/

/-- The storage of the protocol, what the tokens keep besides, and the lockups. -/
structure Chain where
  system : System
  nonces : Token → Address → Nat
  factory : LockupContractFactory
  lockups : Address → Option LockupContract
  /-- The accounts that have sent a transaction. -/
  senders : List Address

namespace LockupContractFactory

def setLQTYTokenAddress (around : Surroundings) (caller lqtyTokenAddress : Address)
    (f : LockupContractFactory) : Tx LockupContractFactory := do
  require (caller = f.owner) "Ownable: caller is not the owner"
  require (lqtyTokenAddress ≠ 0) "Account cannot be zero address"
  require (around.hasCode lqtyTokenAddress = true) "Account code size cannot be zero"
  return { f with lqtyTokenAddress, owner := 0 }

/-- `deployLockupContract`, with the address that the new contract gets. -/
def deployLockupContract (d : Deployment) (around : Surroundings) (caller lockup beneficiary : Address)
    (unlockTime : Nat) (f : LockupContractFactory) :
    Tx (LockupContract × LockupContractFactory) := do
  require (f.lqtyTokenAddress ≠ 0) "LCF: LQTY Address is not set"
  let lockupContract ← LockupContract.construct d around f.lqtyTokenAddress beneficiary unlockTime
  return (lockupContract, { f with
    lockupContractToDeployer := Function.update f.lockupContractToDeployer lockup caller })

def isRegisteredLockup (contractAddress : Address) (f : LockupContractFactory) : Bool :=
  decide (f.lockupContractToDeployer contractAddress ≠ 0)

/-- The factory registers the lockup that it deploys, and keeps all that it has registered. -/
theorem deployLockupContract_registers {d : Deployment} {around : Surroundings}
    {caller lockup beneficiary : Address} {unlockTime : Nat} {f : LockupContractFactory}
    {deployed : LockupContract × LockupContractFactory} (hcaller : caller ≠ 0)
    (h : f.deployLockupContract d around caller lockup beneficiary unlockTime = .ok deployed)
    (a : Address) :
    deployed.2.isRegisteredLockup a = true ↔ a = lockup ∨ f.isRegisteredLockup a = true := by
  simp only [deployLockupContract, bind_ok, pure_ok] at h
  obtain ⟨-, -, _, -, rfl⟩ := h
  rw [isRegisteredLockup, isRegisteredLockup, decide_eq_true_iff, decide_eq_true_iff]
  dsimp only
  by_cases ha : a = lockup
  · rw [ha, Function.update_self]
    exact ⟨fun _ => .inl rfl, fun _ => hcaller⟩
  · rw [Function.update_of_ne ha]
    exact ⟨.inr, fun h => h.resolve_left ha⟩

end LockupContractFactory

namespace Chain

/-- The calls that are no entry points of the protocol. -/
inductive SideCall where
  | increaseAllowance (token : Token) (spender : Address) (addedValue : Nat)
  | decreaseAllowance (token : Token) (spender : Address) (subtractedValue : Nat)
  | permit (token : Token) (permit : Permit) (signature : Signature) (chainId : Nat)
  | setLQTYTokenAddress (lqtyTokenAddress : Address)
  | deployLockupContract (lockup beneficiary : Address) (unlockTime : Nat)
  /-- A lockup that is deployed without the factory. -/
  | newLockupContract (lockup lqtyToken beneficiary : Address) (unlockTime : Nat)
  | withdrawLQTY (lockup : Address)

inductive Call where
  | protocol (call : Liquity.Call)
  | side (call : SideCall)

variable (d : Deployment) (around : Surroundings)

def increaseAllowance (env : Env) (token : Token) (spender : Address) (addedValue : Nat) (s : System) :
    Tx System :=
  match token with
  | .LUSD => s.onLUSDToken (LUSDToken.increaseAllowance env.sender spender addedValue)
  | .LQTY => s.onLQTYToken (LQTYToken.increaseAllowance d env.timestamp env.sender spender addedValue)

def decreaseAllowance (env : Env) (token : Token) (spender : Address) (subtractedValue : Nat)
    (s : System) : Tx System :=
  match token with
  | .LUSD => s.onLUSDToken (LUSDToken.decreaseAllowance env.sender spender subtractedValue)
  | .LQTY =>
      s.onLQTYToken (LQTYToken.decreaseAllowance d env.timestamp env.sender spender subtractedValue)

/-- `_approve` of a token. -/
def approveInternal (token : Token) (owner spender : Address) (amount : Nat) (s : System) : Tx System :=
  match token with
  | .LUSD => s.onLUSDToken (LUSDToken.approveInternal owner spender amount)
  | .LQTY => s.onLQTYToken (LQTYToken.approveInternal owner spender amount)

/-- `permit` of a token.  The nonce is an unchecked word. -/
def permit (env : Env) (token : Token) (p : Permit) (signature : Signature) (chainId : Nat) (c : Chain) :
    Tx Chain := do
  require (env.timestamp ≤ p.deadline) token.expiredDeadline
  let nonce := c.nonces token p.owner
  let nonces := Function.update c.nonces token
    (Function.update (c.nonces token) p.owner ((nonce + 1) % 2 ^ 256))
  let recoveredAddress := around.ecrecover (token.digest d around chainId nonce p) signature
  require (recoveredAddress = p.owner) token.invalidSignature
  let system ← approveInternal token p.owner p.spender p.amount c.system
  return { c with system, nonces }

def withdrawLQTY (env : Env) (lockup : Address) (c : Chain) : Tx Chain :=
  match c.lockups lockup with
  | some l => do
    let system ← l.withdrawLQTY d env lockup c.system
    return { c with system }
  | none => .error (.reason "no contract at this address")

def SideCall.body (env : Env) : SideCall → Chain → Tx Chain
  | increaseAllowance token spender addedValue, c => do
    let system ← Chain.increaseAllowance d env token spender addedValue c.system
    return { c with system }
  | decreaseAllowance token spender subtractedValue, c => do
    let system ← Chain.decreaseAllowance d env token spender subtractedValue c.system
    return { c with system }
  | permit token p signature chainId, c => Chain.permit d around env token p signature chainId c
  | setLQTYTokenAddress lqtyTokenAddress, c => do
    let factory ← c.factory.setLQTYTokenAddress around env.sender lqtyTokenAddress
    return { c with factory }
  | deployLockupContract lockup beneficiary unlockTime, c => do
    let deployed ← c.factory.deployLockupContract d around env.sender lockup beneficiary unlockTime
    return { c with
      factory := deployed.2, lockups := Function.update c.lockups lockup (some deployed.1) }
  | newLockupContract lockup lqtyToken beneficiary unlockTime, c => do
    let l ← LockupContract.construct d around lqtyToken beneficiary unlockTime
    return { c with lockups := Function.update c.lockups lockup (some l) }
  | withdrawLQTY lockup, c => Chain.withdrawLQTY d env lockup c

/-- The body of a call; none of the side calls is `payable`. -/
def Call.body (env : Env) : Call → Chain → Tx Chain
  | protocol call, c => do
    let system ← call.execute d env c.system
    return { c with system }
  | side call, c => do
    require (env.value = 0) "function is not payable"
    call.body d around env { c with system := { c.system with timestamp := env.timestamp } }

/-- One transaction. -/
def Call.execute (env : Env) (call : Call) (c : Chain) : Tx Chain := do
  let c' ← call.body d around env c
  return { c' with senders := env.sender :: c'.senders }

/-- The address of the contract that a call creates. -/
def Call.created : Call → Option Address
  | side (.deployLockupContract lockup ..) => some lockup
  | side (.newLockupContract lockup ..) => some lockup
  | _ => none

/-- The chain puts a new contract where nothing is yet and nobody has sent anything from. -/
structure Fresh (env : Env) (a : Address) (c : Chain) : Prop where
  external : d.External a
  lockups : c.lockups a = none
  senders : a ∉ env.sender :: c.senders

/-- What the chain guarantees of a transaction. -/
structure Call.Valid (env : Env) (call : Call) (c : Chain) : Prop where
  external : d.External env.sender
  time : c.system.timestamp ≤ env.timestamp
  price : 0 < env.price
  /-- Contracts send no transactions. -/
  sender : c.lockups env.sender = none
  created : ∀ a ∈ call.created, Fresh d env a c

/-- A successful transaction. -/
def Step (c : Chain) (t : Env × Call) (c' : Chain) : Prop :=
  t.2.Valid d t.1 c ∧ t.2.execute d around t.1 c = .ok c'

/-- The protocol as it is wired, a new factory, and no lockups. -/
def IsInitial (c : Chain) : Prop :=
  Liquity.IsInitial d c.system ∧ c.nonces = (fun _ _ => 0) ∧ c.lockups = (fun _ => none) ∧ c.senders = [] ∧
    ∃ owner, c.factory = ⟨owner, 0, fun _ => 0⟩

/-- A run of transactions that meet a condition, from one state of the chain to another. -/
def RunFrom (cond : Chain → Env × Call → Prop) (c : Chain) : Chain → Prop :=
  Lib.Reachable (fun c₀ => c₀ = c) (Step d around) cond

/-- The states that any sequence of transactions reaches. -/
def Reachable : Chain → Prop := Lib.Reachable (IsInitial d) (Step d around) fun _ _ => True

/-! ## Running concrete transactions -/

instance (env : Env) (a : Address) (c : Chain) : Decidable (Fresh d env a c) :=
  decidable_of_iff (d.External a ∧ c.lockups a = none ∧ a ∉ env.sender :: c.senders)
    ⟨fun ⟨h₁, h₂, h₃⟩ => ⟨h₁, h₂, h₃⟩, fun ⟨h₁, h₂, h₃⟩ => ⟨h₁, h₂, h₃⟩⟩

/-- At most one address is looked at, and not all there are. -/
instance (env : Env) (call : Call) (c : Chain) : Decidable (∀ a ∈ call.created, Fresh d env a c) :=
  Option.decidableForallMem call.created

instance (env : Env) (call : Call) (c : Chain) : Decidable (call.Valid d env c) :=
  decidable_of_iff (d.External env.sender ∧ c.system.timestamp ≤ env.timestamp ∧ 0 < env.price ∧
      c.lockups env.sender = none ∧ ∀ a ∈ call.created, Fresh d env a c)
    ⟨fun ⟨h₁, h₂, h₃, h₄, h₅⟩ => ⟨h₁, h₂, h₃, h₄, h₅⟩, fun ⟨h₁, h₂, h₃, h₄, h₅⟩ => ⟨h₁, h₂, h₃, h₄, h₅⟩⟩

/-- The first state of the sample deployment; account 104 deployed the factory. -/
def sample : Chain where
  system := sampleInitial
  nonces := fun _ _ => 0
  factory := ⟨104, 0, fun _ => 0⟩
  lockups := fun _ => none
  senders := []

theorem sample_reachable {around : Surroundings} : Reachable sampleDeployment around sample :=
  .init ⟨isInitial_funded sampleDeployment (by decide), rfl, rfl, rfl, 104, rfl⟩

end Chain

/-- The owner of the sample permits: the account of the private key 1. -/
def sampleOwner : Address := 0x7e5f4552091a69125d5dfcb7b8c2659029395bdf

/-- Two permits for account 102, signed for LUSD and the chain 31337. -/
def samplePermit (amount : Nat) : Permit := ⟨sampleOwner, 102, amount, 1000⟩

def sampleSignature : Signature :=
  ⟨27, 0xf01d6b9018ab421dd410404cb869072065522bf85734008f105cf385a023a80f,
    0x1fa31dfd818c95d27fbdce590995f874cb82ecf43b74451a137594d6879ac65b⟩

def sampleSecondSignature : Signature :=
  ⟨27, 0x89b6bd7a7c385383ff466db721729e2f4ab4c650bb72e2dedfafd6ff61277a55,
    0x7f7969c8323518c8bfbcc6e132ba414734f612825ce561b71589eb6c3ec0dd0b⟩

namespace Surroundings

/-- The values that the precompiled functions have on the inputs of the sample permits. -/
def sampleHashes : List (List (BitVec 8) × BitVec 256) :=
  let hashedName : BitVec 256 := 0x54c512ac779647672b8d02e2fe2dc10f79bbf19f719d887221696215fd24e9f1
  let hashedVersion : BitVec 256 := 0xc89efdaa54c0f20c7adf612882df0950f5a951637e0307cdcb4c672f298b8bc6
  let separator : BitVec 256 := 0x87b93ae424af50bf173541ff74602989ba7f96921f287cda531cabfc22f09cf9
  let hashedPermit : BitVec 256 := 0x535e80f739b58fc0095817e962ee4261c850ecc1f978525bc40d42878e315fb4
  let hashedSecond : BitVec 256 := 0xec12143b64cae8bd6ab42da871164ba2ff6ff4e4d5c92644c44caf89fad5c55d
  let permitWords (amount nonce : Nat) : List (BitVec 8) :=
    Token.word Token.PERMIT_TYPEHASH.toNat ++ Token.word sampleOwner.val ++ Token.word 102 ++
      Token.word amount ++ Token.word nonce ++ Token.word 1000
  [(Token.bytes "BUSD", hashedName), (Token.bytes "1", hashedVersion),
    (Token.word Token.TYPE_HASH.toNat ++ Token.word hashedName.toNat ++ Token.word hashedVersion.toNat ++
      Token.word 31337 ++ Token.word 10, separator),
    (permitWords (500 * 10 ^ 18) 0, hashedPermit), (permitWords (700 * 10 ^ 18) 1, hashedSecond),
    (0x19 :: 0x01 :: Token.word separator.toNat ++ Token.word hashedPermit.toNat,
      0x6ef15eb3b2efea1023fc1c14069cb9214720ea8029277d61be5ea9371cd45865),
    (0x19 :: 0x01 :: Token.word separator.toNat ++ Token.word hashedSecond.toNat,
      0xd0f1c1c02f1a6b0d2aaa49c0741d1f3a9c3287ab71b360c2dae592fb64e1bf72)]

def sample : Surroundings where
  keccak256 m := (sampleHashes.lookup m).getD 0
  ecrecover digest signature :=
    if (digest, signature) ∈ [(0x6ef15eb3b2efea1023fc1c14069cb9214720ea8029277d61be5ea9371cd45865#256,
        sampleSignature),
      (0xd0f1c1c02f1a6b0d2aaa49c0741d1f3a9c3287ab71b360c2dae592fb64e1bf72#256, sampleSecondSignature)]
    then sampleOwner else 0
  hasCode a := decide (a ∈ sampleDeployment.contracts)
  deploymentStartTimeOf _ := .error (.reason "no such contract")
  cachedChainId := 31337

end Surroundings

end Liquity
