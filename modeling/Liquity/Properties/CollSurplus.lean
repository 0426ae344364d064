import Liquity.Reserves.Steps

/-!
# Surplus collateral can always be claimed

The surplus pool's record is the sum of the balances, and a claim pays the balance it finds.
-/

open Lib

namespace Liquity

open SafeMath

variable {d : Deployment} {s s' : System}

/-- Claiming a backed balance. -/
theorem claimCollateral_of_backed {env : Env} (hb : d.External env.sender)
    (hs : SurplusBacked d 0 s) (hpos : 0 < s.collSurplusPool.balances env.sender) :
    ∃ s', BorrowerOperations.claimCollateral d env s = .ok s' := by
  have hle := le_sum s.collSurplusPool.balances env.sender
  have heq := hs.sum_eq
  have hether := hs.ether_le
  have hcovered : s.collSurplusPool.balances env.sender ≤ s.ether d.collSurplusPool := by omega
  simp only [BorrowerOperations.claimCollateral, CollSurplusPool.claimColl, bind_ok, require_ok,
    sub_ok, orRevert_ok]
  exact ⟨_, (), trivial, (), hpos, _, ⟨by omega, rfl⟩,
    System.callValue_external_of_le hb hcovered⟩

/-- In every reachable state the surplus pool's record is the sum of all balances, and whoever has a
balance can claim it: the claim pays exactly the balance and leaves all others alone. -/
theorem reachable_surplus_claimable (hd : d.Wired) (hr : Reachable d s) :
    s.collSurplusPool.ETH = ∑ a, s.collSurplusPool.balances a ∧
    ∀ env : Env, (Transaction.mk env .claimCollateral).Valid d s → env.value = 0 →
      0 < s.collSurplusPool.balances env.sender →
      ∃ s', Step d s ⟨env, .claimCollateral⟩ s' ∧
        s'.collSurplusPool.ETH + s.collSurplusPool.balances env.sender = s.collSurplusPool.ETH ∧
        s'.collSurplusPool.balances env.sender = 0 ∧
        (∀ a, a ≠ env.sender → s'.collSurplusPool.balances a = s.collSurplusPool.balances a) ∧
        s'.ether env.sender = s.ether env.sender + s.collSurplusPool.balances env.sender ∧
        s'.ether d.collSurplusPool + s.collSurplusPool.balances env.sender =
          s.ether d.collSurplusPool ∧
        ∀ a, a ≠ env.sender → a ≠ d.collSurplusPool → s'.ether a = s.ether a := by
  have hbacked := (hr.reserved hd).surplus
  have hsum := hbacked.sum_eq
  refine ⟨by omega, fun env hvalid hvalue hpos => ?_⟩
  have hb := hvalid.external
  have hne := hb.ne_collSurplusPool
  have hether := hbacked.ether_le
  obtain ⟨s', h⟩ := claimCollateral_of_backed (s := { s with timestamp := env.timestamp }) hb
    { hbacked with } hpos
  have hstep : Step d s ⟨env, .claimCollateral⟩ s' := .of_body hvalid hvalue h
  obtain ⟨hle, rfl⟩ := CollSurplusPool.claimColl_ok hb h
  refine ⟨_, hstep, ?_, ?_, fun a ha => ?_, ?_, ?_, fun a ha ha' => ?_⟩
  · dsimp only at hle ⊢
    omega
  · exact Function.update_self ..
  · exact Function.update_of_ne ha _ _
  · exact move_target hne.symm
  · dsimp only at hle ⊢
    rw [move_source hne.symm]
    omega
  · exact move_of_ne ha' ha

/-- Account 101 redeems all that account 102 owes: 102 has a surplus to claim. -/
def sampleRedemption : List Transaction :=
  sampleOpenings ++ [⟨⟨101, 0, 0, 2000 * 10 ^ 18⟩,
    .redeemCollateral (1005 * 10 ^ 18) ⟨102, 0, 0, 0⟩ 0 (10 ^ 18)⟩]

theorem sampleRedemption_surplus : ∃ s s', Reachable sampleDeployment s ∧
    s.collSurplusPool.ETH = ∑ a, s.collSurplusPool.balances a ∧
    s.collSurplusPool.balances 102 = 975 * 10 ^ 14 ∧
    Step sampleDeployment s ⟨⟨102, 0, 0, 2000 * 10 ^ 18⟩, .claimCollateral⟩ s' ∧
    s'.collSurplusPool.balances 102 = 0 ∧ s'.ether 102 = s.ether 102 + 975 * 10 ^ 14 := by
  obtain ⟨s, hr, hvalid, hbalance⟩ := exists_reachable (fun _ _ => True) sampleRedemption
    (fun s => (Transaction.mk ⟨102, 0, 0, 2000 * 10 ^ 18⟩ .claimCollateral).Valid sampleDeployment s ∧
      s.collSurplusPool.balances 102 = 975 * 10 ^ 14) (by decide +kernel)
  obtain ⟨hsum, hclaim⟩ := reachable_surplus_claimable sampleDeployment_wired hr
  obtain ⟨s', hstep, -, hzero, -, hpaid, -⟩ := hclaim ⟨102, 0, 0, 2000 * 10 ^ 18⟩ hvalid rfl
    (by rw [hbalance]; decide)
  exact ⟨s, s', hr, hsum, hbalance, hstep, hzero, by rw [hpaid, hbalance]⟩

end Liquity
