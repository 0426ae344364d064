import Liquity.BTCOracle
import Liquity.PriceFeed.Outcomes
import Mathlib.Data.BitVec

/-!
# The rounds of the oracle

Source blocks increase strictly with the round and fit in 64 bits, so there are fewer than `2 ^ 64`
rounds and the round counter never wraps.  The price feed asks for the last two rounds; a round that
was never fed is empty, and that makes the oracle broken until it has two rounds with positive answers.
-/

open Lib

namespace Liquity

namespace BTCOracle

open PriceFeed

/-- A call that feeds a round: who makes it, in which block, and who may make it then. -/
structure Feed where
  hasRole : Address → Bool
  sender : Address
  block : BitVec 256
  newValue : BitVec 256
  blockNumber : BitVec 64

/-- A successful call in a block of the chain that is not before the last one. -/
structure Fed (o : BTCOracle × BitVec 256) (c : Feed) (o' : BTCOracle × BitVec 256) : Prop where
  block : o'.2 = c.block
  later : o.2.toNat ≤ c.block.toNat
  pos : 1 ≤ c.block.toNat
  lt : c.block.toNat < 2 ^ 64
  call : feedBaseFeeValue c.hasRole c.sender c.block c.newValue c.blockNumber o.1 = .ok o'.1

/-- The oracle after any number of successful calls, with the block of the last one. -/
def Reached (o : BTCOracle) (block : BitVec 256) : Prop :=
  Lib.Reachable (fun o : BTCOracle × BitVec 256 => o = (initial, 0)) Fed (fun _ _ => True) (o, block)

variable {o o' : BTCOracle} {block block' : BitVec 256} {r r' : BitVec 256}

/-! ## One call -/

theorem feedBaseFeeValue_ok {hasRole : Address → Bool} {sender : Address} {newValue : BitVec 256}
    {blockNumber : BitVec 64}
    (h : feedBaseFeeValue hasRole sender block newValue blockNumber o = .ok o') :
    (o.responseById o.latestRound).blockNumber.toNat < blockNumber.toNat ∧
      o' = {
        responseById := Function.update o.responseById (o.latestRound + 1)
          ⟨newValue, blockNumber.setWidth 256, block, o.latestRound + 1⟩
        latestRound := o.latestRound + 1 } := by
  simp only [feedBaseFeeValue, getRoundData, bind_ok, require_ok, pure_ok, BitVec.add_sub_cancel] at h
  obtain ⟨-, -, -, hlater, rfl⟩ := h
  refine ⟨?_, rfl⟩
  rw [BitVec.not_le, BitVec.lt_def, BitVec.toNat_setWidth_of_le (by decide)] at hlater
  exact hlater

/-! ## The invariant -/

/-- What holds of the rounds of an oracle that was last fed in `block`. -/
structure Rounds (o : BTCOracle) (block : BitVec 256) : Prop where
  block_lt : block.toNat < 2 ^ 64
  stored : ∀ r, 1 ≤ r.toNat → r.toNat ≤ o.latestRound.toNat →
    (o.responseById r).roundId = r ∧ 1 ≤ (o.responseById r).currentChainBN.toNat ∧
      (o.responseById r).currentChainBN.toNat ≤ block.toNat
  increasing : ∀ r r', 1 ≤ r.toNat → r.toNat < r'.toNat → r'.toNat ≤ o.latestRound.toNat →
    (o.responseById r).blockNumber.toNat < (o.responseById r').blockNumber.toNat
  absent : ∀ r, r.toNat = 0 ∨ o.latestRound.toNat < r.toNat → o.responseById r = Response.empty
  /-- There are no more rounds than source blocks. -/
  counted : o.latestRound.toNat ≤ (o.responseById o.latestRound).blockNumber.toNat
  blockNumber_lt : (o.responseById o.latestRound).blockNumber.toNat < 2 ^ 64

theorem rounds_initial : Rounds initial 0 where
  block_lt := by decide
  stored r hpos hle := absurd (hpos.trans hle) (by decide)
  increasing r r' hpos hlt hle := absurd (hpos.trans (hlt.le.trans hle)) (by decide)
  absent _ _ := rfl
  counted := Nat.le_refl _
  blockNumber_lt := by decide

namespace Rounds

theorem latestRound_lt (h : Rounds o block) : o.latestRound.toNat < 2 ^ 64 :=
  h.counted.trans_lt h.blockNumber_lt

/-- The round counter does not wrap. -/
theorem next_toNat (h : Rounds o block) :
    (o.latestRound + 1).toNat = o.latestRound.toNat + 1 := by
  have hlt := h.latestRound_lt
  rw [BitVec.toNat_add]
  exact Nat.mod_eq_of_lt (by simp; omega)

/-- One more round. -/
theorem feed (h : Rounds o block) {c : Feed} (hlater : block.toNat ≤ c.block.toNat)
    (hpos : 1 ≤ c.block.toNat) (hlt : c.block.toNat < 2 ^ 64)
    (hcall : feedBaseFeeValue c.hasRole c.sender c.block c.newValue c.blockNumber o = .ok o') :
    Rounds o' c.block := by
  obtain ⟨hsource, rfl⟩ := feedBaseFeeValue_ok hcall
  have hnext := h.next_toNat
  have hwidth : (c.blockNumber.setWidth 256).toNat = c.blockNumber.toNat :=
    BitVec.toNat_setWidth_of_le (by decide)
  have hne : ∀ r : BitVec 256, r.toNat ≠ o.latestRound.toNat + 1 → r ≠ o.latestRound + 1 := by
    rintro r hr rfl
    exact hr hnext
  have hkept : ∀ r : BitVec 256, r.toNat ≠ o.latestRound.toNat + 1 →
      Function.update o.responseById (o.latestRound + 1)
        ⟨c.newValue, c.blockNumber.setWidth 256, c.block, o.latestRound + 1⟩ r =
          o.responseById r := fun r hr => Function.update_of_ne (hne r hr) _ _
  -- the round before has the largest source block so far
  have hlargest : ∀ r : BitVec 256, 1 ≤ r.toNat → r.toNat ≤ o.latestRound.toNat →
      (o.responseById r).blockNumber.toNat < c.blockNumber.toNat := by
    intro r hr hle
    rcases Nat.lt_or_eq_of_le hle with hlt | heq
    · exact (h.increasing r o.latestRound hr hlt (Nat.le_refl _)).trans hsource
    · rw [BitVec.toNat_inj.mp heq]
      exact hsource
  constructor
  · exact hlt
  · intro r hr hle
    dsimp only at hle ⊢
    rw [hnext] at hle
    by_cases hlast : r.toNat = o.latestRound.toNat + 1
    · obtain rfl : r = o.latestRound + 1 := BitVec.toNat_inj.mp (hlast.trans hnext.symm)
      rw [Function.update_self]
      exact ⟨rfl, hpos, Nat.le_refl _⟩
    · rw [hkept r hlast]
      obtain ⟨hid, hfirst, hblock⟩ := h.stored r hr (by omega)
      exact ⟨hid, hfirst, hblock.trans hlater⟩
  · intro r r' hr hrr' hle
    dsimp only at hle ⊢
    rw [hnext] at hle
    rw [hkept r (by omega)]
    by_cases hlast : r'.toNat = o.latestRound.toNat + 1
    · obtain rfl : r' = o.latestRound + 1 := BitVec.toNat_inj.mp (hlast.trans hnext.symm)
      rw [Function.update_self, hwidth]
      exact hlargest r hr (by omega)
    · rw [hkept r' hlast]
      exact h.increasing r r' hr hrr' (by omega)
  · intro r hr
    dsimp only at hr ⊢
    rw [hnext] at hr
    rw [hkept r (by omega)]
    exact h.absent r (by omega)
  · dsimp only
    rw [Function.update_self, hnext, hwidth]
    exact h.counted.trans_lt hsource
  · dsimp only
    rw [Function.update_self, hwidth]
    exact c.blockNumber.isLt

end Rounds

theorem Reached.rounds (h : Reached o block) : Rounds o block := by
  refine Lib.Reachable.invariant (fun o : BTCOracle × BitVec 256 => Rounds o.1 o.2) ?_ ?_ h
  · rintro _ rfl
    exact rounds_initial
  · rintro o c o' - ho - hfed
    rw [hfed.block]
    exact ho.feed hfed.later hfed.pos hfed.lt hfed.call

/-! ## The feed's view -/

/-- The response that the feed builds from a round. -/
def readRound (o : BTCOracle) (r : BitVec 256) : PriceFeed.Response :=
  responseOf (o.toIBTCOracle.getRoundData r)

namespace Rounds

theorem bad_of_absent (h : Rounds o block) (hr : r.toNat = 0 ∨ o.latestRound.toNat < r.toNat) :
    badResponse block' (o.readRound r) := by
  refine .inl ?_
  change (o.responseById r).roundId = 0
  rw [h.absent r hr]
  rfl

/-- The block of a stored round fits in the 64 bits that the feed keeps, and is not in the future. -/
theorem bad_of_stored (h : Rounds o block) (hlater : block.toNat ≤ block'.toNat) (hr : 1 ≤ r.toNat)
    (hle : r.toNat ≤ o.latestRound.toNat) :
    badResponse block' (o.readRound r) ↔ (o.responseById r).answer.toInt ≤ 0 := by
  obtain ⟨hid, hpos, hblock⟩ := h.stored r hr hle
  have hlt := h.block_lt
  have hwidth : ((o.responseById r).currentChainBN.setWidth 64).toNat =
      (o.responseById r).currentChainBN.toNat := by
    rw [BitVec.toNat_setWidth]
    exact Nat.mod_eq_of_lt (by omega)
  have hround : (o.readRound r).roundId ≠ 0 := by
    change (o.responseById r).roundId ≠ 0
    rw [hid]
    rintro rfl
    exact absurd hr (by decide)
  have hnumber : (o.readRound r).blockNumber.toNat = (o.responseById r).currentChainBN.toNat := hwidth
  have hzero : (o.readRound r).blockNumber ≠ 0 := by
    intro hzero
    rw [hzero] at hnumber
    have hnone : (0 : BitVec 64).toNat = 0 := rfl
    omega
  rw [badResponse, hnumber]
  constructor
  · rintro (hbad | (hbad | hbad) | hbad)
    · exact absurd hbad hround
    · exact absurd hbad hzero
    · omega
    · exact hbad
  · intro hanswer
    exact .inr (.inr hanswer)

theorem mainOracleIsBroken_iff (h : Rounds o block) (hlater : block.toNat ≤ block'.toNat) :
    mainOracleIsBroken block' (getCurrentMainOracleResponse o.toIBTCOracle)
        (getPrevOracleResponse o.toIBTCOracle
          (getCurrentMainOracleResponse o.toIBTCOracle).roundId) ↔
      o.latestRound.toNat < 2 ∨ (o.responseById o.latestRound).answer.toInt ≤ 0 ∨
        (o.responseById (o.latestRound - 1)).answer.toInt ≤ 0 := by
  change badResponse block' (o.readRound o.latestRound) ∨
    badResponse block' (o.readRound ((o.responseById o.latestRound).roundId - 1)) ↔ _
  by_cases hzero : o.latestRound.toNat = 0
  · -- no round: the previous one is asked for under the largest word
    exact iff_of_true (.inl (h.bad_of_absent (.inl hzero))) (.inl (by omega))
  have hid := (h.stored o.latestRound (by omega) (Nat.le_refl _)).1
  have hprev : (o.latestRound - 1).toNat = o.latestRound.toNat - 1 := by
    have hone : (1 : BitVec 256) ≤ o.latestRound := by
      rw [BitVec.le_def]
      simp
      omega
    rw [BitVec.toNat_sub_of_le hone]
    rfl
  rw [hid, h.bad_of_stored hlater (by omega) (Nat.le_refl _)]
  by_cases hone : o.latestRound.toNat = 1
  · exact iff_of_true (.inr (h.bad_of_absent (.inl (by omega)))) (.inl (by omega))
  · rw [h.bad_of_stored hlater (by omega) (by omega)]
    exact (or_iff_right (by omega)).symm

end Rounds

/-- The rounds of every oracle that has been fed in blocks of 64 bits, and what the price feed makes
of them in any later block. -/
theorem reached_rounds (h : Reached o block) :
    (∀ r, 1 ≤ r.toNat → r.toNat ≤ o.latestRound.toNat → (o.responseById r).roundId = r) ∧
    (∀ r r', 1 ≤ r.toNat → r.toNat < r'.toNat → r'.toNat ≤ o.latestRound.toNat →
      (o.responseById r).blockNumber.toNat < (o.responseById r').blockNumber.toNat) ∧
    (∀ r, r.toNat = 0 ∨ o.latestRound.toNat < r.toNat → o.responseById r = Response.empty) ∧
    ∀ later : BitVec 256, block.toNat ≤ later.toNat →
      (mainOracleIsBroken later (getCurrentMainOracleResponse o.toIBTCOracle)
          (getPrevOracleResponse o.toIBTCOracle
            (getCurrentMainOracleResponse o.toIBTCOracle).roundId) ↔
        o.latestRound.toNat < 2 ∨ (o.responseById o.latestRound).answer.toInt ≤ 0 ∨
          (o.responseById (o.latestRound - 1)).answer.toInt ≤ 0) := by
  have hrounds := h.rounds
  exact ⟨fun r hr hle => (hrounds.stored r hr hle).1, hrounds.increasing, hrounds.absent,
    fun _ hlater => hrounds.mainOracleIsBroken_iff hlater⟩

/-- Two positive answers, fed in blocks 10 and 12. -/
theorem reached_rounds_sample : ∃ o, Reached o 12 ∧ o.latestRound = 2 ∧
    ¬ mainOracleIsBroken 12 (getCurrentMainOracleResponse o.toIBTCOracle)
      (getPrevOracleResponse o.toIBTCOracle
        (getCurrentMainOracleResponse o.toIBTCOracle).roundId) := by
  let first : Feed := ⟨fun a => a = 7, 7, 10, 2000 * 10 ^ 18, 5⟩
  let second : Feed := ⟨fun a => a = 7, 7, 12, 2010 * 10 ^ 18, 6⟩
  obtain ⟨o, hcalls, hround, hgood⟩ := exists_ok
    (p := fun o : BTCOracle => o.latestRound = 2 ∧ ¬ (o.latestRound.toNat < 2 ∨
      (o.responseById o.latestRound).answer.toInt ≤ 0 ∨
        (o.responseById (o.latestRound - 1)).answer.toInt ≤ 0))
    (x := feedBaseFeeValue first.hasRole first.sender first.block first.newValue first.blockNumber
      initial >>= feedBaseFeeValue second.hasRole second.sender second.block second.newValue
        second.blockNumber) (by decide +kernel)
  obtain ⟨o₁, h₁, h₂⟩ := bind_ok.mp hcalls
  have hlater : (10 : BitVec 256).toNat ≤ (12 : BitVec 256).toNat := by decide
  have hfirst : Reached o₁ 10 :=
    .step (i := first) (.init rfl) trivial ⟨rfl, by decide, by decide, by decide, h₁⟩
  have hreached : Reached o 12 :=
    .step (i := second) hfirst trivial ⟨rfl, hlater, by decide, by decide, h₂⟩
  exact ⟨o, hreached, hround, mt ((reached_rounds hreached).2.2.2 12 (Nat.le_refl _)).mp hgood⟩

end BTCOracle

end Liquity
