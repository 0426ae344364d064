import Liquity.PriceFeed.Outcomes
import Mathlib.Data.BitVec

/-!
# Which oracle answers the price feed hands out

One call either keeps the last good price or stores the current answer of an oracle that is live
and unbroken, and the status it ends in says which.  A stored answer has passed the deviation test
against its own previous round, or is confirmed by the other oracle, except on the paths that
`DeviationChecked` names.
-/

open Lib

namespace Liquity

namespace PriceFeed

/-! ## Provenance -/

/-- What the status after a call says about the price it stored. -/
def StatusTells (block : BitVec 256) (mainOracle backupOracle : IBTCOracle) (lastGoodPrice : Nat)
    (f : PriceFeed) : Prop :=
  match f.status with
  | .mainOracleWorking => MainAnswer block mainOracle f.lastGoodPrice
  | .bothOraclesUntrusted => f.lastGoodPrice = lastGoodPrice
  | .usingBackupMainUntrusted | .usingBackupMainFrozen =>
    CurrentAnswer block backupOracle f.lastGoodPrice ∨ f.lastGoodPrice = lastGoodPrice
  | .usingMainBackupUntrusted =>
    MainAnswer block mainOracle f.lastGoodPrice ∨ f.lastGoodPrice = lastGoodPrice

section Provenance

variable {block : BitVec 256} {mainOracle backupOracle : IBTCOracle} {f : PriceFeed}

theorem responses_unscaled (mainOracle backupOracle : IBTCOracle) :
    (responses mainOracle backupOracle).Unscaled := ⟨rfl, rfl⟩

theorem Outcome.statusTells {p : Nat × PriceFeed}
    (h : Outcome block (responses mainOracle backupOracle) f p) :
    p.1 = p.2.lastGoodPrice ∧
      (p.2.lastGoodPrice = f.lastGoodPrice ∨ MainAnswer block mainOracle p.2.lastGoodPrice ∨
        CurrentAnswer block backupOracle p.2.lastGoodPrice) ∧
      StatusTells block mainOracle backupOracle f.lastGoodPrice p.2 := by
  cases h with
  | kept hreturned hprice hstored hstatus hchecked =>
    refine ⟨hreturned, .inl hprice, ?_⟩
    unfold StatusTells
    split
    next hworking => exact absurd hworking hstatus
    next => exact hprice
    next => exact .inr hprice
    next => exact .inr hprice
    next => exact .inr hprice
  | main g hp hstored hstatus hbroken hfrozen hchecked =>
    have hmain : MainAnswer block mainOracle p.2.lastGoodPrice :=
      (mainAnswer_iff backupOracle).mpr ⟨hbroken, hfrozen, by rw [hp]; rfl⟩
    have hsame : p.2.status = g.status := by
      rw [hp]
      rfl
    refine ⟨by rw [hp]; rfl, .inr (.inl hmain), ?_⟩
    unfold StatusTells
    rcases hstatus with hstatus | hstatus
    · rw [hsame, hstatus]
      exact hmain
    · rw [hsame, hstatus]
      exact .inl hmain
  | backup g hp hstored hstatus hbroken hfrozen hchecked =>
    have hbackup : CurrentAnswer block backupOracle p.2.lastGoodPrice :=
      (backupAnswer_iff mainOracle).mpr ⟨hbroken, hfrozen, by rw [hp]; rfl⟩
    have hsame : p.2.status = g.status := by
      rw [hp]
      rfl
    refine ⟨by rw [hp]; rfl, .inr (.inr hbackup), ?_⟩
    unfold StatusTells
    rcases hstatus with hstatus | hstatus
    · rw [hsame, hstatus]
      exact .inl hbackup
    · rw [hsame, hstatus]
      exact .inl hbackup

/-- The storage of a feed that is not connected to its oracles yet. -/
def deployed : PriceFeed where
  lastGoodPrice := 0
  status := .mainOracleWorking
  events := []

/-- A call to `fetchPrice`: its block and its oracles' answers. -/
structure Fetch where
  block : BitVec 256
  mainOracle : IBTCOracle
  backupOracle : IBTCOracle

/-- The storage after `setAddresses` and any number of calls, each with any answers of oracles that
report with 18 decimals. -/
def Reached : PriceFeed → Prop :=
  Lib.Reachable
    (fun f : PriceFeed => ∃ block mainOracle, mainOracle.decimals = .ok 18 ∧
      setAddresses block mainOracle deployed = .ok f)
    (fun f (c : Fetch) f' =>
      ∃ price, fetchPrice c.block c.mainOracle c.backupOracle f = .ok (price, f'))
    (fun _ c => EighteenDecimals c.mainOracle c.backupOracle)

theorem setAddresses_pos (h18 : mainOracle.decimals = .ok 18)
    (h : setAddresses block mainOracle deployed = .ok f) : 0 < f.lastGoodPrice := by
  simp only [setAddresses, h18, bind_ok, require_ok, pure_ok, not_or] at h
  obtain ⟨-, ⟨hbroken, -⟩, _, hdecimals, rfl⟩ := h
  cases hdecimals
  change 0 < scalePriceByDigits _ 18
  rw [scalePriceByDigits_eighteen]
  exact answer_toNat_pos fun hbad => hbroken (.inl hbad)

/-- One call keeps the last good price positive. -/
theorem fetchPrice_spec (h : EighteenDecimals mainOracle backupOracle)
    (hpos : 0 < f.lastGoodPrice) :
    ∃ f', fetchPrice block mainOracle backupOracle f = .ok (f'.lastGoodPrice, f') ∧
      0 < f'.lastGoodPrice ∧
      (f'.lastGoodPrice = f.lastGoodPrice ∨ MainAnswer block mainOracle f'.lastGoodPrice ∨
        CurrentAnswer block backupOracle f'.lastGoodPrice) ∧
      StatusTells block mainOracle backupOracle f.lastGoodPrice f' := by
  obtain ⟨⟨price, f'⟩, hcall, houtcome⟩ := fetchFromResponses_ends block
    (responses_unscaled mainOracle backupOracle) f
  obtain ⟨hreturned, hsource, hstatus⟩ := houtcome.statusTells
  have hprice : price = f'.lastGoodPrice := hreturned
  subst hprice
  refine ⟨f', (fetchPrice_eq h f).trans hcall, ?_, hsource, hstatus⟩
  rcases hsource with hold | hmain | hbackup
  · exact hold ▸ hpos
  · exact hmain.1.pos
  · exact hbackup.pos

theorem Reached.pos (hf : Reached f) : 0 < f.lastGoodPrice := by
  unfold Reached at hf
  refine Lib.Reachable.invariant (fun f : PriceFeed => 0 < f.lastGoodPrice) ?_ ?_ hf
  · rintro f ⟨block, mainOracle, h18, h⟩
    exact setAddresses_pos h18 h
  · rintro f c f' - hpos h18 ⟨price, h⟩
    obtain ⟨g, hcall, hg, -⟩ := fetchPrice_spec h18 hpos
    rw [hcall] at h
    cases h
    exact hg

/-- Whatever the oracles answered before and answer now, the call returns the price it leaves
stored, which is positive and comes from where the status says. -/
theorem fetchPrice_provenance (hf : Reached f) (h : EighteenDecimals mainOracle backupOracle) :
    ∃ f', fetchPrice block mainOracle backupOracle f = .ok (f'.lastGoodPrice, f') ∧
      0 < f'.lastGoodPrice ∧
      (f'.lastGoodPrice = f.lastGoodPrice ∨ MainAnswer block mainOracle f'.lastGoodPrice ∨
        CurrentAnswer block backupOracle f'.lastGoodPrice) ∧
      StatusTells block mainOracle backupOracle f.lastGoodPrice f' :=
  fetchPrice_spec h hf.pos

/-- An oracle that updated in `block`, from `prev` to `current`. -/
def sampleOracle (prev current block : BitVec 256) : IBTCOracle where
  decimals := .ok 18
  latestRoundData := some { roundId := 2, answer := current, currentChainBN := block }
  getRoundData _ := some { roundId := 1, answer := prev, currentChainBN := block - 1 }

/-- A feed that was connected in block 1000 at a price of 100. -/
def sampleFeed : PriceFeed where
  lastGoodPrice := 100 * 10 ^ 18
  status := .mainOracleWorking
  events := [.lastGoodPriceUpdated (100 * 10 ^ 18)]

theorem sampleFeed_reached : Reached sampleFeed :=
  .init ⟨1000, sampleOracle (100 * 10 ^ 18) (100 * 10 ^ 18) 1000, rfl, rfl⟩

theorem fetchPrice_provenance_sample :
    ∃ f', fetchPrice 1001 (sampleOracle (100 * 10 ^ 18) (104 * 10 ^ 18) 1000)
        (sampleOracle (100 * 10 ^ 18) (101 * 10 ^ 18) 999) sampleFeed =
          .ok (f'.lastGoodPrice, f') ∧
      0 < f'.lastGoodPrice ∧
      (f'.lastGoodPrice = sampleFeed.lastGoodPrice ∨
        MainAnswer 1001 (sampleOracle (100 * 10 ^ 18) (104 * 10 ^ 18) 1000) f'.lastGoodPrice ∨
        CurrentAnswer 1001 (sampleOracle (100 * 10 ^ 18) (101 * 10 ^ 18) 999) f'.lastGoodPrice) ∧
      StatusTells 1001 (sampleOracle (100 * 10 ^ 18) (104 * 10 ^ 18) 1000)
        (sampleOracle (100 * 10 ^ 18) (101 * 10 ^ 18) 999) sampleFeed.lastGoodPrice f' :=
  fetchPrice_provenance sampleFeed_reached ⟨rfl, rfl⟩

end Provenance

/-! ## Deviation -/

section Deviation

variable {block : BitVec 256} {oracle mainOracle backupOracle : IBTCOracle} {f f' : PriceFeed}
  {price : Nat}

/-- Every answer the oracle gives is positive and below `2 ^ 200`. -/
structure InRange (oracle : IBTCOracle) : Prop where
  latest : ∀ data, oracle.latestRoundData = some data →
    0 < data.answer.toInt ∧ data.answer.toInt < 2 ^ 200
  round : ∀ id data, oracle.getRoundData id = some data →
    0 < data.answer.toInt ∧ data.answer.toInt < 2 ^ 200

/-- The current answer differs from the one of the previous round by at most 17.6% of the larger. -/
def WithinMaxDeviation (oracle : IBTCOracle) : Prop :=
  ∃ data prev, oracle.latestRoundData = some data ∧
    oracle.getRoundData (data.roundId - 1) = some prev ∧
    1000 * (max data.answer.toInt prev.answer.toInt - min data.answer.toInt prev.answer.toInt) ≤
      176 * max data.answer.toInt prev.answer.toInt

/-- Both oracles are live and unbroken, and their current answers are within 5% of each other: of
the lower one, to the 18 digits of the feed's prices. -/
def ConfirmEachOther (block : BitVec 256) (mainOracle backupOracle : IBTCOracle) : Prop :=
  ∃ p q, MainAnswer block mainOracle p ∧ CurrentAnswer block backupOracle q ∧
    (max p q - min p q) * 10 ^ 18 / min p q ≤ 5 * 10 ^ 16

/-- The price is an oracle's current answer that did not jump or that both oracles confirm. -/
def Confirmed (block : BitVec 256) (mainOracle backupOracle : IBTCOracle) (price : Nat) : Prop :=
  (MainAnswer block mainOracle price ∧ WithinMaxDeviation mainOracle) ∨
    (CurrentAnswer block backupOracle price ∧ WithinMaxDeviation backupOracle) ∨
    ConfirmEachOther block mainOracle backupOracle

theorem priceChangeAboveMax_iff {cur prev : Response} (hcur : cur.answer.toNat < 2 ^ 200)
    (hprev : prev.answer.toNat < 2 ^ 200) :
    ¬ priceChangeAboveMax cur prev 18 ↔
      1000 * (max cur.answer.toNat prev.answer.toNat - min cur.answer.toNat prev.answer.toNat) ≤
        176 * max cur.answer.toNat prev.answer.toNat := by
  simp only [priceChangeAboveMax, scalePriceByDigits_eighteen, LiquityMath.min_eq,
    LiquityMath.max_eq, MAX_PRICE_DEVIATION_PERCENTAGE_FROM_PREVIOUS_ROUND]
  rw [Nat.mod_eq_of_lt (by omega), not_lt, Nat.le_div_iff_mul_le (by decide)]
  omega

theorem toNat_lt_of_toInt {x : BitVec 256} (h : 0 < x.toInt ∧ x.toInt < 2 ^ 200) :
    x.toNat < 2 ^ 200 := by
  have := toInt_eq_toNat h.1
  omega

theorem responseOf_toNat_lt {call : Option RoundData}
    (h : ∀ data, call = some data → 0 < data.answer.toInt ∧ data.answer.toInt < 2 ^ 200) :
    (responseOf call).answer.toNat < 2 ^ 200 := by
  cases call with
  | none => exact Nat.two_pow_pos 200
  | some data => exact toNat_lt_of_toInt (h data rfl)

/-- The deviation test of an unbroken oracle is exact; a previous round that cannot be read counts
as a jump. -/
theorem withinMaxDeviation_iff (h : InRange oracle)
    (hgood : ¬ badResponse block (responseOf oracle.latestRoundData)) :
    WithinMaxDeviation oracle ↔
      ¬ priceChangeAboveMax (responseOf oracle.latestRoundData)
        (responseOf (oracle.getRoundData ((responseOf oracle.latestRoundData).roundId - 1)))
        18 := by
  rw [priceChangeAboveMax_iff (responseOf_toNat_lt h.latest) (responseOf_toNat_lt (h.round _))]
  obtain ⟨data, hlatest, hsound⟩ := not_badResponse_iff.mp hgood
  have hcur := toInt_eq_toNat hsound.answer_pos
  unfold WithinMaxDeviation
  rw [hlatest]
  simp only [responseOf, Option.some.injEq, exists_and_left, exists_eq_left']
  cases hround : oracle.getRoundData (data.roundId - 1) with
  | none =>
    have hpos := hsound.answer_pos
    simp only [reduceCtorEq, false_and, exists_false, false_iff, BitVec.ofNat_eq_ofNat,
      BitVec.toNat_ofNat]
    omega
  | some prev =>
    have hprev := toInt_eq_toNat (h.round _ _ hround).1
    simp only [Option.some.injEq, exists_eq_left']
    omega

theorem not_mainDeviates_iff (h : InRange mainOracle)
    (hgood : ¬ mainBroken block (responses mainOracle backupOracle)) :
    ¬ mainDeviates (responses mainOracle backupOracle) ↔ WithinMaxDeviation mainOracle :=
  (withinMaxDeviation_iff h fun hbad => hgood (.inl hbad)).symm

theorem not_backupDeviates_iff (h : InRange backupOracle)
    (hgood : ¬ backupBroken block (responses mainOracle backupOracle)) :
    ¬ backupDeviates (responses mainOracle backupOracle) ↔ WithinMaxDeviation backupOracle :=
  (withinMaxDeviation_iff h hgood).symm

/-- The comparison of two live and unbroken oracles finds exactly the prices within 5% of each
other, unless it overflows; prices that close are too close to overflow it. -/
theorem similarPrice_iff {m b : Nat} (hm : m < 2 ^ 200) (hb : b < 2 ^ 200) :
    ((max b m - min b m) * 10 ^ 18 % 2 ^ 256 / min b m ≤ 5 * 10 ^ 16 ∧
        ¬ 2 ^ 256 ≤ (max b m - min b m) * 10 ^ 18) ∧ 0 < min b m ↔
      (max m b - min m b) * 10 ^ 18 / min m b ≤ 5 * 10 ^ 16 ∧ 0 < min b m := by
  rw [max_comm m b, min_comm m b]
  refine and_congr_left fun hpos => ?_
  by_cases hoverflow : 2 ^ 256 ≤ (max b m - min b m) * 10 ^ 18
  · simp only [hoverflow, not_true_eq_false, and_false, false_iff, not_le]
    have hmin : min b m < 2 ^ 200 := by omega
    have hquot : (5 * 10 ^ 16 + 1) * min b m ≤ (max b m - min b m) * 10 ^ 18 := by omega
    exact (Nat.le_div_iff_mul_le hpos).mpr hquot
  · rw [Nat.mod_eq_of_lt (Nat.lt_of_not_le hoverflow)]
    simp only [hoverflow, not_false_eq_true, and_true]

theorem agree_iff (hmain : InRange mainOracle) (hbackup : InRange backupOracle) :
    Agree block (responses mainOracle backupOracle) ↔
      ConfirmEachOther block mainOracle backupOracle := by
  have hm : (getCurrentMainOracleResponse mainOracle).answer.toNat < 2 ^ 200 :=
    responseOf_toNat_lt hmain.latest
  have hb : (getCurrentBackupResponse backupOracle).answer.toNat < 2 ^ 200 :=
    responseOf_toNat_lt hbackup.latest
  have hprice := similarPrice_iff hm hb
  have hsimilar : similarPrice (responses mainOracle backupOracle) = .ok true ↔
      0 < min (getCurrentBackupResponse backupOracle).answer.toNat
        (getCurrentMainOracleResponse mainOracle).answer.toNat ∧
      (max (getCurrentBackupResponse backupOracle).answer.toNat
          (getCurrentMainOracleResponse mainOracle).answer.toNat -
        min (getCurrentBackupResponse backupOracle).answer.toNat
          (getCurrentMainOracleResponse mainOracle).answer.toNat) * 10 ^ 18 % 2 ^ 256 /
        min (getCurrentBackupResponse backupOracle).answer.toNat
          (getCurrentMainOracleResponse mainOracle).answer.toNat ≤ 5 * 10 ^ 16 := by
    simp only [similarPrice, bothOraclesSimilarPrice, responses, scalePriceByDigits_eighteen,
      LiquityMath.min_eq, LiquityMath.max_eq, bind_ok, assertThat_ok, pure_ok, decide_eq_true_eq,
      DECIMAL_PRECISION, MAX_PRICE_DIFFERENCE_BETWEEN_ORACLES, exists_const]
  rw [Agree, similar_iff, hsimilar]
  constructor
  · rintro ⟨⟨⟨hbb, hbf⟩, ⟨hmb, hmf⟩, hpos, hclose⟩, hoverflow⟩
    refine ⟨_, _, (mainAnswer_iff backupOracle).mpr ⟨hmb, hmf, rfl⟩,
      (backupAnswer_iff mainOracle).mpr ⟨hbb, hbf, rfl⟩, ?_⟩
    rw [scalePriceByDigits_eighteen, scalePriceByDigits_eighteen]
    exact (hprice.mp ⟨⟨hclose, hoverflow⟩, hpos⟩).1
  · rintro ⟨p, q, hp, hq, hclose⟩
    have hppos := hp.1.pos
    have hqpos := hq.pos
    obtain ⟨hmb, hmf, rfl⟩ := (mainAnswer_iff backupOracle).mp hp
    obtain ⟨hbb, hbf, rfl⟩ := (backupAnswer_iff mainOracle).mp hq
    rw [scalePriceByDigits_eighteen] at hppos hqpos
    rw [scalePriceByDigits_eighteen, scalePriceByDigits_eighteen] at hclose
    obtain ⟨⟨hclose, hoverflow⟩, hpos⟩ := hprice.mpr ⟨hclose, by omega⟩
    exact ⟨⟨⟨hbb, hbf⟩, ⟨hmb, hmf⟩, hpos, hclose⟩, hoverflow⟩

/-- Two oracles with the same current answer confirm each other. -/
theorem ConfirmEachOther.of_eq (hmain : MainAnswer block mainOracle price)
    (hbackup : CurrentAnswer block backupOracle price) :
    ConfirmEachOther block mainOracle backupOracle :=
  ⟨price, price, hmain, hbackup, by simp⟩

theorem Outcome.confirmed_iff {p : Nat × PriceFeed} (hmain : InRange mainOracle)
    (hbackup : InRange backupOracle)
    (h : Outcome block (responses mainOracle backupOracle) f p) :
    (p.2.storedPrices ≠ f.storedPrices →
      Confirmed block mainOracle backupOracle p.2.lastGoodPrice) ↔
      DeviationChecked block (responses mainOracle backupOracle) f.status := by
  cases h with
  | kept hreturned hprice hstored hstatus hchecked =>
    exact iff_of_true (fun hne => absurd hstored hne) hchecked
  | main g hp hstored hstatus hbroken hfrozen hchecked =>
    have hanswer : MainAnswer block mainOracle p.2.lastGoodPrice :=
      (mainAnswer_iff backupOracle).mpr ⟨hbroken, hfrozen, by rw [hp]; rfl⟩
    have hne : p.2.storedPrices ≠ f.storedPrices := by
      rw [hp, ← hstored]
      exact List.cons_ne_self _ _
    rw [hchecked, not_mainDeviates_iff hmain hbroken, agree_iff hmain hbackup]
    constructor
    · intro himp
      rcases himp hne with ⟨-, hwithin⟩ | ⟨hother, -⟩ | heach
      · exact .inl hwithin
      · exact .inr (.of_eq hanswer hother)
      · exact .inr heach
    · rintro (hwithin | heach) -
      · exact .inl ⟨hanswer, hwithin⟩
      · exact .inr (.inr heach)
  | backup g hp hstored hstatus hbroken hfrozen hchecked =>
    have hanswer : CurrentAnswer block backupOracle p.2.lastGoodPrice :=
      (backupAnswer_iff mainOracle).mpr ⟨hbroken, hfrozen, by rw [hp]; rfl⟩
    have hne : p.2.storedPrices ≠ f.storedPrices := by
      rw [hp, ← hstored]
      exact List.cons_ne_self _ _
    rw [hchecked, not_backupDeviates_iff hbackup hbroken,
      agree_iff hmain hbackup]
    constructor
    · intro himp
      rcases himp hne with ⟨hother, -⟩ | ⟨-, hwithin⟩ | heach
      · exact .inr (.of_eq hother hanswer)
      · exact .inl hwithin
      · exact .inr heach
    · rintro (hwithin | heach) -
      · exact .inr (.inl ⟨hanswer, hwithin⟩)
      · exact .inr (.inr heach)

theorem fetchPrice_outcome {p : Nat × PriceFeed} (h18 : EighteenDecimals mainOracle backupOracle)
    (h : fetchPrice block mainOracle backupOracle f = .ok p) :
    Outcome block (responses mainOracle backupOracle) f p := by
  obtain ⟨p', hcall, houtcome⟩ := fetchFromResponses_ends block
    (responses_unscaled mainOracle backupOracle) f
  rw [fetchPrice_eq h18, hcall] at h
  exact Except.ok.inj h ▸ houtcome

/-- A call that stores an answer stores a confirmed one exactly when its path is not one of those
that skip the deviation test of an answer that jumped. -/
theorem fetchPrice_confirmed_iff (h18 : EighteenDecimals mainOracle backupOracle)
    (hmain : InRange mainOracle) (hbackup : InRange backupOracle)
    (h : fetchPrice block mainOracle backupOracle f = .ok (price, f')) :
    (f'.storedPrices ≠ f.storedPrices → Confirmed block mainOracle backupOracle f'.lastGoodPrice) ↔
      DeviationChecked block (responses mainOracle backupOracle) f.status :=
  (fetchPrice_outcome h18 h).confirmed_iff hmain hbackup

theorem sampleOracle_inRange {prev current block : BitVec 256}
    (hprev : 0 < prev.toInt ∧ prev.toInt < 2 ^ 200)
    (hcurrent : 0 < current.toInt ∧ current.toInt < 2 ^ 200) :
    InRange (sampleOracle prev current block) where
  latest := by
    rintro data ⟨⟩
    exact hcurrent
  round := by
    rintro id data ⟨⟩
    exact hprev

theorem fetchPrice_confirmed_iff_sample :
    ((sampleFeed.storePrice (104 * 10 ^ 18)).storedPrices ≠ sampleFeed.storedPrices →
      Confirmed 1001 (sampleOracle (100 * 10 ^ 18) (104 * 10 ^ 18) 1000)
        (sampleOracle (100 * 10 ^ 18) (101 * 10 ^ 18) 999) (104 * 10 ^ 18)) ↔
      DeviationChecked 1001 (responses (sampleOracle (100 * 10 ^ 18) (104 * 10 ^ 18) 1000)
        (sampleOracle (100 * 10 ^ 18) (101 * 10 ^ 18) 999)) .mainOracleWorking :=
  have hcall : fetchPrice 1001 (sampleOracle (100 * 10 ^ 18) (104 * 10 ^ 18) 1000)
      (sampleOracle (100 * 10 ^ 18) (101 * 10 ^ 18) 999) sampleFeed =
        .ok (104 * 10 ^ 18, sampleFeed.storePrice (104 * 10 ^ 18)) := rfl
  fetchPrice_confirmed_iff ⟨rfl, rfl⟩ (sampleOracle_inRange (by decide) (by decide))
    (sampleOracle_inRange (by decide) (by decide)) hcall

/-- The main oracle has not updated for 100 blocks, and the backup's answer has just jumped from
100 to 150: the feed stores the 150, on the word of the backup alone. -/
theorem fetchPrice_unconfirmed :
    Reached sampleFeed ∧
      EighteenDecimals (sampleOracle (100 * 10 ^ 18) (100 * 10 ^ 18) 1000)
        (sampleOracle (100 * 10 ^ 18) (150 * 10 ^ 18) 1100) ∧
      InRange (sampleOracle (100 * 10 ^ 18) (100 * 10 ^ 18) 1000) ∧
      InRange (sampleOracle (100 * 10 ^ 18) (150 * 10 ^ 18) 1100) ∧
      ∃ f', fetchPrice 1100 (sampleOracle (100 * 10 ^ 18) (100 * 10 ^ 18) 1000)
          (sampleOracle (100 * 10 ^ 18) (150 * 10 ^ 18) 1100) sampleFeed =
            .ok (150 * 10 ^ 18, f') ∧
        f'.storedPrices ≠ sampleFeed.storedPrices ∧
        ¬ Confirmed 1100 (sampleOracle (100 * 10 ^ 18) (100 * 10 ^ 18) 1000)
          (sampleOracle (100 * 10 ^ 18) (150 * 10 ^ 18) 1100) f'.lastGoodPrice := by
  have hmain : InRange (sampleOracle (100 * 10 ^ 18) (100 * 10 ^ 18) 1000) :=
    sampleOracle_inRange (by decide) (by decide)
  have hbackup : InRange (sampleOracle (100 * 10 ^ 18) (150 * 10 ^ 18) 1100) :=
    sampleOracle_inRange (by decide) (by decide)
  have hcall : fetchPrice 1100 (sampleOracle (100 * 10 ^ 18) (100 * 10 ^ 18) 1000)
      (sampleOracle (100 * 10 ^ 18) (150 * 10 ^ 18) 1100) sampleFeed =
        .ok (150 * 10 ^ 18, (sampleFeed.changeStatus .usingBackupMainFrozen).storePrice
          (150 * 10 ^ 18)) := rfl
  refine ⟨sampleFeed_reached, ⟨rfl, rfl⟩, hmain, hbackup, _, hcall, List.cons_ne_self _ _, ?_⟩
  intro hconfirmed
  have hchecked := ((fetchPrice_outcome ⟨rfl, rfl⟩ hcall).confirmed_iff hmain hbackup).mp
    fun _ => hconfirmed
  exact hchecked (.inr (by decide)) (by decide) (by decide) (by decide)

end Deviation

end PriceFeed

end Liquity
