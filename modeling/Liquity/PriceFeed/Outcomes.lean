import Liquity.PriceFeed

/-!
# What one call to `fetchPrice` can do

The tests on responses are restated in terms of what the oracles report, and every path of the five
cases ends in one of three outcomes: the last good price is kept, or the main oracle's or the
backup's current answer is stored.  The outcome also says whether the path tested the deviation of
the answer it stores.
-/

open Lib

namespace Liquity

/-- The block of a round, in the 64 bits that the feed keeps. -/
def RoundData.blockNumber (data : RoundData) : Nat := (data.currentChainBN.setWidth 64).toNat

namespace PriceFeed

/-! ## What an oracle reports -/

/-- A valid round of a past block with a positive answer. -/
structure Sound (block : BitVec 256) (data : RoundData) : Prop where
  roundId_ne : data.roundId ≠ 0
  blockNumber_pos : 0 < data.blockNumber
  blockNumber_le : data.blockNumber ≤ block.toNat
  answer_pos : 0 < data.answer.toInt

/-- `price` is the oracle's current answer, sound and at most `TIMEOUT` blocks old. -/
def CurrentAnswer (block : BitVec 256) (oracle : IBTCOracle) (price : Nat) : Prop :=
  ∃ data, oracle.latestRoundData = some data ∧ Sound block data ∧
    block.toNat ≤ data.blockNumber + TIMEOUT ∧ (price : Int) = data.answer.toInt

/-- A current answer whose previous round is sound too, as the main oracle's has to be. -/
def MainAnswer (block : BitVec 256) (oracle : IBTCOracle) (price : Nat) : Prop :=
  CurrentAnswer block oracle price ∧
    ∃ data prev, oracle.latestRoundData = some data ∧
      oracle.getRoundData (data.roundId - 1) = some prev ∧ Sound block prev

/-- Both oracles report with 18 decimals. -/
structure EighteenDecimals (mainOracle backupOracle : IBTCOracle) : Prop where
  main : mainOracle.decimals = .ok 18
  backup : backupOracle.decimals = .ok 18

/-! ## The tests, in terms of the reports -/

section Tests

variable {block : BitVec 256} {oracle : IBTCOracle} {x : BitVec 256} {price : Nat}

theorem toInt_eq_toNat (hx : 0 < x.toInt) : x.toInt = x.toNat := by
  have hlt := x.isLt
  rw [BitVec.toInt_eq_toNat_cond] at hx ⊢
  split at hx
  · rw [if_pos ‹_›]
  · omega

theorem scalePriceByDigits_eighteen (price : Nat) : scalePriceByDigits price 18 = price := by
  simp [scalePriceByDigits, TARGET_DIGITS]

/-- A read response is good exactly when the call succeeded with a sound round. -/
theorem not_badResponse_iff {call : Option RoundData} :
    ¬ badResponse block (responseOf call) ↔ ∃ data, call = some data ∧ Sound block data := by
  cases call with
  | none => simp [responseOf, badResponse]
  | some data =>
    have hzero : (data.currentChainBN.setWidth 64 = 0) ↔ data.blockNumber = 0 := by
      rw [RoundData.blockNumber, ← BitVec.toNat_inj]
      rfl
    simp only [responseOf, badResponse, hzero, not_or, Option.some.injEq, exists_eq_left']
    constructor
    · rintro ⟨hround, ⟨hblock, hpast⟩, hanswer⟩
      exact ⟨hround, Nat.pos_of_ne_zero hblock, Nat.le_of_not_lt hpast, Int.lt_of_not_ge hanswer⟩
    · intro h
      exact ⟨h.roundId_ne, ⟨h.blockNumber_pos.ne', Nat.not_lt.mpr h.blockNumber_le⟩,
        Int.not_le.mpr h.answer_pos⟩

/-- The age of a round from the past does not wrap around. -/
theorem not_isFrozen_iff {data : RoundData} (h : Sound block data) :
    ¬ isFrozen block (responseOf (some data)) ↔ block.toNat ≤ data.blockNumber + TIMEOUT := by
  have hpast := h.blockNumber_le
  have hblock := block.isLt
  have hwidth : ((data.currentChainBN.setWidth 64).setWidth 256).toNat = data.blockNumber := by
    rw [BitVec.toNat_setWidth, RoundData.blockNumber]
    exact Nat.mod_eq_of_lt (by omega)
  simp only [isFrozen, responseOf, BitVec.toNat_sub, hwidth, TIMEOUT]
  omega

/-- An unbroken and live current response is what the feed stores. -/
theorem currentAnswer_iff :
    CurrentAnswer block oracle price ↔
      ¬ badResponse block (responseOf oracle.latestRoundData) ∧
        ¬ isFrozen block (responseOf oracle.latestRoundData) ∧
        price = scalePriceByDigits (responseOf oracle.latestRoundData).answer.toNat 18 := by
  rw [scalePriceByDigits_eighteen]
  constructor
  · rintro ⟨data, hlatest, hsound, hage, hprice⟩
    rw [hlatest]
    refine ⟨not_badResponse_iff.mpr ⟨data, rfl, hsound⟩, (not_isFrozen_iff hsound).mpr hage, ?_⟩
    rw [toInt_eq_toNat hsound.answer_pos] at hprice
    exact Int.ofNat_inj.mp hprice
  · rintro ⟨hgood, hlive, rfl⟩
    obtain ⟨data, hlatest, hsound⟩ := not_badResponse_iff.mp hgood
    rw [hlatest] at hlive ⊢
    exact ⟨data, hlatest, hsound, (not_isFrozen_iff hsound).mp hlive,
      (toInt_eq_toNat hsound.answer_pos).symm⟩

end Tests

/-! ## What a call reads -/

section Responses

variable {block : BitVec 256} {mainOracle backupOracle : IBTCOracle} {price : Nat}

/-- The responses of two oracles with 18 decimals. -/
def responses (mainOracle backupOracle : IBTCOracle) : Responses where
  decimals := 18
  mainOracleResponse := getCurrentMainOracleResponse mainOracle
  prevMainOracleResponse :=
    getPrevOracleResponse mainOracle (getCurrentMainOracleResponse mainOracle).roundId
  backupOracleResponse := getCurrentBackupResponse backupOracle
  prevBackupOracleResponse :=
    getPrevBackupOracleResponse backupOracle (getCurrentBackupResponse backupOracle).roundId
  backupDecimals := 18

theorem readOracles_eq (h : EighteenDecimals mainOracle backupOracle) :
    readOracles mainOracle backupOracle = .ok (responses mainOracle backupOracle) := by
  simp only [readOracles, h.main, h.backup]
  rfl

theorem fetchPrice_eq (h : EighteenDecimals mainOracle backupOracle) (f : PriceFeed) :
    fetchPrice block mainOracle backupOracle f =
      fetchFromResponses block (responses mainOracle backupOracle) f := by
  simp only [fetchPrice, readOracles_eq h]
  rfl

theorem backupAnswer_iff (mainOracle : IBTCOracle) :
    CurrentAnswer block backupOracle price ↔
      ¬ backupBroken block (responses mainOracle backupOracle) ∧
        ¬ backupFrozen block (responses mainOracle backupOracle) ∧
        price = scalePriceByDigits (getCurrentBackupResponse backupOracle).answer.toNat 18 :=
  currentAnswer_iff

theorem mainAnswer_iff (backupOracle : IBTCOracle) :
    MainAnswer block mainOracle price ↔
      ¬ mainBroken block (responses mainOracle backupOracle) ∧
        ¬ mainFrozen block (responses mainOracle backupOracle) ∧
        price = scalePriceByDigits (getCurrentMainOracleResponse mainOracle).answer.toNat 18 := by
  have hprev : ∀ {data : RoundData}, mainOracle.latestRoundData = some data →
      (¬ badResponse block (responses mainOracle backupOracle).prevMainOracleResponse ↔
        ∃ prev, mainOracle.getRoundData (data.roundId - 1) = some prev ∧ Sound block prev) := by
    intro data hlatest
    simp only [responses, getPrevOracleResponse, getCurrentMainOracleResponse, hlatest]
    exact not_badResponse_iff
  have hbroken : ¬ mainBroken block (responses mainOracle backupOracle) ↔
      ¬ badResponse block (responseOf mainOracle.latestRoundData) ∧
        ¬ badResponse block (responses mainOracle backupOracle).prevMainOracleResponse := by
    simp only [mainBroken, mainOracleIsBroken, not_or]
    rfl
  rw [hbroken]
  constructor
  · rintro ⟨hcurrent, data, prev, hlatest, hround, hsound⟩
    obtain ⟨hgood, hlive, hprice⟩ := currentAnswer_iff.mp hcurrent
    exact ⟨⟨hgood, (hprev hlatest).mpr ⟨prev, hround, hsound⟩⟩, hlive, hprice⟩
  · rintro ⟨⟨hgood, hgood'⟩, hlive, hprice⟩
    obtain ⟨data, hlatest, -⟩ := not_badResponse_iff.mp hgood
    obtain ⟨prev, hround, hsound⟩ := (hprev hlatest).mp hgood'
    exact ⟨currentAnswer_iff.mpr ⟨hgood, hlive, hprice⟩, data, prev, hlatest, hround, hsound⟩

theorem CurrentAnswer.pos (h : CurrentAnswer block backupOracle price) : 0 < price := by
  obtain ⟨data, -, hsound, -, hprice⟩ := h
  have hpos := hsound.answer_pos
  omega

end Responses

/-! ## One call, path by path -/

section Outcome

variable {block : BitVec 256} {r : Responses} {f : PriceFeed} {p : Nat × PriceFeed}

/-- Both oracles are live and unbroken and agree on the price. -/
def Similar (block : BitVec 256) (r : Responses) : Prop := liveAndSimilarPrice block r = .ok true

/-- The unchecked product of the comparison wraps around. -/
def DifferenceOverflows (r : Responses) : Prop :=
  2 ^ 256 ≤ (max r.backupOracleResponse.answer.toNat r.mainOracleResponse.answer.toNat -
    min r.backupOracleResponse.answer.toNat r.mainOracleResponse.answer.toNat) * DECIMAL_PRECISION

/-- The two oracles agree, and the comparison that says so did not overflow. -/
def Agree (block : BitVec 256) (r : Responses) : Prop :=
  Similar block r ∧ ¬ DifferenceOverflows r

/-- No unconfirmed jump is about to be stored.  The paths below are the ones that store an answer
without looking at its previous round: the backup's after the main oracle broke or froze, either
one's while the main oracle was frozen and the other is of no use for a comparison, and the main
oracle's after a comparison that overflowed. -/
def DeviationChecked (block : BitVec 256) (r : Responses) : Status → Prop
  | .mainOracleWorking =>
    mainBroken block r ∨ mainFrozen block r → ¬ backupBroken block r → ¬ backupFrozen block r →
      ¬ backupDeviates r
  | .usingBackupMainFrozen =>
    (¬ backupBroken block r → ¬ backupFrozen block r → ¬ Similar block r → ¬ backupDeviates r) ∧
      (¬ mainBroken block r → ¬ mainFrozen block r → backupBroken block r → ¬ mainDeviates r) ∧
      (Similar block r → DifferenceOverflows r → ¬ mainDeviates r)
  | .usingBackupMainUntrusted | .bothOraclesUntrusted | .usingMainBackupUntrusted =>
    Similar block r → DifferenceOverflows r → ¬ mainDeviates r

/-- The three things a call can do, with what held of the oracle whose answer it stores and of the
deviation test. -/
inductive Outcome (block : BitVec 256) (r : Responses) (f : PriceFeed) (p : Nat × PriceFeed) : Prop
  | kept (hreturned : p.1 = p.2.lastGoodPrice) (hprice : p.2.lastGoodPrice = f.lastGoodPrice)
      (hstored : p.2.storedPrices = f.storedPrices) (hstatus : p.2.status ≠ .mainOracleWorking)
      (hchecked : DeviationChecked block r f.status)
  | main (g : PriceFeed) (hp : p = g.storeMain r) (hstored : g.storedPrices = f.storedPrices)
      (hstatus : g.status = .mainOracleWorking ∨ g.status = .usingMainBackupUntrusted)
      (hbroken : ¬ mainBroken block r) (hfrozen : ¬ mainFrozen block r)
      (hchecked : DeviationChecked block r f.status ↔ ¬ mainDeviates r ∨ Agree block r)
  | backup (g : PriceFeed) (hp : p = g.storeBackup r) (hstored : g.storedPrices = f.storedPrices)
      (hstatus : g.status = .usingBackupMainUntrusted ∨ g.status = .usingBackupMainFrozen)
      (hbroken : ¬ backupBroken block r) (hfrozen : ¬ backupFrozen block r)
      (hchecked : DeviationChecked block r f.status ↔ ¬ backupDeviates r ∨ Agree block r)

theorem similar_iff :
    Similar block r ↔ (¬ backupBroken block r ∧ ¬ backupFrozen block r) ∧
      (¬ mainBroken block r ∧ ¬ mainFrozen block r) ∧ similarPrice r = .ok true := by
  unfold Similar liveAndSimilarPrice bothOraclesLiveAndUnbrokenAndSimilarPrice
  split
  next h => exact ⟨fun hok => absurd (Except.ok.inj hok) (by simp), by tauto⟩
  next h =>
    simp only [not_or] at h
    exact ⟨fun hsim => ⟨⟨h.1, h.2.1⟩, h.2.2, hsim⟩, fun hsim => hsim.2.2⟩

/-- The backup's answer is stored although its previous round was not looked at. -/
theorem Outcome.of_unchecked (g : PriceFeed) (hp : p = g.storeBackup r)
    (hstored : g.storedPrices = f.storedPrices)
    (hstatus : g.status = .usingBackupMainUntrusted ∨ g.status = .usingBackupMainFrozen)
    (hbroken : ¬ backupBroken block r) (hfrozen : ¬ backupFrozen block r)
    (hmain : mainBroken block r ∨ mainFrozen block r)
    (hcase : f.status = .mainOracleWorking ∨ f.status = .usingBackupMainFrozen) :
    Outcome block r f p := by
  refine .backup g hp hstored hstatus hbroken hfrozen ?_
  have hsim : ¬ Similar block r := fun h => by
    have hlive := (similar_iff.mp h).2.1
    tauto
  rcases hcase with hcase | hcase
  · simp [DeviationChecked, Agree, hcase, hmain, hbroken, hfrozen, hsim]
  · simp [DeviationChecked, Agree, hcase, hbroken, hfrozen, hsim]

theorem fetchMainOracleWorking_outcome (hs : f.status = .mainOracleWorking) :
    Outcome block r f (fetchMainOracleWorking block r f) := by
  unfold fetchMainOracleWorking
  by_cases hmb : mainBroken block r
  · rw [if_pos hmb]
    by_cases hbb : backupBroken block r
    · rw [if_pos hbb]
      exact .kept rfl rfl rfl (by simp [returnLastGoodPrice]) (by simp [DeviationChecked, hs, hbb])
    · rw [if_neg hbb]
      by_cases hbf : backupFrozen block r
      · rw [if_pos hbf]
        exact .kept rfl rfl rfl (by simp [returnLastGoodPrice])
          (by simp [DeviationChecked, hs, hbf])
      · rw [if_neg hbf]
        exact .of_unchecked _ rfl rfl (.inl rfl) hbb hbf (.inl hmb) (.inl hs)
  · rw [if_neg hmb]
    by_cases hmf : mainFrozen block r
    · rw [if_pos hmf]
      by_cases hbb : backupBroken block r
      · rw [if_pos hbb]
        exact .kept rfl rfl rfl (by simp [returnLastGoodPrice])
          (by simp [DeviationChecked, hs, hbb])
      · rw [if_neg hbb]
        by_cases hbf : backupFrozen block r
        · simp only [if_pos hbf]
          exact .kept rfl rfl rfl (by simp [returnLastGoodPrice])
            (by simp [DeviationChecked, hs, hbf])
        · simp only [if_neg hbf]
          exact .of_unchecked _ rfl rfl (.inr rfl) hbb hbf (.inr hmf) (.inl hs)
    · rw [if_neg hmf]
      -- a live and unbroken main oracle: both of its paths test its own deviation
      have hchecked : DeviationChecked block r f.status := by
        simp [DeviationChecked, hs, hmb, hmf]
      by_cases hmd : mainDeviates r
      · rw [if_pos hmd]
        by_cases hbb : backupBroken block r ∨ backupDeviates r
        · rw [if_pos hbb]
          exact .kept rfl rfl rfl (by simp [returnLastGoodPrice]) hchecked
        · rw [if_neg hbb]
          by_cases hbf : backupFrozen block r
          · rw [if_pos hbf]
            exact .kept rfl rfl rfl (by simp [returnLastGoodPrice]) hchecked
          · rw [if_neg hbf]
            rw [not_or] at hbb
            exact .backup _ rfl rfl (.inl rfl) hbb.1 hbf (iff_of_true hchecked (.inl hbb.2))
      · rw [if_neg hmd]
        refine .main _ rfl ?_ ?_ hmb hmf (iff_of_true hchecked (.inl hmd))
        · split <;> rfl
        · split
          · exact .inr rfl
          · exact .inl hs

/-! With 18 decimals no test divides by zero. -/

/-- Both oracles' prices are read as they are. -/
structure Responses.Unscaled (r : Responses) : Prop where
  main : r.decimals = 18
  backup : r.backupDecimals = 18

theorem answer_toNat_pos {response : Response} (h : ¬ badResponse block response) :
    0 < response.answer.toNat := by
  have hpos : 0 < response.answer.toInt := by
    unfold badResponse at h
    omega
  have := toInt_eq_toNat hpos
  omega

theorem similarPrice_total (hr : r.Unscaled) (hmain : ¬ mainBroken block r)
    (hbackup : ¬ backupBroken block r) : ∃ similar, similarPrice r = .ok similar := by
  have hm : 0 < r.mainOracleResponse.answer.toNat :=
    answer_toNat_pos fun hbad => hmain (.inl hbad)
  have hb : 0 < r.backupOracleResponse.answer.toNat := answer_toNat_pos hbackup
  simp only [similarPrice, bothOraclesSimilarPrice, hr.main, hr.backup, scalePriceByDigits_eighteen,
    LiquityMath.min_eq, bind_ok, assertThat_ok, pure_ok]
  exact ⟨_, (), by omega, rfl⟩

theorem liveAndSimilarPrice_total (block : BitVec 256) (hr : r.Unscaled) :
    ∃ similar, liveAndSimilarPrice block r = .ok similar := by
  unfold liveAndSimilarPrice bothOraclesLiveAndUnbrokenAndSimilarPrice
  split
  next => exact ⟨false, rfl⟩
  next h =>
    simp only [not_or] at h
    exact similarPrice_total hr (by simpa only [mainBroken] using h.2.2.1) h.1

/-- The call returns, and its outcome is one of the three. -/
def Ends (block : BitVec 256) (r : Responses) (f : PriceFeed) (call : Tx (Nat × PriceFeed)) : Prop :=
  ∃ p, call = .ok p ∧ Outcome block r f p

/-- Agreement of the two live oracles always leads back to the main one. -/
theorem Outcome.of_similar (hsim : Similar block r)
    (hchecked : DeviationChecked block r f.status ↔ (DifferenceOverflows r → ¬ mainDeviates r)) :
    Outcome block r f ((f.changeStatus .mainOracleWorking).storeMain r) := by
  have hlive := (similar_iff.mp hsim).2.1
  refine .main _ rfl rfl (.inl rfl) hlive.1 hlive.2 (hchecked.trans ⟨fun h => ?_, ?_⟩)
  · by_cases hoverflow : DifferenceOverflows r
    · exact .inl (h hoverflow)
    · exact .inr ⟨hsim, hoverflow⟩
  · rintro (h | h) hoverflow
    · exact h
    · exact absurd hoverflow h.2

theorem not_similar (h : liveAndSimilarPrice block r = .ok false) : ¬ Similar block r := by
  intro hsim
  rw [Similar, h] at hsim
  exact Bool.false_ne_true (Except.ok.inj hsim)

theorem fetchUsingBackupMainUntrusted_ends (hr : r.Unscaled)
    (hs : f.status = .usingBackupMainUntrusted) :
    Ends block r f (fetchUsingBackupMainUntrusted block r f) := by
  obtain ⟨similar, hsim⟩ := liveAndSimilarPrice_total block hr
  refine ⟨_, by rw [fetchUsingBackupMainUntrusted, hsim]; rfl, ?_⟩
  cases similar with
  | true => exact .of_similar hsim (by simp [DeviationChecked, hs, show Similar block r from hsim])
  | false =>
    rw [if_neg Bool.false_ne_true]
    have hchecked : DeviationChecked block r f.status := by
      simp [DeviationChecked, hs, not_similar hsim]
    by_cases hbb : backupBroken block r
    · rw [if_pos hbb]
      exact .kept rfl rfl rfl (by simp [returnLastGoodPrice]) hchecked
    · rw [if_neg hbb]
      by_cases hbf : backupFrozen block r
      · rw [if_pos hbf]
        exact .kept rfl rfl rfl (by simp [returnLastGoodPrice, hs]) hchecked
      · rw [if_neg hbf]
        by_cases hbd : backupDeviates r
        · rw [if_pos hbd]
          exact .kept rfl rfl rfl (by simp [returnLastGoodPrice]) hchecked
        · rw [if_neg hbd]
          exact .backup f rfl rfl (.inl hs) hbb hbf (iff_of_true hchecked (.inl hbd))

theorem fetchBothOraclesUntrusted_ends (hr : r.Unscaled) (hs : f.status = .bothOraclesUntrusted) :
    Ends block r f (fetchBothOraclesUntrusted block r f) := by
  obtain ⟨similar, hsim⟩ := liveAndSimilarPrice_total block hr
  refine ⟨_, by rw [fetchBothOraclesUntrusted, hsim]; rfl, ?_⟩
  cases similar with
  | true => exact .of_similar hsim (by simp [DeviationChecked, hs, show Similar block r from hsim])
  | false =>
    rw [if_neg Bool.false_ne_true]
    exact .kept rfl rfl rfl (by simp [returnLastGoodPrice, hs])
      (by simp [DeviationChecked, hs, not_similar hsim])

theorem fetchUsingBackupMainFrozen_ends (hr : r.Unscaled) (hs : f.status = .usingBackupMainFrozen) :
    Ends block r f (fetchUsingBackupMainFrozen block r f) := by
  unfold fetchUsingBackupMainFrozen
  by_cases hmb : mainBroken block r
  · rw [if_pos hmb]
    have hsim : ¬ Similar block r := fun h => (similar_iff.mp h).2.1.1 hmb
    by_cases hbb : backupBroken block r
    · rw [if_pos hbb]
      exact ⟨_, rfl, .kept rfl rfl rfl (by simp [returnLastGoodPrice])
        (by simp [DeviationChecked, hs, hbb, hmb, hsim])⟩
    · rw [if_neg hbb]
      by_cases hbf : backupFrozen block r
      · simp only [if_pos hbf]
        exact ⟨_, rfl, .kept rfl rfl rfl (by simp [returnLastGoodPrice])
          (by simp [DeviationChecked, hs, hbf, hmb, hsim])⟩
      · simp only [if_neg hbf]
        exact ⟨_, rfl, .of_unchecked _ rfl rfl (.inl rfl) hbb hbf (.inl hmb) (.inr hs)⟩
  · rw [if_neg hmb]
    by_cases hmf : mainFrozen block r
    · rw [if_pos hmf]
      have hsim : ¬ Similar block r := fun h => (similar_iff.mp h).2.1.2 hmf
      by_cases hbb : backupBroken block r
      · rw [if_pos hbb]
        exact ⟨_, rfl, .kept rfl rfl rfl (by simp [returnLastGoodPrice])
          (by simp [DeviationChecked, hs, hbb, hmf, hsim])⟩
      · rw [if_neg hbb]
        by_cases hbf : backupFrozen block r
        · rw [if_pos hbf]
          exact ⟨_, rfl, .kept rfl rfl rfl (by simp [returnLastGoodPrice, hs])
            (by simp [DeviationChecked, hs, hbf, hmf, hsim])⟩
        · rw [if_neg hbf]
          exact ⟨_, rfl, .of_unchecked f rfl rfl (.inr hs) hbb hbf (.inr hmf) (.inr hs)⟩
    · rw [if_neg hmf]
      by_cases hbb : backupBroken block r
      · rw [if_pos hbb]
        have hsim : ¬ Similar block r := fun h => (similar_iff.mp h).1.1 hbb
        exact ⟨_, rfl, .main _ rfl rfl (.inr rfl) hmb hmf
          (by simp [DeviationChecked, Agree, hs, hmb, hmf, hbb, hsim])⟩
      · rw [if_neg hbb]
        by_cases hbf : backupFrozen block r
        · rw [if_pos hbf]
          have hsim : ¬ Similar block r := fun h => (similar_iff.mp h).1.2 hbf
          exact ⟨_, rfl, .kept rfl rfl rfl (by simp [returnLastGoodPrice, hs])
            (by simp [DeviationChecked, hs, hbb, hbf, hsim])⟩
        · rw [if_neg hbf]
          -- both oracles are live and unbroken, and only their prices decide
          obtain ⟨similar, hprice⟩ := similarPrice_total hr hmb hbb
          refine ⟨_, by rw [hprice]; rfl, ?_⟩
          cases similar with
          | true =>
            have hsim : Similar block r := similar_iff.mpr ⟨⟨hbb, hbf⟩, ⟨hmb, hmf⟩, hprice⟩
            exact .of_similar hsim (by simp [DeviationChecked, hs, hbb, hsim])
          | false =>
            have hsim : ¬ Similar block r := fun h => by
              have htrue := (similar_iff.mp h).2.2
              rw [hprice] at htrue
              exact Bool.false_ne_true (Except.ok.inj htrue)
            exact .backup _ rfl rfl (.inl rfl) hbb hbf
              (by simp [DeviationChecked, Agree, hs, hbb, hbf, hsim])

theorem fetchUsingMainBackupUntrusted_ends (hr : r.Unscaled)
    (hs : f.status = .usingMainBackupUntrusted) :
    Ends block r f (fetchUsingMainBackupUntrusted block r f) := by
  unfold fetchUsingMainBackupUntrusted
  by_cases hmb : mainBroken block r
  · rw [if_pos hmb]
    have hsim : ¬ Similar block r := fun h => (similar_iff.mp h).2.1.1 hmb
    exact ⟨_, rfl, .kept rfl rfl rfl (by simp [returnLastGoodPrice])
      (by simp [DeviationChecked, hs, hsim])⟩
  · rw [if_neg hmb]
    by_cases hmf : mainFrozen block r
    · rw [if_pos hmf]
      have hsim : ¬ Similar block r := fun h => (similar_iff.mp h).2.1.2 hmf
      exact ⟨_, rfl, .kept rfl rfl rfl (by simp [returnLastGoodPrice, hs])
        (by simp [DeviationChecked, hs, hsim])⟩
    · rw [if_neg hmf]
      obtain ⟨similar, hsim⟩ := liveAndSimilarPrice_total block hr
      refine ⟨_, by rw [hsim]; rfl, ?_⟩
      cases similar with
      | true =>
        exact .of_similar hsim (by simp [DeviationChecked, hs, show Similar block r from hsim])
      | false =>
        rw [if_neg Bool.false_ne_true]
        have hchecked : DeviationChecked block r f.status := by
          simp [DeviationChecked, hs, not_similar hsim]
        by_cases hmd : mainDeviates r
        · rw [if_pos hmd]
          exact .kept rfl rfl rfl (by simp [returnLastGoodPrice]) hchecked
        · rw [if_neg hmd]
          exact .main f rfl rfl (.inr hs) hmb hmf (iff_of_true hchecked (.inl hmd))

/-- Every call ends in one of the three outcomes, from every status. -/
theorem fetchFromResponses_ends (block : BitVec 256) (hr : r.Unscaled) (f : PriceFeed) :
    Ends block r f (fetchFromResponses block r f) := by
  unfold fetchFromResponses
  split
  next hs => exact ⟨_, rfl, fetchMainOracleWorking_outcome hs⟩
  next hs => exact fetchUsingBackupMainUntrusted_ends hr hs
  next hs => exact fetchBothOraclesUntrusted_ends hr hs
  next hs => exact fetchUsingBackupMainFrozen_ends hr hs
  next hs => exact fetchUsingMainBackupUntrusted_ends hr hs

end Outcome

end PriceFeed

end Liquity
