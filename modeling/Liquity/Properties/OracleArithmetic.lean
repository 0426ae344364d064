import Liquity.Properties.PriceFeed

/-!
# The comparisons of the price feed, with and without wrapping

Both comparisons multiply before they divide, and the products are unchecked.  The wrapped product is
never larger than the exact one: a huge difference of two oracles can look small, and a small change of
one oracle can look large, but not the other way round.
-/

open Lib

namespace Liquity

namespace PriceFeed

/-! ## The exact comparisons -/

/-- How far two prices are apart. -/
def difference (p q : Nat) : Nat := max p q - min p q

/-- At most 5% of the lower price, to the 18 digits of the feed's prices. -/
def WithinFivePercent (p q : Nat) : Prop :=
  difference p q * DECIMAL_PRECISION / min p q ≤ MAX_PRICE_DIFFERENCE_BETWEEN_ORACLES

/-- Above 17.6% of the larger price. -/
def AboveMaxDeviation (p q : Nat) : Prop :=
  max p q * MAX_PRICE_DEVIATION_PERCENTAGE_FROM_PREVIOUS_ROUND / 1000 < difference p q

/-- The scaled difference fits in a word, or is within 5% anyway, or what is left of it after wrapping
is above 5%. -/
def ComparisonExact (p q : Nat) : Prop :=
  difference p q * DECIMAL_PRECISION < 2 ^ 256 ∨
    difference p q * DECIMAL_PRECISION < (MAX_PRICE_DIFFERENCE_BETWEEN_ORACLES + 1) * min p q ∨
    (MAX_PRICE_DIFFERENCE_BETWEEN_ORACLES + 1) * min p q ≤
      difference p q * DECIMAL_PRECISION % 2 ^ 256

/-- The scaled maximum fits in a word, or the change is above the exact threshold anyway, or it is at
most the wrapped threshold. -/
def ThresholdExact (p q : Nat) : Prop :=
  max p q * MAX_PRICE_DEVIATION_PERCENTAGE_FROM_PREVIOUS_ROUND < 2 ^ 256 ∨
    max p q * MAX_PRICE_DEVIATION_PERCENTAGE_FROM_PREVIOUS_ROUND / 1000 < difference p q ∨
    difference p q ≤ max p q * MAX_PRICE_DEVIATION_PERCENTAGE_FROM_PREVIOUS_ROUND % 2 ^ 256 / 1000

/-! ## Wrapping -/

/-- A remainder below a bound is misleading unless the number is. -/
theorem mod_lt_exact_iff (n modulus bound : Nat) :
    (n % modulus < bound ↔ n < bound) ↔ n < modulus ∨ n < bound ∨ bound ≤ n % modulus := by
  have hle := Nat.mod_le n modulus
  by_cases hfits : n < modulus
  · rw [Nat.mod_eq_of_lt hfits]
    exact iff_of_true Iff.rfl (.inl hfits)
  · omega

theorem lt_mod_div_exact_iff (n modulus bound k : Nat) :
    (n % modulus / k < bound ↔ n / k < bound) ↔
      n < modulus ∨ n / k < bound ∨ bound ≤ n % modulus / k := by
  have hle : n % modulus / k ≤ n / k := Nat.div_le_div_right (Nat.mod_le n modulus)
  by_cases hfits : n < modulus
  · rw [Nat.mod_eq_of_lt hfits]
    exact iff_of_true Iff.rfl (.inl hfits)
  · omega

theorem div_le_iff_lt_mul {n p : Nat} (c : Nat) (hp : 0 < p) : n / p ≤ c ↔ n < (c + 1) * p := by
  rw [← Nat.lt_succ_iff, Nat.div_lt_iff_lt_mul hp]

section Tests

variable {current prev main backup : Response}

theorem answer_pos {response : Response} (h : 0 < response.answer.toInt) :
    0 < response.answer.toNat := by
  have heq := toInt_eq_toNat h
  omega

/-- What the code compares, with 18 decimals. -/
theorem bothOraclesSimilarPrice_iff (hmain : 0 < main.answer.toNat) (hbackup : 0 < backup.answer.toNat) :
    bothOraclesSimilarPrice main backup 18 18 = .ok true ↔
      difference main.answer.toNat backup.answer.toNat * DECIMAL_PRECISION % 2 ^ 256 <
        (MAX_PRICE_DIFFERENCE_BETWEEN_ORACLES + 1) *
          min main.answer.toNat backup.answer.toNat := by
  have hmin : 0 < min main.answer.toNat backup.answer.toNat := lt_min hmain hbackup
  rw [← div_le_iff_lt_mul _ hmin]
  simp only [bothOraclesSimilarPrice, scalePriceByDigits_eighteen, LiquityMath.min_eq,
    LiquityMath.max_eq, bind_ok, assertThat_ok, pure_ok, decide_eq_true_eq, exists_const, difference,
    max_comm backup.answer.toNat, min_comm backup.answer.toNat]
  exact and_iff_right hmin

theorem similar_exact_iff (hmain : 0 < main.answer.toNat) (hbackup : 0 < backup.answer.toNat) :
    (bothOraclesSimilarPrice main backup 18 18 = .ok true ↔
      WithinFivePercent main.answer.toNat backup.answer.toNat) ↔
        ComparisonExact main.answer.toNat backup.answer.toNat := by
  have hmin : 0 < min main.answer.toNat backup.answer.toNat := lt_min hmain hbackup
  rw [bothOraclesSimilarPrice_iff hmain hbackup, WithinFivePercent, div_le_iff_lt_mul _ hmin]
  exact mod_lt_exact_iff _ _ _

theorem change_exact_iff :
    (priceChangeAboveMax current prev 18 ↔
      AboveMaxDeviation current.answer.toNat prev.answer.toNat) ↔
        ThresholdExact current.answer.toNat prev.answer.toNat := by
  simp only [priceChangeAboveMax, scalePriceByDigits_eighteen, LiquityMath.min_eq, LiquityMath.max_eq]
  exact lt_mod_div_exact_iff _ _ _ _

end Tests

/-! ## Returning to the main oracle -/

section Status

variable {block : BitVec 256} {r : Responses} {f : PriceFeed} {p : Nat × PriceFeed}

/-- A path that does not look similar stores what it stores under another status. -/
theorem ne_working_of_cases {q : Nat × PriceFeed} (hsim : ¬ Similar block r)
    (hq : q.2.status ≠ .mainOracleWorking) (h : q = p) :
    p.2.status = .mainOracleWorking ↔ Similar block r := by
  subst h
  exact iff_of_false hq hsim

theorem working_of_similar (hsim : Similar block r)
    (h : (f.changeStatus .mainOracleWorking).storeMain r = p) :
    p.2.status = .mainOracleWorking ↔ Similar block r := by
  subst h
  exact iff_of_true rfl hsim

theorem working_usingBackupMainUntrusted (hf : f.status = .usingBackupMainUntrusted)
    (h : fetchUsingBackupMainUntrusted block r f = .ok p) :
    p.2.status = .mainOracleWorking ↔ Similar block r := by
  obtain ⟨similar, hsim, h⟩ := bind_ok.mp h
  have h := pure_ok.mp h
  cases similar with
  | true => exact working_of_similar hsim h
  | false =>
    refine ne_working_of_cases (not_similar hsim) ?_ h
    rw [if_neg Bool.false_ne_true]
    repeat' split
    all_goals simp [returnLastGoodPrice, storeBackup, storeGoodPrice, hf]

theorem working_bothOraclesUntrusted (hf : f.status = .bothOraclesUntrusted)
    (h : fetchBothOraclesUntrusted block r f = .ok p) :
    p.2.status = .mainOracleWorking ↔ Similar block r := by
  obtain ⟨similar, hsim, h⟩ := bind_ok.mp h
  have h := pure_ok.mp h
  cases similar with
  | true => exact working_of_similar hsim h
  | false =>
    refine ne_working_of_cases (not_similar hsim) ?_ h
    simp [returnLastGoodPrice, hf]

theorem working_usingBackupMainFrozen (hf : f.status = .usingBackupMainFrozen)
    (h : fetchUsingBackupMainFrozen block r f = .ok p) :
    p.2.status = .mainOracleWorking ↔ Similar block r := by
  unfold fetchUsingBackupMainFrozen at h
  by_cases hmb : mainBroken block r
  · have hsim : ¬ Similar block r := fun hsim => (similar_iff.mp hsim).2.1.1 hmb
    rw [if_pos hmb] at h
    split at h
    · exact ne_working_of_cases hsim (by simp [returnLastGoodPrice]) (Except.ok.inj h)
    · dsimp only at h
      split at h
      · exact ne_working_of_cases hsim (by simp [returnLastGoodPrice]) (Except.ok.inj h)
      · exact ne_working_of_cases hsim (by simp [storeBackup, storeGoodPrice]) (Except.ok.inj h)
  rw [if_neg hmb] at h
  by_cases hmf : mainFrozen block r
  · have hsim : ¬ Similar block r := fun hsim => (similar_iff.mp hsim).2.1.2 hmf
    rw [if_pos hmf] at h
    split at h
    · exact ne_working_of_cases hsim (by simp [returnLastGoodPrice]) (Except.ok.inj h)
    · split at h
      · exact ne_working_of_cases hsim (by simp [returnLastGoodPrice, hf]) (Except.ok.inj h)
      · exact ne_working_of_cases hsim (by simp [storeBackup, storeGoodPrice, hf]) (Except.ok.inj h)
  rw [if_neg hmf] at h
  by_cases hbb : backupBroken block r
  · have hsim : ¬ Similar block r := fun hsim => (similar_iff.mp hsim).1.1 hbb
    rw [if_pos hbb] at h
    exact ne_working_of_cases hsim (by simp [storeMain, storeGoodPrice]) (Except.ok.inj h)
  rw [if_neg hbb] at h
  by_cases hbf : backupFrozen block r
  · have hsim : ¬ Similar block r := fun hsim => (similar_iff.mp hsim).1.2 hbf
    rw [if_pos hbf] at h
    exact ne_working_of_cases hsim (by simp [returnLastGoodPrice, hf]) (Except.ok.inj h)
  rw [if_neg hbf] at h
  -- both oracles are live and unbroken, and only their prices decide
  obtain ⟨similar, hprice, h⟩ := bind_ok.mp h
  have h := pure_ok.mp h
  have hsim : Similar block r ↔ similarPrice r = .ok true := by
    rw [similar_iff]
    exact ⟨fun hall => hall.2.2, fun htrue => ⟨⟨hbb, hbf⟩, ⟨hmb, hmf⟩, htrue⟩⟩
  cases similar with
  | true => exact working_of_similar (hsim.mpr hprice) h
  | false =>
    refine ne_working_of_cases ?_ (by simp [storeBackup, storeGoodPrice]) h
    rw [hsim, hprice]
    simp

theorem working_usingMainBackupUntrusted (hf : f.status = .usingMainBackupUntrusted)
    (h : fetchUsingMainBackupUntrusted block r f = .ok p) :
    p.2.status = .mainOracleWorking ↔ Similar block r := by
  unfold fetchUsingMainBackupUntrusted at h
  by_cases hmb : mainBroken block r
  · have hsim : ¬ Similar block r := fun hsim => (similar_iff.mp hsim).2.1.1 hmb
    rw [if_pos hmb] at h
    exact ne_working_of_cases hsim (by simp [returnLastGoodPrice]) (Except.ok.inj h)
  rw [if_neg hmb] at h
  by_cases hmf : mainFrozen block r
  · have hsim : ¬ Similar block r := fun hsim => (similar_iff.mp hsim).2.1.2 hmf
    rw [if_pos hmf] at h
    exact ne_working_of_cases hsim (by simp [returnLastGoodPrice, hf]) (Except.ok.inj h)
  rw [if_neg hmf] at h
  obtain ⟨similar, hsim, h⟩ := bind_ok.mp h
  have h := pure_ok.mp h
  cases similar with
  | true => exact working_of_similar hsim h
  | false =>
    refine ne_working_of_cases (not_similar hsim) ?_ h
    rw [if_neg Bool.false_ne_true]
    split
    · simp [returnLastGoodPrice]
    · simp [storeMain, storeGoodPrice, hf]

/-- From any other status, a call ends in `mainOracleWorking` exactly if both oracles are live and
unbroken and look similar. -/
theorem working_iff_similar (hf : f.status ≠ .mainOracleWorking)
    (h : fetchFromResponses block r f = .ok p) :
    p.2.status = .mainOracleWorking ↔ Similar block r := by
  unfold fetchFromResponses at h
  split at h
  next hs => exact absurd hs hf
  next hs => exact working_usingBackupMainUntrusted hs h
  next hs => exact working_bothOraclesUntrusted hs h
  next hs => exact working_usingBackupMainFrozen hs h
  next hs => exact working_usingMainBackupUntrusted hs h

end Status

section Calls

variable {block : BitVec 256} {mainOracle backupOracle : IBTCOracle} {f f' : PriceFeed} {price : Nat}

theorem similar_responses_iff :
    Similar block (responses mainOracle backupOracle) ↔
      ∃ p q, MainAnswer block mainOracle p ∧ CurrentAnswer block backupOracle q ∧
        bothOraclesSimilarPrice (getCurrentMainOracleResponse mainOracle)
          (getCurrentBackupResponse backupOracle) 18 18 = .ok true := by
  rw [similar_iff]
  constructor
  · rintro ⟨⟨hbb, hbf⟩, ⟨hmb, hmf⟩, hprice⟩
    exact ⟨_, _, (mainAnswer_iff backupOracle).mpr ⟨hmb, hmf, rfl⟩,
      (backupAnswer_iff mainOracle).mpr ⟨hbb, hbf, rfl⟩, hprice⟩
  · rintro ⟨p, q, hp, hq, hprice⟩
    obtain ⟨hmb, hmf, -⟩ := (mainAnswer_iff backupOracle).mp hp
    obtain ⟨hbb, hbf, -⟩ := (backupAnswer_iff mainOracle).mp hq
    exact ⟨⟨hbb, hbf⟩, ⟨hmb, hmf⟩, hprice⟩

theorem MainAnswer.price_eq (h : MainAnswer block mainOracle price) :
    price = (getCurrentMainOracleResponse mainOracle).answer.toNat := by
  obtain ⟨-, -, hprice⟩ := currentAnswer_iff.mp h.1
  rw [hprice, scalePriceByDigits_eighteen]
  rfl

theorem CurrentAnswer.price_eq (h : CurrentAnswer block backupOracle price) :
    price = (getCurrentBackupResponse backupOracle).answer.toNat := by
  obtain ⟨-, -, hprice⟩ := currentAnswer_iff.mp h
  rw [hprice, scalePriceByDigits_eighteen]
  rfl

/-- Two live and unbroken oracles that look similar are within 5% exactly if the comparison is. -/
theorem similar_real_iff :
    ((∃ p q, MainAnswer block mainOracle p ∧ CurrentAnswer block backupOracle q ∧
        bothOraclesSimilarPrice (getCurrentMainOracleResponse mainOracle)
          (getCurrentBackupResponse backupOracle) 18 18 = .ok true) →
      ∃ p q, MainAnswer block mainOracle p ∧ CurrentAnswer block backupOracle q ∧
        WithinFivePercent p q) ↔
      ∀ p q, MainAnswer block mainOracle p → CurrentAnswer block backupOracle q →
        ComparisonExact p q := by
  constructor
  · intro hreal p q hp hq
    have hppos := hp.1.pos
    have hqpos := hq.pos
    rw [hp.price_eq] at hppos ⊢
    rw [hq.price_eq] at hqpos ⊢
    refine (similar_exact_iff hppos hqpos).mp ⟨fun hcode => ?_, fun hwithin => ?_⟩
    · obtain ⟨p', q', hp', hq', hwithin⟩ := hreal ⟨p, q, hp, hq, hcode⟩
      rw [hp'.price_eq, hq'.price_eq] at hwithin
      exact hwithin
    · -- wrapping never makes a small difference look large
      have hsmall := (div_le_iff_lt_mul _ (lt_min hppos hqpos)).mp hwithin
      exact ((similar_exact_iff hppos hqpos).mpr (.inr (.inl hsmall))).mpr hwithin
  · rintro hexact ⟨p, q, hp, hq, hcode⟩
    have hppos := hp.1.pos
    have hqpos := hq.pos
    have hpair := hexact p q hp hq
    rw [hp.price_eq] at hppos hpair
    rw [hq.price_eq] at hqpos hpair
    refine ⟨p, q, hp, hq, ?_⟩
    rw [hp.price_eq, hq.price_eq]
    exact ((similar_exact_iff hppos hqpos).mpr hpair).mp hcode

/-- The two comparisons and the return to the main oracle are exact exactly where no wrapped product
misleads them. -/
theorem oracle_comparison_iff (main prev backup : Response) (hmain : 0 < main.answer.toInt)
    (hbackup : 0 < backup.answer.toInt) (h18 : EighteenDecimals mainOracle backupOracle)
    (hf : f.status ≠ .mainOracleWorking)
    (hcall : fetchPrice block mainOracle backupOracle f = .ok (price, f')) :
    ((bothOraclesSimilarPrice main backup 18 18 = .ok true ↔
        WithinFivePercent main.answer.toNat backup.answer.toNat) ↔
      ComparisonExact main.answer.toNat backup.answer.toNat) ∧
    ((priceChangeAboveMax main prev 18 ↔ AboveMaxDeviation main.answer.toNat prev.answer.toNat) ↔
      ThresholdExact main.answer.toNat prev.answer.toNat) ∧
    ((f'.status = .mainOracleWorking → ∃ p q, MainAnswer block mainOracle p ∧
        CurrentAnswer block backupOracle q ∧ WithinFivePercent p q) ↔
      ∀ p q, MainAnswer block mainOracle p → CurrentAnswer block backupOracle q →
        ComparisonExact p q) := by
  refine ⟨similar_exact_iff (answer_pos hmain) (answer_pos hbackup), change_exact_iff, ?_⟩
  rw [fetchPrice_eq h18] at hcall
  have hworking := working_iff_similar hf hcall
  rw [similar_responses_iff] at hworking
  dsimp only at hworking
  rw [hworking]
  exact similar_real_iff

end Calls

/-- A feed that has switched to its backup after the main oracle failed once. -/
def switchedFeed : PriceFeed :=
  (sampleFeed.changeStatus .usingBackupMainUntrusted).storePrice (101 * 10 ^ 18)

theorem switchedFeed_reached : Reached switchedFeed :=
  .step (i := ⟨1000, ⟨.ok 18, none, fun _ => none⟩,
    sampleOracle (100 * 10 ^ 18) (101 * 10 ^ 18) 1000⟩) sampleFeed_reached ⟨rfl, rfl⟩
    ⟨101 * 10 ^ 18, rfl⟩

/-- Two prices that are 1% apart. -/
theorem oracle_comparison_iff_sample :
    ((bothOraclesSimilarPrice ⟨102 * 10 ^ 18, 1000, 2⟩ ⟨101 * 10 ^ 18, 1000, 2⟩ 18 18 = .ok true ↔
        WithinFivePercent (102 * 10 ^ 18) (101 * 10 ^ 18)) ↔
      ComparisonExact (102 * 10 ^ 18) (101 * 10 ^ 18)) ∧
    ((priceChangeAboveMax ⟨102 * 10 ^ 18, 1000, 2⟩ ⟨100 * 10 ^ 18, 999, 1⟩ 18 ↔
        AboveMaxDeviation (102 * 10 ^ 18) (100 * 10 ^ 18)) ↔
      ThresholdExact (102 * 10 ^ 18) (100 * 10 ^ 18)) ∧
    ∃ f', fetchPrice 1001 (sampleOracle (100 * 10 ^ 18) (102 * 10 ^ 18) 1000)
        (sampleOracle (100 * 10 ^ 18) (101 * 10 ^ 18) 1000) switchedFeed = .ok (102 * 10 ^ 18, f') ∧
      ((f'.status = .mainOracleWorking → ∃ p q,
          MainAnswer 1001 (sampleOracle (100 * 10 ^ 18) (102 * 10 ^ 18) 1000) p ∧
          CurrentAnswer 1001 (sampleOracle (100 * 10 ^ 18) (101 * 10 ^ 18) 1000) q ∧
          WithinFivePercent p q) ↔
        ∀ p q, MainAnswer 1001 (sampleOracle (100 * 10 ^ 18) (102 * 10 ^ 18) 1000) p →
          CurrentAnswer 1001 (sampleOracle (100 * 10 ^ 18) (101 * 10 ^ 18) 1000) q →
            ComparisonExact p q) := by
  obtain ⟨⟨price, f'⟩, hcall, rfl⟩ := exists_ok (p := fun r : Nat × PriceFeed => r.1 = 102 * 10 ^ 18)
    (x := fetchPrice 1001 (sampleOracle (100 * 10 ^ 18) (102 * 10 ^ 18) 1000)
      (sampleOracle (100 * 10 ^ 18) (101 * 10 ^ 18) 1000) switchedFeed) (by decide +kernel)
  have h := oracle_comparison_iff ⟨102 * 10 ^ 18, 1000, 2⟩ ⟨100 * 10 ^ 18, 999, 1⟩
    ⟨101 * 10 ^ 18, 1000, 2⟩ (by decide) (by decide) ⟨rfl, rfl⟩ (by decide) hcall
  exact ⟨h.1, h.2.1, f', hcall, h.2.2⟩

/-- `2 ^ 238 * 10 ^ 18` is a multiple of `2 ^ 256`, and so is `176 * 2 ^ 252`.  A main price that is
`2 ^ 238` above the backup's looks similar and is trusted again; a change by one at `2 ^ 252` looks too
large. -/
theorem comparison_wraps :
    (bothOraclesSimilarPrice ⟨2 ^ 238 + 1, 1000, 2⟩ ⟨1, 1000, 2⟩ 18 18 = .ok true ∧
      ¬ WithinFivePercent (2 ^ 238 + 1) 1) ∧
    (priceChangeAboveMax ⟨2 ^ 252, 1000, 2⟩ ⟨2 ^ 252 - 1, 999, 1⟩ 18 ∧
      ¬ AboveMaxDeviation (2 ^ 252) (2 ^ 252 - 1)) ∧
    Reached switchedFeed ∧ switchedFeed.status = .usingBackupMainUntrusted ∧
    ∃ f', fetchPrice 1001 (sampleOracle (100 * 10 ^ 18) (2 ^ 238 + 1) 1000) (sampleOracle 1 1 1000)
        switchedFeed = .ok (2 ^ 238 + 1, f') ∧
      f'.status = .mainOracleWorking ∧
      ¬ ∃ p q, MainAnswer 1001 (sampleOracle (100 * 10 ^ 18) (2 ^ 238 + 1) 1000) p ∧
        CurrentAnswer 1001 (sampleOracle 1 1 1000) q ∧ WithinFivePercent p q := by
  obtain ⟨⟨price, f'⟩, hcall, rfl, hworking⟩ := exists_ok
    (p := fun r : Nat × PriceFeed => r.1 = 2 ^ 238 + 1 ∧ r.2.status = .mainOracleWorking)
    (x := fetchPrice 1001 (sampleOracle (100 * 10 ^ 18) (2 ^ 238 + 1) 1000) (sampleOracle 1 1 1000)
      switchedFeed) (by decide +kernel)
  have hfar : ¬ WithinFivePercent (2 ^ 238 + 1) 1 := by
    unfold WithinFivePercent
    decide
  have hlooks : bothOraclesSimilarPrice ⟨2 ^ 238 + 1, 1000, 2⟩ ⟨1, 1000, 2⟩ 18 18 = .ok true :=
    (bothOraclesSimilarPrice_iff (by decide +kernel) (by decide +kernel)).mpr (by decide +kernel)
  refine ⟨⟨hlooks, hfar⟩, ⟨by decide +kernel, ?_⟩, switchedFeed_reached, rfl, f', hcall, hworking, ?_⟩
  · unfold AboveMaxDeviation
    decide
  · rintro ⟨p, q, hp, hq, hwithin⟩
    have hmain : p = 2 ^ 238 + 1 := hp.price_eq.trans (by decide +kernel)
    have hbackup : q = 1 := hq.price_eq.trans (by decide +kernel)
    rw [hmain, hbackup] at hwithin
    exact hfar hwithin

end PriceFeed

end Liquity
