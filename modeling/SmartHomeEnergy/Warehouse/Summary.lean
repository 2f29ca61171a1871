import Mathlib.Algebra.BigOperators.Ring.List
import SmartHomeEnergy.Warehouse.Monthly

/-!
# The historical summary

`process_parquet_batch.ipynb` sums up the silver rows of every zone and device type in
`historical_analytics_summary`, which the dashboard shows: an average power, the peak next to
it, and the number of readings behind them.

The peak and the number are what they are called. The average is a sum, though: that of the
energies `kwh_consumed`, a thousandth of the powers. So it is the average of a group of a
thousand readings, and that of a group that uses next to nothing; and of no other group, unless
the two happen to lie next to each other (`SmartHomeEnergy.realAverage_of_thousand_or_idle`).
-/

namespace SmartHomeEnergy

open Numeric Relational

/-- What the rows of the summary are grouped by. -/
structure SummaryKey where
  zone : Option String
  deviceType : Option String
  deriving DecidableEq

/-- A row of `summary_df`, and of `historical_analytics_summary`. -/
structure SummaryRow where
  key : SummaryKey
  overallAvgWatts : Option ℚ
  peakPowerWatts : Option ℚ
  totalRecordsAnalyzed : ℕ
  lastUpdated : String
  deriving DecidableEq

/-- The zone and the device type of a reading. -/
def summaryKey (r : Reading String) : SummaryKey := ⟨r.zone, r.deviceType⟩

/-- `power_watts` is not null. -/
def numericRows (rows : List (Reading String)) : List (Reading String) :=
  rows.filter fun r => (isNotNull r.powerConsumptionWatts).Holds

/-- `kwh_consumed`. -/
def kwhConsumed (r : Reading String) : Option ℚ := r.powerConsumptionWatts.map (· / 1000)

/-- The row of a zone and a device type. -/
def summaryRow (currentTime : String) (k : SummaryKey) (rows : List (Reading String)) :
    SummaryRow where
  key := k
  overallAvgWatts := (round2 (nullSum (rows.map kwhConsumed))).bind (castDecimal 10 2)
  peakPowerWatts :=
    (round2 (nullMax (rows.map (·.powerConsumptionWatts)))).bind (castDecimal 10 2)
  totalRecordsAnalyzed := (rows.map (·.powerConsumptionWatts)).reduceOption.length
  lastUpdated := currentTime

/-- `summary_df`. -/
def summaryDf (currentTime : String) (rows : List (Reading String)) : List SummaryRow :=
  groupBy summaryKey (summaryRow currentTime) (numericRows rows)

/-- `process_parquet_batch`: what it writes, if it writes anything. -/
def processParquetBatch (currentTime : String) (rows : List (Reading String)) :
    Option (List SummaryRow) :=
  if rows = [] then none
  else if numericRows rows = [] then none
  else some (summaryDf currentTime rows)

/-! ### What an average should be -/

/-- The powers of a zone and a device type. -/
def groupPowers (rows : List (Reading String)) (k : SummaryKey) : List ℚ :=
  ((groupRows summaryKey (numericRows rows) k).map (·.powerConsumptionWatts)).reduceOption

/-- **The summary is an average**: in every row it is the mean of the powers, rounded to two
decimals, and at most the peak; and every reading with a power is counted once. -/
def RealAverage (currentTime : String) (rows : List (Reading String)) : Prop :=
  ∀ out, processParquetBatch currentTime rows = some out →
    (∀ r ∈ out, ∃ average peak, r.overallAvgWatts = some average ∧ r.peakPowerWatts = some peak ∧
      average ≤ peak ∧ average = roundTo halfUp 2
        ((groupPowers rows r.key).sum / (groupPowers rows r.key).length)) ∧
    (out.map (·.totalRecordsAnalyzed)).sum = (numericRows rows).length

/-- A thousand powers, or powers that are next to nothing: less than half a hundredth of a watt
each on average, and less than five watts together. -/
def ThousandOrIdle (powers : List ℚ) : Prop :=
  powers.length = 1000 ∨ powers.sum < powers.length / 200 ∧ powers.sum < 5

/-- A thousandth of the sum of the powers is far from their mean: the powers are no more than a
third of a thousand, or no less than three thousand, or the two are a hundredth of a watt apart. -/
def FarApart (powers : List ℚ) : Prop :=
  3 * powers.length ≤ 1000 ∨ 3000 ≤ powers.length ∨
    10 * (powers.length : ℚ) ≤ powers.sum * |(powers.length : ℚ) - 1000|

/-! ### The rows of the summary -/

section Rows

variable {currentTime : String} {rows : List (Reading String)} {k : SummaryKey}

/-- Nothing is written only where there is no reading with a power. -/
theorem processParquetBatch_eq_some {out : List SummaryRow} :
    processParquetBatch currentTime rows = some out ↔
      numericRows rows ≠ [] ∧ out = summaryDf currentTime rows := by
  rw [processParquetBatch]
  by_cases hrows : rows = []
  · simp [hrows, numericRows]
  · by_cases hnum : numericRows rows = [] <;> simp [hrows, hnum, eq_comm]

theorem numeric_ne_none {r : Reading String} (hr : r ∈ numericRows rows) :
    ∃ p, r.powerConsumptionWatts = some p := by
  simpa using (List.mem_filter.mp hr).2

/-- Every row of a group has a power. -/
theorem length_groupPowers (k : SummaryKey) :
    (groupPowers rows k).length = (groupRows summaryKey (numericRows rows) k).length := by
  rw [groupPowers, List.reduceOption_length_eq_iff.mpr, List.length_map]
  refine List.forall_mem_map.mpr fun r hr => ?_
  obtain ⟨p, hp⟩ := numeric_ne_none (mem_groupRows.mp hr).1
  rw [hp]
  rfl

theorem groupPowers_ne_nil (hk : k ∈ groupKeys summaryKey (numericRows rows)) :
    groupPowers rows k ≠ [] := by
  rw [← List.length_pos_iff, length_groupPowers]
  exact List.length_pos_iff.mpr (groupRows_ne_nil hk)

/-- The sum of the energies is a thousandth of that of the powers. -/
theorem nullSum_kwhConsumed (hk : k ∈ groupKeys summaryKey (numericRows rows)) :
    nullSum ((groupRows summaryKey (numericRows rows) k).map kwhConsumed) =
      some ((groupPowers rows k).sum / 1000) := by
  have hmap : ∀ xs : List (Option ℚ),
      (xs.map fun x => x.map (· / 1000)).reduceOption = xs.reduceOption.map (· / 1000) :=
    fun xs => List.reduceOption_map
  have hlist : (groupRows summaryKey (numericRows rows) k).map kwhConsumed =
      ((groupRows summaryKey (numericRows rows) k).map (·.powerConsumptionWatts)).map
        fun x => x.map (· / 1000) := by
    rw [List.map_map]
    rfl
  have hne := groupPowers_ne_nil hk
  rw [groupPowers] at hne
  rw [nullSum, hlist, hmap, if_neg (by simpa using hne), groupPowers]
  simp only [div_eq_mul_inv, List.sum_map_mul_right, List.map_id']

theorem sum_groupPowers_nonneg
    (hnonneg : ∀ r ∈ rows, ∀ p, r.powerConsumptionWatts = some p → 0 ≤ p) (k : SummaryKey) :
    0 ≤ (groupPowers rows k).sum := by
  refine List.sum_nonneg fun p hp => ?_
  obtain ⟨r, hr, hrp⟩ := List.mem_map.mp (List.reduceOption_mem_iff.mp hp)
  exact hnonneg r (List.mem_filter.mp (mem_groupRows.mp hr).1).1 p hrp

theorem nullAvg_groupPowers (hk : k ∈ groupKeys summaryKey (numericRows rows)) :
    nullAvg ((groupRows summaryKey (numericRows rows) k).map (·.powerConsumptionWatts)) =
      some ((groupPowers rows k).sum / (groupPowers rows k).length) :=
  if_neg (groupPowers_ne_nil hk)

/-- A decimal that fits is stored as it was rounded. -/
theorem castDecimal_of_ne_none {p : ℕ} {x : ℚ}
    (h : (round2 (some x)).bind (castDecimal p 2) ≠ none) :
    (round2 (some x)).bind (castDecimal p 2) = some (roundTo halfUp 2 x) := by
  rw [round2_bind_castDecimal] at h ⊢
  obtain ⟨y, hy⟩ := Option.ne_none_iff_exists'.mp h
  rw [hy, ← Option.eq_some_of_filter_eq_some hy]
  rfl

/-- **The average of a row** is a rounded thousandth of a sum, and its peak the rounded
maximum. -/
theorem summaryRow_eq (hk : k ∈ groupKeys summaryKey (numericRows rows))
    (hfits : ∀ r ∈ summaryDf currentTime rows,
      r.overallAvgWatts ≠ none ∧ r.peakPowerWatts ≠ none) :
    let row := summaryRow currentTime k (groupRows summaryKey (numericRows rows) k)
    row.overallAvgWatts = some (roundTo halfUp 2 ((groupPowers rows k).sum / 1000)) ∧
      ∃ m, nullMax ((groupRows summaryKey (numericRows rows) k).map (·.powerConsumptionWatts)) =
        some m ∧ row.peakPowerWatts = some (roundTo halfUp 2 m) := by
  intro row
  obtain ⟨havg, hpeak⟩ := hfits row (mem_groupBy.mpr ⟨k, hk, rfl⟩)
  simp only [row, summaryRow] at havg hpeak ⊢
  constructor
  · rw [nullSum_kwhConsumed hk] at havg ⊢
    exact castDecimal_of_ne_none havg
  · cases hm : nullMax ((groupRows summaryKey (numericRows rows) k).map
        (·.powerConsumptionWatts)) with
    | none => simp [hm, round2] at hpeak
    | some m =>
      rw [hm] at hpeak
      exact ⟨m, rfl, castDecimal_of_ne_none hpeak⟩

/-- Every reading with a power is counted once. -/
theorem sum_totalRecordsAnalyzed :
    ((summaryDf currentTime rows).map (·.totalRecordsAnalyzed)).sum =
      (numericRows rows).length := by
  have hcounts : (summaryDf currentTime rows).map (·.totalRecordsAnalyzed) =
      (groupKeys summaryKey (numericRows rows)).map fun k =>
        ((groupRows summaryKey (numericRows rows) k).map fun _ => 1).sum := by
    rw [summaryDf, groupBy, List.map_map]
    refine List.map_congr_left fun k _ => ?_
    rw [List.map_const', List.sum_replicate, smul_eq_mul, mul_one]
    exact length_groupPowers k
  rw [hcounts, sum_groupBy, List.map_const', List.sum_replicate, smul_eq_mul, mul_one]

/-- **The average of a row** is the mean exactly when a thousandth of the sum rounds as the mean
does. -/
theorem realAverage_iff (hnonneg : ∀ r ∈ rows, ∀ p, r.powerConsumptionWatts = some p → 0 ≤ p)
    (hfits : ∀ r ∈ summaryDf currentTime rows,
      r.overallAvgWatts ≠ none ∧ r.peakPowerWatts ≠ none) :
    RealAverage currentTime rows ↔ ∀ k ∈ groupKeys summaryKey (numericRows rows),
      roundTo halfUp 2 ((groupPowers rows k).sum / 1000) =
        roundTo halfUp 2 ((groupPowers rows k).sum / (groupPowers rows k).length) := by
  constructor
  · intro hreal k hk
    have hne : numericRows rows ≠ [] := by
      obtain ⟨r, hr, -⟩ := mem_groupKeys.mp hk
      exact List.ne_nil_of_mem hr
    obtain ⟨hrows, -⟩ := hreal _ (processParquetBatch_eq_some.mpr ⟨hne, rfl⟩)
    obtain ⟨average, peak, havg, -, -, hmean⟩ := hrows _ (mem_groupBy.mpr ⟨k, hk, rfl⟩)
    rw [(summaryRow_eq hk hfits).1, Option.some.injEq] at havg
    exact havg.trans hmean
  · intro hall out hout
    obtain ⟨-, rfl⟩ := processParquetBatch_eq_some.mp hout
    refine ⟨fun r hr => ?_, sum_totalRecordsAnalyzed⟩
    obtain ⟨k, hk, rfl⟩ := mem_groupBy.mp hr
    obtain ⟨havg, m, hm, hpeak⟩ := summaryRow_eq hk hfits
    have hmean := hall k hk
    refine ⟨_, _, havg, hpeak, ?_, hmean⟩
    rw [hmean]
    exact roundTo_halfUp_mono (div_nonneg (sum_groupPowers_nonneg hnonneg k) (Nat.cast_nonneg _))
      (nullAvg_le_nullMax (nullAvg_groupPowers hk) hm)

/-- A thousand powers, or next to none: then a thousandth of the sum rounds as the mean does. -/
theorem ThousandOrIdle.roundTo_eq {powers : List ℚ} (h : ThousandOrIdle powers)
    (hsum : 0 ≤ powers.sum) (hne : powers ≠ []) :
    roundTo halfUp 2 (powers.sum / 1000) = roundTo halfUp 2 (powers.sum / powers.length) := by
  have hlength : (0 : ℚ) < powers.length := Nat.cast_pos.mpr (List.length_pos_iff.mpr hne)
  rcases h with hthousand | ⟨hmean, hfive⟩
  · rw [hthousand, Nat.cast_ofNat]
  · have hmean' : powers.sum / powers.length < 1 / 200 := by
      rw [div_lt_iff₀ hlength]
      linarith
    rw [roundTo_halfUp_eq_zero (div_nonneg hsum hlength.le) (by linarith),
      roundTo_halfUp_eq_zero (div_nonneg hsum (by norm_num)) (by linarith)]

/-- Where a thousandth of the sum is far from the mean, it rounds as the mean does only where the
powers are next to none. -/
theorem thousandOrIdle_of_roundTo_eq {powers : List ℚ} (hsum : 0 ≤ powers.sum) (hne : powers ≠ [])
    (hfar : FarApart powers)
    (h : roundTo halfUp 2 (powers.sum / 1000) = roundTo halfUp 2 (powers.sum / powers.length)) :
    ThousandOrIdle powers := by
  have hlength : (0 : ℚ) < powers.length := Nat.cast_pos.mpr (List.length_pos_iff.mpr hne)
  have hmean : 0 ≤ powers.sum / powers.length := div_nonneg hsum hlength.le
  have hthousandth : 0 ≤ powers.sum / 1000 := div_nonneg hsum (by norm_num)
  rcases hfar with hfew | hmany | hlarge
  · have hfew' : 3 * (powers.length : ℚ) ≤ 1000 := by exact_mod_cast hfew
    have hthird : 3 * (powers.sum / 1000) ≤ powers.sum / powers.length := by
      rw [le_div_iff₀ hlength]
      linarith [mul_le_mul_of_nonneg_left hfew' hsum]
    have hsmall := lt_half_of_roundTo_halfUp_eq hthousandth hthird h
    have hidle : powers.sum / powers.length < 1 / 200 := by linarith
    rw [div_lt_iff₀ hlength] at hidle
    exact Or.inr ⟨by linarith, by linarith⟩
  · have hmany' : (3000 : ℚ) ≤ powers.length := by exact_mod_cast hmany
    have hthird : 3 * (powers.sum / powers.length) ≤ powers.sum / 1000 := by
      rw [← mul_div_assoc, div_le_iff₀ hlength]
      linarith [mul_le_mul_of_nonneg_left hmany' hsum]
    have hsmall := lt_half_of_roundTo_halfUp_eq hmean hthird h.symm
    exact Or.inr ⟨by linarith, by linarith⟩
  · -- what rounds alike is less than a hundredth apart
    have hnear := abs_sub_lt_of_roundTo_halfUp_eq hthousandth hmean h
    have hdiff : powers.sum / 1000 - powers.sum / powers.length =
        powers.sum * (powers.length - 1000) / (1000 * powers.length) := by
      field_simp
    have hscale : (0 : ℚ) < 1000 * powers.length := by positivity
    rw [hdiff, abs_div, abs_mul, abs_of_nonneg hsum, abs_of_pos hscale, div_mul_eq_mul_div,
      div_lt_one hscale] at hnear
    exact absurd hlarge (not_le.mpr (by linarith))

/-- **When the summary is an average**: it is one when every group has a thousand readings with a
power, or uses next to nothing; and when it is one, every group does whose thousandth of the sum is
far from the mean. -/
theorem realAverage_of_thousand_or_idle (currentTime : String) (rows : List (Reading String))
    (hnonneg : ∀ r ∈ rows, ∀ p, r.powerConsumptionWatts = some p → 0 ≤ p)
    (hfits : ∀ r ∈ summaryDf currentTime rows,
      r.overallAvgWatts ≠ none ∧ r.peakPowerWatts ≠ none) :
    ((∀ k ∈ groupKeys summaryKey (numericRows rows), ThousandOrIdle (groupPowers rows k)) →
      RealAverage currentTime rows) ∧
    (RealAverage currentTime rows → ∀ k ∈ groupKeys summaryKey (numericRows rows),
      FarApart (groupPowers rows k) → ThousandOrIdle (groupPowers rows k)) := by
  rw [realAverage_iff hnonneg hfits]
  constructor
  · intro hall k hk
    exact (hall k hk).roundTo_eq (sum_groupPowers_nonneg hnonneg k) (groupPowers_ne_nil hk)
  · intro hall k hk hfar
    exact thousandOrIdle_of_roundTo_eq (sum_groupPowers_nonneg hnonneg k) (groupPowers_ne_nil hk)
      hfar (hall k hk)

end Rows

/-- A reading of the refrigerator at 100 watts: its average is shown as 0.1 watts. -/
theorem not_realAverage :
    ¬RealAverage "2026-01-02 00:00:00"
      [{ fridgeAt "2026-01-01 12:00:00" with powerConsumptionWatts := some 100 }] := by
  intro h
  let rows := [{ fridgeAt "2026-01-01 12:00:00" with powerConsumptionWatts := some 100 }]
  let row := summaryRow "2026-01-02 00:00:00" ⟨some "Kitchen", some "Critical_Appliance"⟩ rows
  obtain ⟨average, -, havg, -, -, hmean⟩ := (h _ rfl).1 row (by decide +kernel)
  have hshown : row.overallAvgWatts = some 0.1 := by decide +kernel
  rw [hshown, Option.some.injEq] at havg
  rw [← havg] at hmean
  exact absurd hmean (by decide +kernel)

/-- The refrigerator at 100 watts, read again and again. -/
def steadyReadings (n : ℕ) : List (Reading String) :=
  List.replicate n { fridgeAt "2026-01-01 12:00:00" with powerConsumptionWatts := some 100 }

theorem summaryKey_of_mem_steadyReadings {n : ℕ} {r : Reading String} (hr : r ∈ steadyReadings n) :
    summaryKey r = ⟨some "Kitchen", some "Critical_Appliance"⟩ ∧
      r.powerConsumptionWatts = some 100 := by
  rw [List.eq_of_mem_replicate hr]
  exact ⟨rfl, rfl⟩

/-- Every one of the readings counts. -/
theorem numericRows_steadyReadings (n : ℕ) : numericRows (steadyReadings n) = steadyReadings n :=
  List.filter_eq_self.mpr fun r hr => by
    rw [(summaryKey_of_mem_steadyReadings hr).2]
    decide

/-- What is shown of a thousand of them, an average and a peak of 100 watts. -/
theorem summaryDf_steadyReadings (currentTime : String) :
    ∀ r ∈ summaryDf currentTime (steadyReadings 1000),
      r.overallAvgWatts = some 100 ∧ r.peakPowerWatts = some 100 := by
  have hne : steadyReadings 1000 ≠ [] := List.cons_ne_nil _ _
  have hsum : nullSum ((steadyReadings 1000).map kwhConsumed) = some 100 := by
    have hkwh : (steadyReadings 1000).map kwhConsumed =
        (steadyReadings 1000).map fun _ => some (1 / 10) := List.map_congr_left fun r hr => by
      rw [kwhConsumed, (summaryKey_of_mem_steadyReadings hr).2]
      norm_num
    rw [hkwh, nullSum_map_some hne, List.map_const', List.sum_replicate, steadyReadings,
      List.length_replicate]
    norm_num
  have hmax : nullMax ((steadyReadings 1000).map (·.powerConsumptionWatts)) = some 100 := by
    refine nullMax_eq_some.mpr ⟨List.mem_map.mpr ⟨_, List.mem_cons_self, rfl⟩, fun x hx => ?_⟩
    obtain ⟨r, hr, hrx⟩ := List.mem_map.mp hx
    rw [(summaryKey_of_mem_steadyReadings hr).2, Option.some.injEq] at hrx
    exact hrx.ge
  have hhundred : (round2 (some 100)).bind (castDecimal 10 2) = some 100 := by decide +kernel
  rw [summaryDf, numericRows_steadyReadings,
    groupBy_of_const hne fun r hr => (summaryKey_of_mem_steadyReadings hr).1,
    List.forall_mem_singleton, summaryRow, hsum, hmax]
  exact ⟨hhundred, hhundred⟩

/-- The average of a thousand of them is what it is called. -/
theorem realAverage_steadyReadings :
    RealAverage "2026-01-02 00:00:00" (steadyReadings 1000) := by
  refine (realAverage_of_thousand_or_idle _ _ (fun r hr p hp => ?_) fun r hr => ?_).1 fun k hk => ?_
  · rw [(summaryKey_of_mem_steadyReadings hr).2] at hp
    obtain rfl := Option.some.inj hp
    norm_num
  · obtain ⟨havg, hpeak⟩ := summaryDf_steadyReadings _ r hr
    simp [havg, hpeak]
  · obtain ⟨r, hr, rfl⟩ := mem_groupKeys.mp hk
    rw [numericRows_steadyReadings] at hr
    have hrows : groupRows summaryKey (steadyReadings 1000) (summaryKey r) =
        steadyReadings 1000 := by
      refine List.filter_eq_self.mpr fun x hx => decide_eq_true ?_
      rw [(summaryKey_of_mem_steadyReadings hx).1, (summaryKey_of_mem_steadyReadings hr).1]
    refine Or.inl ?_
    rw [length_groupPowers, numericRows_steadyReadings, hrows, steadyReadings,
      List.length_replicate]

end SmartHomeEnergy
