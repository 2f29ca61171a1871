import Mathlib.Algebra.BigOperators.Ring.List
import SmartHomeEnergy.Prediction.Alerts

/-!
# The promised savings

The report promises a saving for every alert: what the power in excess of the limit costs in an
hour. The power and the limit are rounded before they are subtracted, and the saving is rounded
in the end. Rounding keeps the order, so no saving is negative; and what the three roundings add
to a saving is at most `0.005 + price / 100000`, so that all savings together stay below the
hourly cost of the house but for that much an alert (`SmartHomeEnergy.savings_sound`).

The cost of the house is a sum over all rows, the savings are one over those that are alerts
(`SmartHomeEnergy.sum_filterMap_le`). That an alert saves no more than its row costs needs a
limit that is not negative, and that the mean power of a row is part of its total power.
-/

namespace SmartHomeEnergy

open Relational Numeric

/-! ### The savings of a report -/

/-- `potential_hourly_savings_yer`. -/
def Recommendation.potentialHourlySavingsYer : Recommendation → ℚ
  | .saving _ _ _ _ potentialHourlySavingsYer _ => potentialHourlySavingsYer
  | .preservation => 0

/-- **Sound savings**: none is negative, there is one for every alert, or a single zero without
one, and together they save no more than the hourly cost, up to rounding. -/
structure SoundSavings (actualPricePerKwh : ℚ) (report : HomeReport) : Prop where
  nonneg : ∀ r ∈ report.aiRecommendations, 0 ≤ r.potentialHourlySavingsYer
  onePerAlert : report.criticalAlerts ≠ [] →
    report.aiRecommendations = report.criticalAlerts.map (savingOf actualPricePerKwh)
  zeroWithoutAlert : report.criticalAlerts = [] →
    ∃ r, report.aiRecommendations = [r] ∧ r.potentialHourlySavingsYer = 0
  total_le : (report.aiRecommendations.map (·.potentialHourlySavingsYer)).sum ≤
    report.totals.totalHourlyCostYer +
      report.criticalAlerts.length * (0.005 + actualPricePerKwh / 100000)

/-- A sum over some of the rows, each of which adds at most its own weight and `e`. -/
theorem sum_filterMap_le {α β : Type*} {g : α → Option β} {f : β → ℚ} {w : α → ℚ} {e : ℚ}
    {l : List α} (hw : ∀ a ∈ l, 0 ≤ w a) (hf : ∀ a ∈ l, ∀ b ∈ g a, f b ≤ w a + e) :
    ((l.filterMap g).map f).sum ≤ (l.map w).sum + (l.filterMap g).length * e := by
  induction l with
  | nil => simp
  | cons a l ih =>
    have ih := ih (fun b hb => hw b (List.mem_cons_of_mem _ hb)) fun b hb =>
      hf b (List.mem_cons_of_mem _ hb)
    have ha := hw a List.mem_cons_self
    cases hg : g a with
    | none =>
      rw [List.filterMap_cons_none hg, List.map_cons, List.sum_cons]
      linarith
    | some b =>
      have hb := hf a List.mem_cons_self b hg
      rw [List.filterMap_cons_some hg, List.map_cons, List.sum_cons, List.map_cons, List.sum_cons,
        List.length_cons]
      push_cast
      linarith

/-! ### One alert -/

section Alert

variable {model : Option Model} {currentHour : ℕ} {row : WindowedRow}

/-- A limit is not negative: it comes from the model, or from a device, or is `500`. -/
theorem nonneg_of_predictSmartThreshold {zone deviceType : Option String} {fallback : Option ℚ}
    {smartLimit : ℚ} (hmodel : ∀ m ∈ model, ∀ input, ∀ w ∈ m.predict input, 0 ≤ w)
    (hfallback : ∀ w ∈ fallback, 0 ≤ w)
    (h : predictSmartThreshold model currentHour zone deviceType fallback = some smartLimit) :
    0 ≤ smartLimit := by
  unfold predictSmartThreshold at h
  split at h
  next => exact hfallback _ h
  next m =>
    split at h
    next hpredict =>
      obtain ⟨input, -, hw⟩ := Option.bind_eq_some_iff.mp hpredict
      exact hmodel m rfl input smartLimit (Option.some.inj h ▸ hw)
    next => exact hfallback _ h

/-- **What an alert says**: the power of its row and the limit, both rounded, and the power is
above the limit. -/
theorem exists_limit_of_rowAlert {devicesRef : List DeviceRow} {alert : Alert}
    (hmodel : ∀ m ∈ model, ∀ input, ∀ w ∈ m.predict input, 0 ≤ w)
    (hdevices : ∀ d ∈ devicesRef, ∀ w ∈ d.baseWatts, 0 ≤ w)
    (h : rowAlert model currentHour devicesRef row = some (some alert)) :
    ∃ avgPower totalPower smartLimit, row.avgPowerWatts = some avgPower ∧
      row.totalPowerWatts = some totalPower ∧ 0 ≤ smartLimit ∧ smartLimit ≤ avgPower ∧
        alert.actualWatts = roundTo halfEven 2 avgPower ∧
          alert.baseLimitWatts = roundTo halfEven 2 smartLimit := by
  simp only [rowAlert, Option.bind_eq_bind, Option.bind_eq_some_iff] at h
  obtain ⟨avgPower, havg, totalPower, htotal, device, hdevice, smartLimit, hlimit, h⟩ := h
  have hfallback : ∀ w ∈ (settingsOf device).baseFallback, 0 ≤ w := by
    rintro w hw
    cases device with
    | none =>
      obtain rfl : (500 : ℚ) = w := Option.some.inj hw
      norm_num
    | some d =>
      rw [matchingDevice_eq] at hdevice
      split at hdevice
      next => exact absurd hdevice (by simp)
      next found =>
        split at hdevice
        next => exact absurd hdevice (by simp)
        next =>
          obtain rfl := Option.some.inj (Option.some.inj hdevice)
          exact hdevices _ (matches_of_find? found).1 w hw
  have hnonneg := nonneg_of_predictSmartThreshold hmodel hfallback hlimit
  split at h
  next hlt =>
    obtain rfl := Option.some.inj (Option.some.inj h)
    exact ⟨avgPower, totalPower, smartLimit, havg, htotal, hnonneg, by linarith [hlt.1], rfl, rfl⟩
  next => exact absurd (Option.some.inj h) (by simp)

/-- **The saving of an alert** is not negative, and at most what its row costs, up to
rounding. -/
theorem saving_bounds {actualPricePerKwh avgPower totalPower smartLimit : ℚ} {alert : Alert}
    (hprice : 0 ≤ actualPricePerKwh) (hlimit : 0 ≤ smartLimit) (hle : smartLimit ≤ avgPower)
    (htotal : avgPower ≤ totalPower) (hactual : alert.actualWatts = roundTo halfEven 2 avgPower)
    (hbase : alert.baseLimitWatts = roundTo halfEven 2 smartLimit) :
    0 ≤ (savingOf actualPricePerKwh alert).potentialHourlySavingsYer ∧
      (savingOf actualPricePerKwh alert).potentialHourlySavingsYer ≤
        totalPower / 1000 * actualPricePerKwh + (0.005 + actualPricePerKwh / 100000) := by
  have hpotential : (savingOf actualPricePerKwh alert).potentialHourlySavingsYer =
      roundTo halfEven 2
        ((roundTo halfEven 2 avgPower - roundTo halfEven 2 smartLimit) / 1000 *
          actualPricePerKwh) := by
    rw [← hactual, ← hbase]
    rfl
  have hexcess : 0 ≤ roundTo halfEven 2 avgPower - roundTo halfEven 2 smartLimit :=
    sub_nonneg.mpr (roundTo_halfEven_mono hle)
  have hbase_nonneg : 0 ≤ roundTo halfEven 2 smartLimit := roundTo_nonneg nearest_halfEven hlimit
  have hactual_le := (abs_le.mp (abs_roundTo_sub_le nearest_halfEven 2 avgPower)).2
  rw [hpotential]
  refine ⟨roundTo_nonneg nearest_halfEven (by positivity), ?_⟩
  have hround := (abs_le.mp (abs_roundTo_sub_le nearest_halfEven 2
    ((roundTo halfEven 2 avgPower - roundTo halfEven 2 smartLimit) / 1000 *
      actualPricePerKwh))).2
  have hcost : (roundTo halfEven 2 avgPower - roundTo halfEven 2 smartLimit) / 1000 *
      actualPricePerKwh ≤ (totalPower + 0.005) / 1000 * actualPricePerKwh := by
    refine mul_le_mul_of_nonneg_right (div_le_div_of_nonneg_right ?_ (by norm_num)) hprice
    norm_num at hactual_le ⊢
    linarith
  norm_num at hround hcost ⊢
  linarith

end Alert

/-! ### The report -/

section Report

variable {model : Option Model} {currentHour : ℕ} {actualPricePerKwh : ℚ}
  {energyRows : List WindowedRow} {devicesRef : DevicesStatus} {report : HomeReport}
  (hrows : ∀ row ∈ energyRows, ∀ avgPower ∈ row.avgPowerWatts,
    ∀ totalPower ∈ row.totalPowerWatts, 0 ≤ avgPower ∧ avgPower ≤ totalPower)
  (hprice : 0 ≤ actualPricePerKwh) (hdevices : ∀ d ∈ devicesRef.rows, ∀ w ∈ d.baseWatts, 0 ≤ w)
  (hmodel : ∀ m ∈ model, ∀ input, ∀ w ∈ m.predict input, 0 ≤ w)

/-- The recommendations are the savings of the alerts, or the one that there is nothing to
save. -/
theorem recommendations_reportOn (alerts : List Alert) :
    (reportOn actualPricePerKwh energyRows alerts).aiRecommendations =
      if alerts = [] then [.preservation] else alerts.map (savingOf actualPricePerKwh) := rfl

/-- Either way they promise what the alerts do. -/
theorem sum_recommendations_reportOn (alerts : List Alert) :
    ((reportOn actualPricePerKwh energyRows alerts).aiRecommendations.map
        (·.potentialHourlySavingsYer)).sum =
      (alerts.map fun alert =>
        (savingOf actualPricePerKwh alert).potentialHourlySavingsYer).sum := by
  rw [recommendations_reportOn]
  split
  next hnil => simp [hnil, Recommendation.potentialHourlySavingsYer]
  next =>
    rw [List.map_map]
    rfl

include hrows in
/-- A row that is assessed has a power that is not negative. -/
theorem rowWatts_nonneg {row : WindowedRow} (hrow : row ∈ energyRows)
    (hassessed : rowAlert model currentHour devicesRef.rows row ≠ none) : 0 ≤ rowWatts row := by
  obtain ⟨x, hx⟩ := Option.ne_none_iff_exists'.mp hassessed
  simp only [rowAlert, Option.bind_eq_bind, Option.bind_eq_some_iff] at hx
  obtain ⟨avgPower, havg, totalPower, htotal, -⟩ := hx
  obtain ⟨hnonneg, hle⟩ := hrows row hrow avgPower havg totalPower htotal
  rw [rowWatts, htotal, Option.getD_some]
  exact hnonneg.trans hle

include hrows hprice hdevices hmodel

/-- The saving of the alert of a row. -/
theorem saving_bounds_of_rowAlert {row : WindowedRow} (hrow : row ∈ energyRows) {alert : Alert}
    (halert : rowAlert model currentHour devicesRef.rows row = some (some alert)) :
    0 ≤ (savingOf actualPricePerKwh alert).potentialHourlySavingsYer ∧
      (savingOf actualPricePerKwh alert).potentialHourlySavingsYer ≤
        rowWatts row / 1000 * actualPricePerKwh + (0.005 + actualPricePerKwh / 100000) := by
  obtain ⟨avgPower, totalPower, smartLimit, havg, htotal, hlimit, hle, hactual, hbase⟩ :=
    exists_limit_of_rowAlert hmodel hdevices halert
  have hwatts : rowWatts row = totalPower := by rw [rowWatts, htotal, Option.getD_some]
  rw [hwatts]
  exact saving_bounds hprice hlimit hle (hrows row hrow avgPower havg totalPower htotal).2 hactual
    hbase

/-- **The savings of the alerts** together. -/
theorem sum_savings_le
    (hassessed : ∀ row ∈ energyRows, rowAlert model currentHour devicesRef.rows row ≠ none) :
    ((foundAlerts model currentHour energyRows devicesRef.rows).map fun alert =>
        (savingOf actualPricePerKwh alert).potentialHourlySavingsYer).sum ≤
      (energyRows.map rowWatts).sum / 1000 * actualPricePerKwh +
        (foundAlerts model currentHour energyRows devicesRef.rows).length *
          (0.005 + actualPricePerKwh / 100000) := by
  have hcost : (energyRows.map rowWatts).sum / 1000 * actualPricePerKwh =
      (energyRows.map fun row => rowWatts row / 1000 * actualPricePerKwh).sum := by
    rw [List.sum_map_mul_right, div_eq_mul_inv, ← List.sum_map_mul_right]
    rfl
  rw [hcost]
  refine sum_filterMap_le (fun row hrow => ?_) fun row hrow alert halert => ?_
  · have hwatts := rowWatts_nonneg hrows hrow (hassessed row hrow)
    positivity
  · exact (saving_bounds_of_rowAlert hrows hprice hdevices hmodel hrow
      (Option.join_eq_some_iff.mp halert)).2

/-- **The promised savings are sound**, where no price, limit or power is negative, and the
mean power of a row is part of its total power. -/
theorem savings_sound
    (h : grandAiReport model currentHour actualPricePerKwh energyRows devicesRef = some report) :
    SoundSavings actualPricePerKwh report := by
  have hne : energyRows ≠ [] := by
    rintro rfl
    exact absurd h (by simp [grandAiReport])
  rw [grandAiReport_eq hne] at h
  split at h
  next => exact absurd h (by simp)
  next hraise =>
    obtain rfl := Option.some.inj h
    have hassessed : ∀ row ∈ energyRows,
        rowAlert model currentHour devicesRef.rows row ≠ none := fun row hrow hnone =>
      hraise ⟨row, hrow, hnone⟩
    have hsum := sum_savings_le hrows hprice hdevices hmodel hassessed
    set alerts := foundAlerts model currentHour energyRows devicesRef.rows with halerts
    refine ⟨fun r hr => ?_, fun hsome => ?_, fun hnil => ?_, ?_⟩
    · rw [recommendations_reportOn] at hr
      split at hr
      next =>
        rw [List.mem_singleton.mp hr]
        exact le_rfl
      next =>
        obtain ⟨alert, halert, rfl⟩ := List.mem_map.mp hr
        obtain ⟨row, hrow, hjoin⟩ := List.mem_filterMap.mp (halerts ▸ halert)
        exact (saving_bounds_of_rowAlert hrows hprice hdevices hmodel hrow
          (Option.join_eq_some_iff.mp hjoin)).1
    · rw [recommendations_reportOn]
      exact if_neg hsome
    · rw [recommendations_reportOn]
      exact ⟨.preservation, if_pos hnil, rfl⟩
    · rw [sum_recommendations_reportOn]
      exact hsum

end Report

/-- The fridge of the kitchen draws the double of its base power: one alert, and a saving. -/
theorem savings_sound_doubleDraw :
    ∃ report, grandAiReport none 12 200 [doubleDraw] kitchenFirst = some report ∧
      report.criticalAlerts.length = 1 ∧
      (∃ r ∈ report.aiRecommendations, 0 < r.potentialHourlySavingsYer) ∧
      SoundSavings 200 report := by
  have hshown : (grandAiReport none 12 200 [doubleDraw] kitchenFirst).any fun report =>
      report.criticalAlerts.length = 1 ∧
        ∃ r ∈ report.aiRecommendations, 0 < r.potentialHourlySavingsYer := by decide +kernel
  obtain ⟨report, h, hreport⟩ := (Option.any_eq_true ..).mp hshown
  obtain ⟨halert, hsaving⟩ := of_decide_eq_true hreport
  refine ⟨report, h, halert, hsaving, savings_sound ?_ (by norm_num) ?_ (by simp) h⟩
  · norm_num [doubleDraw]
  · simp [kitchenFirst, kitchenFridge, garageFridge]

end SmartHomeEnergy
