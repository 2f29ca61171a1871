import SmartHomeEnergy.Relational.Overwrite
import SmartHomeEnergy.Warehouse.DeviceHours
import SmartHomeEnergy.Warehouse.Summary

/-!
# Refreshing a report

Two jobs replace the whole content of a table: Part 2 of `spark_dwh_batch.ipynb` writes the
monthly report, and `process_parquet_batch.ipynb` the historical summary. Both overwrite the
table with `truncate` set, part by part, and print whatever exception stops them; Part 1 of
the same notebook writes to a staging table first, and merges it in one transaction.

What stops them is the data. A month without a price has no cost, and the column of the cost
is not nullable; a reading without a zone makes a group without one, and the zone is part of a
primary key. Then the old report is gone and the new one is not there. That this is when it
happens, and only then, is `SmartHomeEnergy.refresh_keeps_iff`.
-/

namespace SmartHomeEnergy

open Numeric Relational

/-! ### The two tables -/

/-- The constraints of `dwh_monthly_energy_reports`. -/
def monthlyTarget : Target MonthRow (Option String) where
  ok r := (∃ m, r.reportMonth = some m ∧ m.length ≤ 7) ∧ r.totalKwh ≠ none ∧
    r.estimatedCostYer ≠ none
  key r := r.reportMonth

/-- The constraints of `historical_analytics_summary`. -/
def summaryTarget : Target SummaryRow SummaryKey where
  ok r := (∃ z, r.key.zone = some z ∧ z.length ≤ 100) ∧
    (∃ t, r.key.deviceType = some t ∧ t.length ≤ 100) ∧ r.totalRecordsAnalyzed < 2 ^ 31
  key r := r.key

section Definitions

variable {D : Type} (time : SparkTime D) (prices : List PriceRow) (rows : List (Reading String))

/-- **The monthly report is kept** or replaced, however Part 2 ends. -/
def KeepsMonthly (old : List MonthRow) : Prop :=
  monthlyTarget.Keeps old (monthlyReportDf time prices rows)

/-- **The summary is kept** or replaced, however the job ends; it may write nothing at all. -/
def KeepsSummary (currentTime : String) (old : List SummaryRow) : Prop :=
  ∀ new, processParquetBatch currentTime rows = some new → summaryTarget.Keeps old new

/-- The month of a reading can be reported: an hour of it has a price, and its sums fit into
the columns. -/
def MonthStorable (r : Reading String) : Prop :=
  ∃ m, reportMonth r = some m ∧
    (∃ r' ∈ rows, reportMonth r' = some m ∧ Priced prices (hourOfDay time r')) ∧
    |roundTo halfUp 2 (monthKwh time prices rows m)| < 10 ^ 10 ∧
    |(monthCost time prices rows m).getD 0| < 10 ^ 13

/-- The zone and the device type of a reading can be summed up: they are there, and neither
they nor their number of readings are too long for the columns. -/
def GroupStorable (r : Reading String) : Prop :=
  (∃ z, r.zone = some z ∧ z.length ≤ 100) ∧ (∃ t, r.deviceType = some t ∧ t.length ≤ 100) ∧
    rows.countP (fun x => summaryKey x = summaryKey r) < 2 ^ 31

end Definitions

/-! ### The rows of the monthly report -/

section Monthly

variable {D : Type} [DecidableEq D] {time : SparkTime D} {prices : List PriceRow}
  {rows : List (Reading String)} {month : Option String} {m : String}

theorem decimal_ne_none {p : ℕ} {x : Option ℚ} : (round2 x).bind (castDecimal p 2) ≠ none ↔
    x ≠ none ∧ |roundTo halfUp 2 (x.getD 0)| < 10 ^ (p - 2) := by
  rw [round2_bind_castDecimal]
  cases x <;> simp [round2]

omit [DecidableEq D] in
/-- The report has a row for the month of every reading, and for no other. -/
theorem mem_months :
    month ∈ groupKeys (fun p => p.1.key.reportMonth) (enrichedDf time prices rows) ↔
      ∃ r ∈ rows, reportMonth r = month := by
  rw [mem_groupKeys]
  constructor
  · rintro ⟨p, hp, rfl⟩
    obtain ⟨k, hk, he⟩ := mem_groupBy.mp ((mem_leftJoin _ _).mp hp).1
    obtain ⟨r, hr, rfl⟩ := mem_groupKeys.mp hk
    exact ⟨r, hr, by rw [← he]; rfl⟩
  · rintro ⟨r, hr, rfl⟩
    have hk : monthHourKey time r ∈ groupKeys (monthHourKey time) rows :=
      mem_groupKeys.mpr ⟨r, hr, rfl⟩
    obtain ⟨q, hq⟩ := List.exists_mem_of_ne_nil _ (joinMatches_ne_nil
      (fun (r : MonthHourRow) p => SameHour r.key.hourOfDay p) prices
      (monthHourRow (monthHourKey time r)
        (groupRows (monthHourKey time) rows (monthHourKey time r))))
    exact ⟨(_, q), (mem_leftJoin _ _).mpr ⟨mem_groupBy.mpr ⟨_, hk, rfl⟩, hq⟩, rfl⟩

/-- The device-hours of a month. -/
theorem mem_month_hours {p : MonthHourRow × Option PriceRow} :
    p ∈ (enrichedDf time prices rows).filter (fun p => p.1.key.reportMonth = month) ↔
      ∃ h, (h, p.2) ∈ pricedHours time prices rows ∧ h.toMonth.reportMonth = month ∧
        p.1 = (hourOf time rows h).toMonth := by
  rw [List.mem_filter, decide_eq_true_eq, enrichedDf_eq, joinedBatch_eq, List.map_map, List.mem_map]
  constructor
  · rintro ⟨⟨x, hx, rfl⟩, hmonth⟩
    exact ⟨x.1, hx, hmonth, rfl⟩
  · rintro ⟨h, hx, hmonth, he⟩
    exact ⟨⟨(h, p.2), hx, by rw [Function.comp_apply, ← he]⟩, by rw [he]; exact hmonth⟩

omit [DecidableEq D] in
/-- The month of a device-hour is that of its readings. -/
theorem reportMonth_of_hourKey (time : SparkTime D) (r : Reading String) :
    (hourKey time r).toMonth.reportMonth = reportMonth r := by
  rw [← monthHourKey_eq]
  rfl

/-- **A month has a cost** exactly when an hour of it has a price. -/
theorem cost_ne_none_iff (time : SparkTime D) (prices : List PriceRow)
    (month : Option String) (hs : Silver rows) :
    nullSum (((enrichedDf time prices rows).filter fun p => p.1.key.reportMonth = month).map
        fun p => realCost p.1.avgWattsPerHour p.2) ≠ none ↔
      ∃ r ∈ rows, reportMonth r = month ∧ Priced prices (hourOfDay time r) := by
  rw [ne_eq, nullSum_eq_none, List.forall_mem_map]
  push Not
  constructor
  · rintro ⟨p, hp, hcost⟩
    obtain ⟨h, hmem, hmonth, he⟩ := mem_month_hours.mp hp
    obtain ⟨hh, -⟩ := mem_pricedHours.mp hmem
    obtain ⟨w, hw, -⟩ := avgWatts_hourOf hs hh
    obtain ⟨r, hr, rfl⟩ := mem_groupKeys.mp hh
    rw [he, HourRow.toMonth, hw] at hcost
    exact ⟨r, hr, by rw [← reportMonth_of_hourKey time, hmonth],
      (priced_iff_exists_cost hh).mpr ⟨_, hmem, hcost⟩⟩
  · rintro ⟨r, hr, hmonth, hpriced⟩
    have hh : hourKey time r ∈ groupKeys (hourKey time) rows := mem_groupKeys.mpr ⟨r, hr, rfl⟩
    obtain ⟨w, hw, -⟩ := avgWatts_hourOf hs hh
    obtain ⟨q, hq, hcost⟩ := (priced_iff_exists_cost (w := w) hh).mp hpriced
    refine ⟨((hourOf time rows (hourKey time r)).toMonth, q), mem_month_hours.mpr
      ⟨_, hq, by rw [reportMonth_of_hourKey, hmonth], rfl⟩, ?_⟩
    rwa [HourRow.toMonth, hw]

/-- A month with readings has a use. -/
theorem kwh_ne_none (time : SparkTime D) (prices : List PriceRow) (hs : Silver rows)
    {r : Reading String} (hr : r ∈ rows)
    (hmonth : reportMonth r = month) :
    nullSum (((enrichedDf time prices rows).filter fun p => p.1.key.reportMonth = month).map
      fun p => realKwh p.1.avgWattsPerHour) ≠ none := by
  have hh : hourKey time r ∈ groupKeys (hourKey time) rows := mem_groupKeys.mpr ⟨r, hr, rfl⟩
  obtain ⟨w, hw, -⟩ := avgWatts_hourOf hs hh
  obtain ⟨q, hq⟩ := exists_pricedHour prices hh
  rw [ne_eq, nullSum_eq_none, List.forall_mem_map]
  intro hall
  have hnone := hall ((hourOf time rows (hourKey time r)).toMonth, q) (mem_month_hours.mpr
    ⟨_, hq, by rw [reportMonth_of_hourKey, hmonth], rfl⟩)
  simp [HourRow.toMonth, hw, realKwh] at hnone

/-- **The row of a month is stored** when the month of its readings can be reported. -/
theorem monthlyTarget_ok (hs : Silver rows) {r : Reading String} (hr : r ∈ rows) :
    monthlyTarget.ok (monthRow (reportMonth r) (groupRows (fun p => p.1.key.reportMonth)
      (enrichedDf time prices rows) (reportMonth r))) ↔ MonthStorable time prices rows r := by
  have hkwh := kwh_ne_none time prices hs hr rfl
  have hcost := cost_ne_none_iff time prices (reportMonth r) hs
  cases hm : reportMonth r with
  | none => simp [monthlyTarget, monthRow, MonthStorable, hm]
  | some m =>
    rw [hm] at hkwh hcost
    have hlength : m.length ≤ 7 := by
      obtain ⟨s, -, rfl⟩ := Option.map_eq_some_iff.mp hm
      simp [substring]
    have huse : monthKwh time prices rows m = (nullSum (((enrichedDf time prices rows).filter
        fun p => p.1.key.reportMonth = some m).map fun p =>
          realKwh p.1.avgWattsPerHour)).getD 0 := by
      rw [getD_nullSum, List.map_map]
      rfl
    have hrow : monthlyTarget.ok (monthRow (some m) (groupRows (fun p => p.1.key.reportMonth)
        (enrichedDf time prices rows) (some m))) ↔
        (∃ m', some m = some m' ∧ m'.length ≤ 7) ∧
        |roundTo halfUp 2 (monthKwh time prices rows m)| < 10 ^ 10 ∧
        (∃ r ∈ rows, reportMonth r = some m ∧ Priced prices (hourOfDay time r)) ∧
        |(monthCost time prices rows m).getD 0| < 10 ^ 13 := by
      rw [← hcost, monthCost, getD_round2, huse]
      exact and_congr_right fun _ => and_congr (decimal_ne_none.trans (and_iff_right hkwh))
        decimal_ne_none
    rw [hrow, MonthStorable, hm]
    constructor
    · rintro ⟨-, hA, hB, hC⟩
      exact ⟨m, rfl, hB, hA, hC⟩
    · rintro ⟨m', he, hB, hA, hC⟩
      obtain rfl := Option.some.inj he
      exact ⟨⟨m, rfl, hlength⟩, hA, hB, hC⟩

omit [DecidableEq D] in
/-- What holds of every row of the report, reading by reading. -/
theorem forall_mem_monthlyReportDf {P : MonthRow → Prop} :
    (∀ x ∈ monthlyReportDf time prices rows, P x) ↔ ∀ r ∈ rows,
      P (monthRow (reportMonth r) (groupRows (fun p => p.1.key.reportMonth)
        (enrichedDf time prices rows) (reportMonth r))) := by
  constructor
  · intro h r hr
    exact h _ (List.mem_mergeSort.mpr (mem_groupBy.mpr ⟨_, mem_months.mpr ⟨r, hr, rfl⟩, rfl⟩))
  · intro h x hx
    obtain ⟨month, hmonth, rfl⟩ := mem_groupBy.mp (List.mem_mergeSort.mp hx)
    obtain ⟨r, hr, rfl⟩ := mem_months.mp hmonth
    exact h r hr

theorem keepsMonthly_iff (hs : Silver rows) (old : List MonthRow) :
    KeepsMonthly time prices rows old ↔ (∀ r ∈ rows, MonthStorable time prices rows r) ∨
      (old = [] ∧ ∀ r ∈ rows, ¬MonthStorable time prices rows r) := by
  have hkeys : ((monthlyReportDf time prices rows).map monthlyTarget.key).Nodup :=
    ((List.mergeSort_perm _ _).map _).nodup_iff.mpr (nodup_map_groupBy fun _ _ => rfl)
  rw [KeepsMonthly, Target.keeps_iff hkeys, forall_mem_monthlyReportDf, forall_mem_monthlyReportDf]
  exact or_congr (forall₂_congr fun r hr => monthlyTarget_ok hs hr)
    (and_congr_right fun _ => forall₂_congr fun r hr => not_congr (monthlyTarget_ok hs hr))

end Monthly

/-! ### The rows of the summary -/

section Summary

variable {currentTime : String} {rows : List (Reading String)}

theorem numericRows_of_silver (hs : Silver rows) : numericRows rows = rows := by
  refine List.filter_eq_self.mpr fun r hr => ?_
  obtain ⟨p, hp, -⟩ := holds_silverCleanedDf.mp (hs r hr)
  simp [hp]

/-- **The row of a group is stored** when the group of its readings can be summed up. -/
theorem summaryTarget_ok (hs : Silver rows) (r : Reading String) :
    summaryTarget.ok (summaryRow currentTime (summaryKey r)
      (groupRows summaryKey (numericRows rows) (summaryKey r))) ↔ GroupStorable rows r := by
  have hcount : (summaryRow currentTime (summaryKey r) (groupRows summaryKey (numericRows rows)
      (summaryKey r))).totalRecordsAnalyzed =
        rows.countP fun x => summaryKey x = summaryKey r := by
    rw [List.countP_eq_length_filter]
    refine (length_groupPowers (summaryKey r)).trans ?_
    rw [numericRows_of_silver hs]
    rfl
  rw [GroupStorable, ← hcount]
  rfl

theorem forall_mem_summaryDf (hs : Silver rows) {P : SummaryRow → Prop} :
    (∀ x ∈ summaryDf currentTime rows, P x) ↔ ∀ r ∈ rows,
      P (summaryRow currentTime (summaryKey r)
        (groupRows summaryKey (numericRows rows) (summaryKey r))) := by
  have hkeys : ∀ k, k ∈ groupKeys summaryKey (numericRows rows) ↔ ∃ r ∈ rows, summaryKey r = k := by
    rw [numericRows_of_silver hs]
    exact fun k => mem_groupKeys
  constructor
  · intro h r hr
    exact h _ (mem_groupBy.mpr ⟨_, (hkeys _).mpr ⟨r, hr, rfl⟩, rfl⟩)
  · intro h x hx
    obtain ⟨k, hk, rfl⟩ := mem_groupBy.mp hx
    obtain ⟨r, hr, rfl⟩ := (hkeys k).mp hk
    exact h r hr

theorem keepsSummary_iff (hs : Silver rows) (old : List SummaryRow) :
    KeepsSummary rows currentTime old ↔ (∀ r ∈ rows, GroupStorable rows r) ∨
      (old = [] ∧ ∀ r ∈ rows, ¬GroupStorable rows r) := by
  have hkeys : ((summaryDf currentTime rows).map summaryTarget.key).Nodup :=
    nodup_map_groupBy fun _ _ => rfl
  have hwrites : KeepsSummary rows currentTime old ↔
      (rows ≠ [] → summaryTarget.Keeps old (summaryDf currentTime rows)) := by
    simp only [KeepsSummary, processParquetBatch_eq_some, numericRows_of_silver hs]
    exact ⟨fun h hne => h _ ⟨hne, rfl⟩, fun h new ⟨hne, he⟩ => he ▸ h hne⟩
  by_cases hrows : rows = []
  · -- without a reading nothing is written
    rw [hwrites]
    exact iff_of_true (fun hne => absurd hrows hne) (Or.inl (by simp [hrows]))
  · rw [hwrites, forall_prop_of_true hrows, Target.keeps_iff hkeys, forall_mem_summaryDf hs,
      forall_mem_summaryDf hs]
    simp only [summaryTarget_ok hs]

end Summary

/-- **Exactly when a refresh keeps the old report or leaves the new one**: when every month,
and every zone and device type, can be stored – or when none can, and the table was empty. -/
theorem refresh_keeps_iff {D : Type} [DecidableEq D] (time : SparkTime D)
    (prices : List PriceRow) (currentTime : String) (rows : List (Reading String))
    (oldMonths : List MonthRow) (oldSummary : List SummaryRow) (hs : Silver rows) :
    (KeepsMonthly time prices rows oldMonths ↔
      (∀ r ∈ rows, MonthStorable time prices rows r) ∨
        (oldMonths = [] ∧ ∀ r ∈ rows, ¬MonthStorable time prices rows r)) ∧
    (KeepsSummary rows currentTime oldSummary ↔
      (∀ r ∈ rows, GroupStorable rows r) ∨
        (oldSummary = [] ∧ ∀ r ∈ rows, ¬GroupStorable rows r)) :=
  ⟨keepsMonthly_iff hs oldMonths, keepsSummary_iff hs oldSummary⟩

/-- A report that was written before. -/
def januaryReport : List MonthRow := [⟨some "2026-01", some 3.6, some 72⟩]

/-- The refrigerator at noon, priced and named, replaces any report. -/
theorem refresh_keeps_fridge :
    KeepsMonthly isoTime noonPrice [fridgeAt "2026-02-01 12:00:00"] januaryReport ∧
      KeepsSummary [fridgeAt "2026-02-01 12:00:00"] "2026-02-02 00:00:00" [] := by
  have hiff := refresh_keeps_iff isoTime noonPrice "2026-02-02 00:00:00"
    [fridgeAt "2026-02-01 12:00:00"] januaryReport [] (by decide +kernel)
  refine ⟨hiff.1.mpr (Or.inl fun r hr => ?_), hiff.2.mpr (Or.inl fun r hr => ?_)⟩
  · obtain rfl := List.mem_singleton.mp hr
    exact ⟨"2026-02", by decide +kernel, ⟨_, hr, by decide +kernel, ⟨some 12, some 20⟩,
      by decide +kernel, by decide +kernel, by decide +kernel⟩, by decide +kernel,
      by decide +kernel⟩
  · obtain rfl := List.mem_singleton.mp hr
    exact ⟨⟨_, rfl, by decide +kernel⟩, ⟨_, rfl, by decide +kernel⟩, by decide +kernel⟩

/-- The refrigerator an hour later, without a price: the report of January is gone. -/
theorem not_keepsMonthly :
    Silver [fridgeAt "2026-02-01 13:00:00"] ∧
      ¬KeepsMonthly isoTime noonPrice [fridgeAt "2026-02-01 13:00:00"] januaryReport := by
  have hs : Silver [fridgeAt "2026-02-01 13:00:00"] := by decide +kernel
  refine ⟨hs, fun h => ?_⟩
  rcases (keepsMonthly_iff hs januaryReport).mp h with hall | ⟨hnil, -⟩
  · obtain ⟨m, -, ⟨r', hr', -, p, hp, hsame, -⟩, -⟩ := hall _ List.mem_cons_self
    rw [List.mem_singleton.mp hr', List.mem_singleton.mp hp] at hsame
    exact absurd hsame (by decide +kernel)
  · simp [januaryReport] at hnil

end SmartHomeEnergy
