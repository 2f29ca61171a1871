import SmartHomeEnergy.Warehouse.Sink

/-!
# The monthly report, and how it agrees with the daily warehouse

Part 2 of `spark_dwh_batch.ipynb` goes over all silver rows once more: it averages them for
every device and hour, under a key of its own, prices the hours and adds them up for every
month. The daily warehouse does the same by days, and rounds earlier.

Its device-hours are those of the daily warehouse (`SmartHomeEnergy.enrichedDf_eq`), since
either key is a function of the hour's text, the hour and the device. So over a single batch
that is stored, both paths add up the same hours, and differ by their rounding alone
(`SmartHomeEnergy.daily_agrees_with_monthly`). The batch is stored if the table has the
constraint that the merge needs and the database does not fail; and the report keeps the cost of
a month if the cost fits its column, which is narrower than that of the daily table
(`SmartHomeEnergy.not_daily_agrees_with_monthly`).
-/

namespace SmartHomeEnergy

open Numeric Relational

/-! ### The report -/

/-- What the readings of a device in an hour share, in the monthly report. -/
structure MonthHourKey where
  reportMonth : Option String
  dateHourKey : Option String
  hourOfDay : Option ℕ
  deviceId : Option String
  deriving DecidableEq

/-- A row of `hourly_device_avg`. -/
structure MonthHourRow where
  key : MonthHourKey
  avgWattsPerHour : Option ℚ
  deriving DecidableEq

/-- `report_month`. -/
def reportMonth (r : Reading String) : Option String := r.timestamp.map fun s => substring s 7

/-- The device-hour of a reading, in the monthly report. -/
def monthHourKey {D : Type} (time : SparkTime D) (r : Reading String) : MonthHourKey where
  reportMonth := reportMonth r
  dateHourKey := dateHourKey r
  hourOfDay := hourOfDay time r
  deviceId := r.deviceId

/-- The row of a device-hour. -/
def monthHourRow (k : MonthHourKey) (rows : List (Reading String)) : MonthHourRow where
  key := k
  avgWattsPerHour := nullAvg (rows.map (·.powerConsumptionWatts))

/-- `cast("decimal(p, s)")`: null when the value does not fit. -/
def castDecimal (p s : ℕ) (x : ℚ) : Option ℚ :=
  let y := roundTo halfUp s x
  if |y| < 10 ^ (p - s) then some y else none

/-- A row of `monthly_report_df`. -/
structure MonthRow where
  reportMonth : Option String
  totalKwh : Option ℚ
  estimatedCostYer : Option ℚ
  deriving DecidableEq

/-- The row of a month, from its priced device-hours. -/
def monthRow (month : Option String) (rows : List (MonthHourRow × Option PriceRow)) :
    MonthRow where
  reportMonth := month
  totalKwh :=
    (round2 (nullSum (rows.map fun p => realKwh p.1.avgWattsPerHour))).bind (castDecimal 12 2)
  estimatedCostYer :=
    (round2 (nullSum (rows.map fun p => realCost p.1.avgWattsPerHour p.2))).bind (castDecimal 15 2)

/-- The order of the report: nulls first. -/
def monthLe (r r' : MonthRow) : Bool :=
  match r.reportMonth, r'.reportMonth with
  | none, _ => true
  | some _, none => false
  | some m, some m' => decide (m ≤ m')

section Report

variable {D : Type} (time : SparkTime D) (prices : List PriceRow)
  (rows : List (Reading String))

/-- `hourly_device_avg`. -/
def hourlyDeviceAvg : List MonthHourRow := groupBy (monthHourKey time) monthHourRow rows

/-- `enriched_df`: every device-hour, with each of its prices. -/
def enrichedDf : List (MonthHourRow × Option PriceRow) :=
  leftJoin (fun r p => SameHour r.key.hourOfDay p) (hourlyDeviceAvg time rows) prices

/-- `monthly_report_df`. -/
def monthlyReportDf : List MonthRow :=
  (groupBy (fun p => p.1.key.reportMonth) monthRow (enrichedDf time prices rows)).mergeSort monthLe

/-- The `real_kwh` of a month, summed up and not rounded. -/
def monthKwh (month : String) : ℚ :=
  (((enrichedDf time prices rows).filter fun p => p.1.key.reportMonth = some month).map fun p =>
    (realKwh p.1.avgWattsPerHour).getD 0).sum

/-- The `estimated_cost_yer` of a month, before it is cast to a decimal. -/
def monthCost (month : String) : Option ℚ :=
  round2 (nullSum (((enrichedDf time prices rows).filter fun p =>
    p.1.key.reportMonth = some month).map fun p => realCost p.1.avgWattsPerHour p.2))

end Report

/-! ### The same device-hours -/

section SameHours

variable {D : Type} [DecidableEq D] (time : SparkTime D) (prices : List PriceRow)
  (rows : List (Reading String))

/-- The device-hour of the daily warehouse, in the monthly report. -/
def HourKey.toMonth (k : HourKey D) : MonthHourKey where
  reportMonth := k.dateHourKey.map fun s => substring s 7
  dateHourKey := k.dateHourKey
  hourOfDay := k.hourOfDay
  deviceId := k.deviceId

/-- The row of a device-hour of the daily warehouse, in the monthly report. -/
def HourRow.toMonth (r : HourRow D) : MonthHourRow := ⟨r.key.toMonth, r.avgWatts⟩

omit [DecidableEq D] in
theorem monthHourKey_eq (r : Reading String) : monthHourKey time r = (hourKey time r).toMonth := by
  cases h : r.timestamp <;>
    simp [monthHourKey, hourKey, HourKey.toMonth, reportMonth, dateHourKey, h, substring_substring]

omit [DecidableEq D] in
/-- The date and the peak hours add nothing to what a device-hour is. -/
theorem hourKey_inj {r r' : Reading String}
    (h : (hourKey time r).toMonth = (hourKey time r').toMonth) :
    hourKey time r = hourKey time r' := by
  simp only [HourKey.toMonth, hourKey, MonthHourKey.mk.injEq] at h
  obtain ⟨-, hdate, hhour, hdevice⟩ := h
  have hreport : ∀ x : Reading String, reportDate time x =
      (dateHourKey x).bind fun s => time.toTimestamp (substring s 10) := by
    intro x
    cases hx : x.timestamp <;> simp [reportDate, dateHourKey, hx, substring_substring]
  simp [hourKey, hreport, hdate, hhour, hdevice]

theorem hourlyDeviceAvg_eq :
    hourlyDeviceAvg time rows = (hourlyCore time rows).map HourRow.toMonth := by
  have hcomp : ∀ r ∈ rows, monthHourKey time r = (hourKey time r).toMonth := fun r _ =>
    monthHourKey_eq time r
  have hinj : ∀ r ∈ rows, ∀ r' ∈ rows, (hourKey time r).toMonth = (hourKey time r').toMonth →
      hourKey time r = hourKey time r' := fun _ _ _ _ => hourKey_inj time
  rw [hourlyDeviceAvg, groupBy, groupKeys_of_comp hcomp hinj, hourlyCore, groupBy, List.map_map,
    List.map_map]
  refine List.map_congr_left fun k hk => ?_
  rw [Function.comp_apply, groupRows_of_comp hcomp hinj hk]
  rfl

/-- **Both paths price the same device-hours.** -/
theorem enrichedDf_eq :
    enrichedDf time prices rows =
      (joinedBatch time prices rows).map fun p => (p.1.toMonth, p.2) := by
  rw [enrichedDf, hourlyDeviceAvg_eq, leftJoin_map]
  rfl

end SameHours

/-! ### Well-formed timestamps -/

/-- The number that a list of digits spells. -/
def number (cs : List Char) : Option ℕ :=
  if cs.all Char.isDigit then some (cs.foldl (fun n c => 10 * n + (c.toNat - '0'.toNat)) 0)
  else none

/-- The length of a month. -/
def daysInMonth (year month : ℕ) : ℕ :=
  if month = 2 then
    if year % 4 = 0 ∧ (year % 100 ≠ 0 ∨ year % 400 = 0) then 29 else 28
  else if month ∈ [4, 6, 9, 11] then 30
  else 31

/-- A timestamp as the simulator writes it, `YYYY-MM-DD HH:MM:SS`, of a day that exists. -/
def IsTimestamp (s : String) : Prop :=
  let field i n := number ((s.toList.drop i).take n)
  s.toList.length = 19 ∧ (∀ i ∈ [4, 7], s.toList[i]? = some '-') ∧ s.toList[10]? = some ' ' ∧
    (∀ i ∈ [13, 16], s.toList[i]? = some ':') ∧
    (∃ y ∈ field 0 4, ∃ m ∈ field 5 2, ∃ d ∈ field 8 2,
      1 ≤ y ∧ 1 ≤ m ∧ m ≤ 12 ∧ 1 ≤ d ∧ d ≤ daysInMonth y m) ∧
    (∃ h ∈ field 11 2, h < 24) ∧ (∃ n ∈ field 14 2, n < 60) ∧ ∃ n ∈ field 17 2, n < 60

instance (s : String) : Decidable (IsTimestamp s) := by
  unfold IsTimestamp
  infer_instance

/-- What is documented of the functions of time: the first ten characters of a well-formed
timestamp are read as a date, in the month that the first seven spell. -/
def ReadsDates {D : Type} (time : SparkTime D) (monthOf : D → String) : Prop :=
  ∀ s, IsTimestamp s →
    ∃ d, time.toTimestamp (substring s 10) = some d ∧ monthOf d = substring s 7

/-! ### A month of the daily warehouse -/

/-- The rows of a day are dated in a month. -/
def DayKey.InMonth {D : Type} (monthOf : D → String) (month : String) (k : DayKey D) : Prop :=
  k.reportDate.map monthOf = some month

instance {D : Type} (monthOf : D → String) (month : String) :
    DecidablePred (DayKey.InMonth monthOf month) :=
  fun k => inferInstanceAs (Decidable (k.reportDate.map monthOf = some month))

section Month

variable {D : Type} [DecidableEq D] {time : SparkTime D} {monthOf : D → String}
  {prices : List PriceRow} {rows : List (Reading String)} {month : String}

/-- What a month of the daily warehouse is made of. -/
def monthHours (time : SparkTime D) (monthOf : D → String) (prices : List PriceRow)
    (rows : List (Reading String)) (month : String) : List (HourRow D × Option PriceRow) :=
  (joinedBatch time prices rows).filter fun p => p.1.dayKey.InMonth monthOf month

/-- One batch, into an empty table, appends its rows. -/
theorem analytics_single {constraints : List (List Column)}
    (hconstraint : HasArbiter constraints analyticsTarget) (batchId : ℕ) {w : Warehouse D}
    (hempty : w.analytics = []) :
    (writeToPostgres constraints time prices none none batchId rows w).state.analytics =
      finalAnalyticsDf time prices rows := by
  have ht : w.analytics = (Table.empty : Analytics D).rows := hempty
  rw [writeToPostgres_analytics time prices hconstraint batchId rows ht]
  exact Table.rows_upsertAll_of_nodup dayUpsert (nodup_conflictKey time prices rows)

/-- The days of a month are made of its device-hours. -/
theorem inMonth_finalAnalyticsDf :
    (finalAnalyticsDf time prices rows).filter (fun r => r.key.InMonth monthOf month) =
      groupBy (fun p => p.1.dayKey) dayRow (monthHours time monthOf prices rows month) := by
  have hkey : ∀ (k : DayKey D) ps, (dayRow k ps).key = k := fun _ _ => rfl
  rw [finalAnalyticsDf, filter_groupBy hkey]
  rfl

/-- A device-hour has the date and the month of its readings. -/
theorem exists_reading {p : HourRow D × Option PriceRow} (hp : p ∈ joinedBatch time prices rows) :
    ∃ r ∈ rows, p.1.key = hourKey time r := by
  obtain ⟨⟨h, hh, he⟩, -⟩ := (mem_joinedBatch time prices).mp hp
  obtain ⟨r, hr, rfl⟩ := mem_groupKeys.mp hh
  exact ⟨r, hr, congrArg HourRow.key he⟩

/-- **The month of a device-hour** is that of its day. -/
theorem filter_enrichedDf (htime : ReadsDates time monthOf)
    (hvalid : ∀ r ∈ rows, ∃ s, r.timestamp = some s ∧ IsTimestamp s) :
    (enrichedDf time prices rows).filter (fun p => p.1.key.reportMonth = some month) =
      (monthHours time monthOf prices rows month).map fun p => (p.1.toMonth, p.2) := by
  rw [enrichedDf_eq, List.filter_map, monthHours]
  refine congrArg (List.map _) (List.filter_congr fun p hp => ?_)
  obtain ⟨r, hr, hkey⟩ := exists_reading hp
  obtain ⟨s, hs, hs'⟩ := hvalid r hr
  obtain ⟨d, hd, hmonth⟩ := htime s hs'
  rw [Function.comp_apply, decide_eq_decide]
  simp [HourRow.toMonth, HourKey.toMonth, DayKey.InMonth, HourRow.dayKey, hkey, hourKey,
    dateHourKey, reportDate, hs, hd, hmonth, substring_substring]

/-! ### Agreement -/

/-- The cost of a device-hour, zero without a price. -/
def hourCost (p : HourRow D × Option PriceRow) : ℚ := (realCost p.1.avgWatts p.2).getD 0

theorem getD_round2 (x : Option ℚ) : (round2 x).getD 0 = roundTo halfUp 2 (x.getD 0) := by
  cases x with
  | none => exact (roundTo_zero nearest_halfUp 2).symm
  | some x => rfl

/-- **Rounding every day and rounding the month** differ by half a cent for every day, and
one for the month. -/
theorem abs_dailyCost_sub_le (hours : List (HourRow D × Option PriceRow)) :
    |((groupBy (fun p => p.1.dayKey) dayRow hours).map fun d => d.estimatedCostYer.getD 0).sum -
        roundTo halfUp 2 (hours.map hourCost).sum| ≤
      0.005 * ((groupBy (fun p => p.1.dayKey) dayRow hours).length + 1) := by
  -- the costs of the days before rounding
  let sums := (groupKeys (fun p => p.1.dayKey) hours).map fun k =>
    ((groupRows (fun p => p.1.dayKey) hours k).map hourCost).sum
  have hdays : ((groupBy (fun p => p.1.dayKey) dayRow hours).map
      fun d => d.estimatedCostYer.getD 0) = sums.map (roundTo halfUp 2) := by
    rw [groupBy, List.map_map, List.map_map]
    refine List.map_congr_left fun k _ => ?_
    simp only [Function.comp_apply, dayRow, getD_round2, getD_nullSum, List.map_map]
    rfl
  have hlength : (groupBy (fun p => p.1.dayKey) dayRow hours).length = sums.length := by
    simp [sums, groupBy]
  have hsum : sums.sum = (hours.map hourCost).sum := sum_groupBy hourCost hours
  have heach := abs_sum_roundTo_sub_le nearest_halfUp 2 sums
  have hmonth := abs_roundTo_sub_le nearest_halfUp 2 (hours.map hourCost).sum
  rw [hdays, hlength]
  rw [hsum] at heach
  rw [abs_sub_comm] at hmonth
  calc |(sums.map (roundTo halfUp 2)).sum - roundTo halfUp 2 (hours.map hourCost).sum|
      ≤ |(sums.map (roundTo halfUp 2)).sum - (hours.map hourCost).sum| +
        |(hours.map hourCost).sum - roundTo halfUp 2 (hours.map hourCost).sum| := abs_sub_le _ _ _
    _ ≤ sums.length * (1 / (2 * 10 ^ 2)) + 1 / (2 * 10 ^ 2) := add_le_add heach hmonth
    _ = 0.005 * (sums.length + 1) := by ring

/-- The days of some device-hours have no cost exactly when the device-hours have none. -/
theorem dailyCost_eq_none_iff (hours : List (HourRow D × Option PriceRow)) :
    (∀ d ∈ groupBy (fun p => p.1.dayKey) dayRow hours, d.estimatedCostYer = none) ↔
      nullSum (hours.map fun p => realCost p.1.avgWatts p.2) = none := by
  have hday : ∀ (k : DayKey D) ps, (dayRow k ps).estimatedCostYer = none ↔
      ∀ p ∈ ps, realCost p.1.avgWatts p.2 = none := by
    intro k ps
    rw [dayRow, round2, Option.map_eq_none_iff, nullSum_eq_none, List.forall_mem_map]
  rw [nullSum_eq_none, List.forall_mem_map]
  constructor
  · intro h p hp
    have hk : p.1.dayKey ∈ groupKeys (fun p => p.1.dayKey) hours := mem_groupKeys.mpr ⟨p, hp, rfl⟩
    exact (hday _ _).mp (h _ (mem_groupBy.mpr ⟨_, hk, rfl⟩)) p (mem_groupRows.mpr ⟨hp, rfl⟩)
  · intro h d hd
    obtain ⟨k, -, rfl⟩ := mem_groupBy.mp hd
    exact (hday _ _).mpr fun p hp => h p (mem_groupRows.mp hp).1

/-- A cost that is rounded to two decimals is stored as it is, unless it does not fit. -/
theorem round2_bind_castDecimal (p : ℕ) (x : Option ℚ) :
    (round2 x).bind (castDecimal p 2) = (round2 x).filter fun c => |c| < 10 ^ (p - 2) := by
  cases x with
  | none => rfl
  | some x =>
    simp only [round2, Option.map_some, Option.bind_some, castDecimal,
      roundTo_roundTo nearest_halfUp, Option.filter_some, decide_eq_true_eq]

omit [DecidableEq D] in
/-- A month is in the report when a device-hour lies in it. -/
theorem exists_monthRow_iff :
    (∃ r ∈ monthlyReportDf time prices rows, r.reportMonth = some month) ↔
      (enrichedDf time prices rows).filter (fun p => p.1.key.reportMonth = some month) ≠ [] := by
  constructor
  · rintro ⟨r, hr, hm⟩
    obtain ⟨k, hk, rfl⟩ := mem_groupBy.mp (List.mem_mergeSort.mp hr)
    obtain ⟨p, hp, hpk⟩ := mem_groupKeys.mp hk
    exact List.ne_nil_of_mem (List.mem_filter.mpr ⟨hp, decide_eq_true (hpk.trans hm)⟩)
  · intro hne
    obtain ⟨p, hp⟩ := List.exists_mem_of_ne_nil _ hne
    obtain ⟨hp, hm⟩ := List.mem_filter.mp hp
    refine ⟨_, List.mem_mergeSort.mpr (mem_groupBy.mpr ⟨some month, ?_, rfl⟩), rfl⟩
    exact mem_groupKeys.mpr ⟨p, hp, of_decide_eq_true hm⟩

omit [DecidableEq D] in
/-- The cost that the report shows for a month: null when it does not fit. -/
theorem estimatedCostYer_of_mem_report {r : MonthRow} (hr : r ∈ monthlyReportDf time prices rows)
    (hrm : r.reportMonth = some month) :
    r.estimatedCostYer = (monthCost time prices rows month).filter fun c => |c| < 10 ^ 13 := by
  obtain ⟨k, hk, rfl⟩ := mem_groupBy.mp (List.mem_mergeSort.mp hr)
  obtain rfl : k = some month := hrm
  exact round2_bind_castDecimal 15 _

/-- Where every reading has a power, every device-hour has a use. -/
theorem realKwh_ne_none (hpower : ∀ r ∈ rows, r.powerConsumptionWatts ≠ none)
    {p : HourRow D × Option PriceRow} (hp : p ∈ joinedBatch time prices rows) :
    realKwh p.1.avgWatts ≠ none := by
  obtain ⟨⟨h, hh, he⟩, -⟩ := (mem_joinedBatch time prices).mp hp
  obtain ⟨r, hr, hrh⟩ := mem_groupKeys.mp hh
  obtain ⟨w, hw⟩ := Option.ne_none_iff_exists'.mp (hpower r hr)
  have hmem : some w ∈ (groupRows (hourKey time) rows h).map (·.powerConsumptionWatts) :=
    List.mem_map.mpr ⟨r, mem_groupRows.mpr ⟨hr, hrh⟩, hw⟩
  rw [he, hourOf, hourRow, nullAvg_eq_some_of_mem hmem, realKwh_some]
  exact Option.some_ne_none _

/-- **The daily and the monthly path agree**, over a single batch of readings with well-formed
timestamps and with powers, which is stored in an empty table with the constraint that the merge
needs, without a failure of the database: in every month they add up to the same use, and to the
same cost up to half a cent for every rounding. The report shows that cost if the column can hold
it, and null otherwise. -/
theorem daily_agrees_with_monthly (constraints : List (List Column)) (time : SparkTime D)
    (monthOf : D → String) (prices : List PriceRow) (rows : List (Reading String))
    (month : String) (batchId : ℕ) (stagingFault : Option (List (DayRow D)))
    (fault : Option Fault) (w : Warehouse D)
    (hconstraint : HasArbiter constraints analyticsTarget)
    (hstaging : stagingFault = none) (hfault : fault = none) (hempty : w.analytics = [])
    (htime : ReadsDates time monthOf)
    (hvalid : ∀ r ∈ rows, ∃ s, r.timestamp = some s ∧ IsTimestamp s)
    (hpower : ∀ r ∈ rows, r.powerConsumptionWatts ≠ none) :
    let daily := (writeToPostgres constraints time prices stagingFault fault batchId rows
      w).state.analytics.filter fun d => d.key.InMonth monthOf month
    let cost := monthCost time prices rows month
    (∀ d ∈ daily, d.rawKwhSum ≠ none) ∧
    (daily.map fun d => d.rawKwhSum.getD 0).sum = monthKwh time prices rows month ∧
    |(daily.map fun d => d.estimatedCostYer.getD 0).sum - cost.getD 0| ≤
      0.005 * (daily.length + 1) ∧
    ((∀ d ∈ daily, d.estimatedCostYer = none) ↔ cost = none) ∧
    (daily ≠ [] ↔ ∃ r ∈ monthlyReportDf time prices rows, r.reportMonth = some month) ∧
    ∀ r ∈ monthlyReportDf time prices rows, r.reportMonth = some month →
      r.estimatedCostYer = (cost.filter fun c => |c| < 10 ^ 13) ∧
      ((∀ c ∈ cost, |c| < 10 ^ 13) →
        |(daily.map fun d => d.estimatedCostYer.getD 0).sum - r.estimatedCostYer.getD 0| ≤
          0.005 * (daily.length + 1)) := by
  intro daily cost
  have hdaily : daily = groupBy (fun p => p.1.dayKey) dayRow
      (monthHours time monthOf prices rows month) := by
    simp only [daily, hstaging, hfault]
    rw [analytics_single hconstraint batchId hempty, inMonth_finalAnalyticsDf]
  have hmonth : (enrichedDf time prices rows).filter (fun p => p.1.key.reportMonth = some month) =
      (monthHours time monthOf prices rows month).map fun p => (p.1.toMonth, p.2) :=
    filter_enrichedDf htime hvalid
  have hcost : cost = round2 (nullSum ((monthHours time monthOf prices rows month).map
      fun p => realCost p.1.avgWatts p.2)) := by
    simp only [cost, monthCost, hmonth, List.map_map]
    rfl
  have hnear : |(daily.map fun d => d.estimatedCostYer.getD 0).sum - cost.getD 0| ≤
      0.005 * (daily.length + 1) := by
    rw [hdaily, hcost, getD_round2, getD_nullSum, List.map_map]
    exact abs_dailyCost_sub_le _
  refine ⟨?_, ?_, hnear, ?_, ?_, ?_⟩
  · intro d hd
    rw [hdaily] at hd
    obtain ⟨k, hk, rfl⟩ := mem_groupBy.mp hd
    obtain ⟨p, hp⟩ := List.exists_mem_of_ne_nil _ (groupRows_ne_nil hk)
    have hp' := (List.mem_filter.mp (mem_groupRows.mp hp).1).1
    exact fun hnone => realKwh_ne_none hpower hp'
      (nullSum_eq_none.mp hnone _ (List.mem_map_of_mem hp))
  · rw [hdaily, monthKwh, hmonth, List.map_map]
    refine sum_map_groupBy (fun k ps => ?_) _
    rw [dayRow, getD_nullSum, List.map_map]
    rfl
  · rw [hdaily, hcost, round2, Option.map_eq_none_iff]
    exact dailyCost_eq_none_iff _
  · rw [exists_monthRow_iff, hmonth, hdaily, ne_eq, groupBy_eq_nil, ne_eq, List.map_eq_nil_iff]
  · intro r hr hrm
    have hshown := estimatedCostYer_of_mem_report hr hrm
    refine ⟨hshown, fun hfits => ?_⟩
    have hkept : (cost.filter fun c => |c| < 10 ^ 13) = cost := by
      cases hc : cost with
      | none => rfl
      | some c => exact if_pos (decide_eq_true (hfits c hc))
    rw [hshown, hkept]
    exact hnear

end Month

/-- The daily rows of January that one reading of the refrigerator leaves in an empty table. -/
def januaryOf (constraints : List (List Column)) (fault : Option Fault) (price : ℚ) :
    List (DayRow String) :=
  (writeToPostgres constraints isoTime [⟨some 12, some price⟩] none fault 0
    [fridgeAt "2026-01-01 12:00:00"] ⟨[], []⟩).state.analytics.filter fun d =>
      d.key.InMonth (fun date => substring date 7) "2026-01"

/-- The report shows a use that the daily table does not know of, when the table is the declared
one, without the constraint, and when the commit fails; and at a price of `10 ^ 14` it shows no
cost, although the daily table does. -/
theorem not_daily_agrees_with_monthly :
    let rows := [fridgeAt "2026-01-01 12:00:00"]
    (∀ daily ∈ [januaryOf analyticsConstraints none 20,
        januaryOf [analyticsTarget] (some .commit) 20],
      (daily.map fun d => d.rawKwhSum.getD 0).sum ≠
        monthKwh isoTime [⟨some 12, some 20⟩] rows "2026-01") ∧
    (monthlyReportDf isoTime [⟨some 12, some (10 ^ 14)⟩] rows).map
      (fun r => (r.reportMonth, r.estimatedCostYer)) = [(some "2026-01", none)] ∧
    ((januaryOf [analyticsTarget] none (10 ^ 14)).map fun d => d.estimatedCostYer) =
      [some (15 * 10 ^ 12)] := by
  decide +kernel

/-- The refrigerator at noon of two days, at a price of 20. -/
theorem daily_agrees_with_monthly_fridge :
    let rows := [fridgeAt "2026-01-01 12:00:00", fridgeAt "2026-01-02 12:00:00"]
    let daily := (writeToPostgres [analyticsTarget] isoTime [⟨some 12, some 20⟩] none none 0 rows
      ⟨[], []⟩).state.analytics.filter fun d =>
        d.key.InMonth (fun date => substring date 7) "2026-01"
    (daily.map fun d => d.rawKwhSum.getD 0).sum =
        monthKwh isoTime [⟨some 12, some 20⟩] rows "2026-01" ∧
      |(daily.map fun d => d.estimatedCostYer.getD 0).sum -
          (monthCost isoTime [⟨some 12, some 20⟩] rows "2026-01").getD 0| ≤
        0.005 * (daily.length + 1) := by
  have hagree := daily_agrees_with_monthly [analyticsTarget] isoTime (fun date => substring date 7)
    [⟨some 12, some 20⟩] [fridgeAt "2026-01-01 12:00:00", fridgeAt "2026-01-02 12:00:00"]
    "2026-01" 0 none none ⟨[], []⟩ (by decide) rfl rfl rfl ?_ ?_ ?_
  · exact ⟨hagree.2.1, hagree.2.2.1⟩
  · exact fun s _ => ⟨_, rfl, substring_substring s (by omega)⟩
  · simp only [List.mem_cons, List.not_mem_nil, or_false, forall_eq_or_imp, forall_eq]
    exact ⟨⟨_, rfl, by decide +kernel⟩, ⟨_, rfl, by decide +kernel⟩⟩
  · decide

end SmartHomeEnergy
