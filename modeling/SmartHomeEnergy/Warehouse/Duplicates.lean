import SmartHomeEnergy.Warehouse.DeviceHours
import SmartHomeEnergy.Warehouse.Monthly
import SmartHomeEnergy.Warehouse.Split

/-!
# A reading delivered twice

The simulator sends some of its payloads twice, and the silver filter keeps both copies.
The warehouse averages every device-hour before it adds anything up, “to prevent inflation
by repeated data”. A mean is not inflated by a copy, but it is moved by one: towards the
power of the reading that was copied.

So the bill is the same with the copy exactly when that power is the mean of its device-hour
already (`SmartHomeEnergy.sameBill_iff_balanced`).
-/

namespace SmartHomeEnergy

open Numeric Relational

section Definitions

variable {D : Type} [DecidableEq D] (time : SparkTime D) (prices : List PriceRow)

/-- What is billed for a day. -/
def billed (r : DayRow D) : DayKey D × Option ℚ × Option ℚ × Option ℚ :=
  (r.key, r.rawKwhSum, r.totalPowerKwh, r.estimatedCostYer)

/-- **The same bill**: the same days with the same use and cost, and the same months. -/
def SameBill (b b' : List (Reading String)) : Prop :=
  ((finalAnalyticsDf time prices b').map billed).Perm
      ((finalAnalyticsDf time prices b).map billed) ∧
    (monthlyReportDf time prices b').Perm (monthlyReportDf time prices b)

/-- The power of a reading, if it has one, is the mean of its device-hour. -/
def Balanced (b : List (Reading String)) (r : Reading String) : Prop :=
  ∀ p, r.powerConsumptionWatts = some p →
    (hourPowers time b (hourKey time r)).reduceOption.sum =
      (hourPowers time b (hourKey time r)).reduceOption.length * p

end Definitions

variable {D : Type} [DecidableEq D] {time : SparkTime D} {prices : List PriceRow}
  {pre mid post : List (Reading String)} {r : Reading String} {h : HourKey D}

/-! ### A copy in a device-hour -/

/-- The other device-hours do not see the copy. -/
theorem groupRows_copy_of_ne (hne : hourKey time r ≠ h) :
    groupRows (hourKey time) (pre ++ r :: (mid ++ r :: post)) h =
      groupRows (hourKey time) (pre ++ r :: (mid ++ post)) h := by
  simp [groupRows, hne]

/-- A copy is not the first reading of its device-hour. -/
theorem firstReading_copy :
    firstReading time (pre ++ r :: (mid ++ r :: post)) h =
      firstReading time (pre ++ r :: (mid ++ post)) h := by
  by_cases hr : hourKey time r = h
  · have hcons : ∀ l : List (Reading String),
        groupRows (hourKey time) (r :: l) h = r :: groupRows (hourKey time) l h := fun l =>
      List.filter_cons_of_pos (by simpa using hr)
    rw [firstReading, firstReading, groupRows_append, groupRows_append, hcons, hcons,
      List.head?_append, List.head?_append, List.head?_cons, List.head?_cons]
  · rw [firstReading, firstReading, groupRows_copy_of_ne hr]

theorem groupKeys_copy :
    h ∈ groupKeys (hourKey time) (pre ++ r :: (mid ++ r :: post)) ↔
      h ∈ groupKeys (hourKey time) (pre ++ r :: (mid ++ post)) := by
  simp only [mem_groupKeys, List.mem_append, List.mem_cons]
  exact exists_congr fun a => and_congr_left fun _ => by tauto

theorem hourPowers_copy :
    (hourPowers time (pre ++ r :: (mid ++ r :: post)) (hourKey time r)).Perm
      (r.powerConsumptionWatts ::
        hourPowers time (pre ++ r :: (mid ++ post)) (hourKey time r)) := by
  have hperm : (pre ++ r :: (mid ++ r :: post)).Perm (r :: (pre ++ r :: (mid ++ post))) := by
    have hmid : (mid ++ r :: post).Perm (r :: (mid ++ post)) := List.perm_middle
    exact ((hmid.cons r).append_left pre).trans List.perm_middle
  have hgroup := (hperm.filter fun a => hourKey time a = hourKey time r).map
    (·.powerConsumptionWatts)
  rwa [List.filter_cons_of_pos (by simp), List.map_cons] at hgroup

theorem mem_hourPowers : r.powerConsumptionWatts ∈
    hourPowers time (pre ++ r :: (mid ++ post)) (hourKey time r) :=
  List.mem_map.mpr ⟨r, mem_groupRows.mpr ⟨by simp, rfl⟩, rfl⟩

/-- **The copy keeps the mean** of its device-hour exactly when its power is that mean. -/
theorem nullAvg_copy_iff :
    nullAvg (hourPowers time (pre ++ r :: (mid ++ r :: post)) (hourKey time r)) =
        nullAvg (hourPowers time (pre ++ r :: (mid ++ post)) (hourKey time r)) ↔
      Balanced time (pre ++ r :: (mid ++ post)) r := by
  rw [nullAvg_perm hourPowers_copy, nullAvg_cons_iff mem_hourPowers]
  rfl

/-- The row of a device-hour differs by its mean alone. -/
theorem hourOf_copy (hh : h ∈ groupKeys (hourKey time) (pre ++ r :: (mid ++ post))) :
    hourOf time (pre ++ r :: (mid ++ r :: post)) h =
      { hourOf time (pre ++ r :: (mid ++ post)) h with
        avgWatts := nullAvg (hourPowers time (pre ++ r :: (mid ++ r :: post)) h) } := by
  obtain ⟨f, hf⟩ := exists_firstReading hh
  rw [hourOf_eq hf, hourOf_eq (firstReading_copy.trans hf)]

/-! ### From the device-hours to the bill -/

theorem monthlyReportDf_perm {b b' : List (Reading String)}
    (h : (joinedBatch time prices b).Perm (joinedBatch time prices b')) :
    (monthlyReportDf time prices b).Perm (monthlyReportDf time prices b') := by
  have henriched : (enrichedDf time prices b).Perm (enrichedDf time prices b') := by
    rw [enrichedDf_eq, enrichedDf_eq]
    exact h.map _
  have hrow : ∀ (month : Option String) {xs ys : List (MonthHourRow × Option PriceRow)},
      xs.Perm ys → monthRow month xs = monthRow month ys := by
    intro month xs ys hperm
    rw [monthRow, monthRow, nullSum_perm (hperm.map _),
      nullSum_perm (hperm.map fun p => realCost p.1.avgWattsPerHour p.2)]
  have hgroups : (groupBy (fun p => p.1.key.reportMonth) monthRow (enrichedDf time prices b)).Perm
      (groupBy (fun p => p.1.key.reportMonth) monthRow (enrichedDf time prices b')) :=
    (groupBy_perm_iff (fun m => m.reportMonth) fun _ _ => rfl).mpr
      ⟨mem_groupKeys_of_perm henriched, fun month _ => hrow month (henriched.filter _)⟩
  exact (List.mergeSort_perm _ _).trans (hgroups.trans (List.mergeSort_perm _ _).symm)

/-- **The same means make the same bill.** -/
theorem sameBill_of_balanced (hbal : Balanced time (pre ++ r :: (mid ++ post)) r) :
    SameBill time prices (pre ++ r :: (mid ++ post)) (pre ++ r :: (mid ++ r :: post)) := by
  have hours : ∀ h ∈ groupKeys (hourKey time) (pre ++ r :: (mid ++ post)),
      hourOf time (pre ++ r :: (mid ++ r :: post)) h =
        hourOf time (pre ++ r :: (mid ++ post)) h := by
    intro h hh
    by_cases hr : hourKey time r = h
    · subst hr
      rw [hourOf_copy hh, nullAvg_copy_iff.mpr hbal]
      rfl
    · rw [hourOf, hourOf, groupRows_copy_of_ne hr]
  have hjoined : (joinedBatch time prices (pre ++ r :: (mid ++ r :: post))).Perm
      (joinedBatch time prices (pre ++ r :: (mid ++ post))) := by
    rw [joinedBatch_eq, joinedBatch_eq]
    refine ((pricedHours_perm prices fun h => groupKeys_copy).map _).trans (List.Perm.of_eq ?_)
    exact List.map_congr_left fun p hp => by rw [hours p.1 (mem_pricedHours.mp hp).1]
  exact ⟨(finalAnalyticsDf_perm hjoined).map _, monthlyReportDf_perm hjoined⟩

/-- The use of a device-hour, null read as zero. -/
def hourKwh (time : SparkTime D) (b : List (Reading String)) (h : HourKey D) : ℚ :=
  (realKwh (nullAvg (hourPowers time b h))).getD 0

/-- The use of a day is the sum over its priced device-hours. -/
theorem getD_rawKwhSum (b : List (Reading String)) (K : DayKey D) :
    ((dayRow K (groupRows (fun p => p.1.dayKey) (joinedBatch time prices b) K)).rawKwhSum).getD 0 =
      (((pricedHours time prices b).filter fun p => (hourOf time b p.1).dayKey = K).map
        fun p => hourKwh time b p.1).sum := by
  rw [dayRow, getD_nullSum, joinedBatch_eq, groupRows, List.filter_map, List.map_map, List.map_map]
  rfl

/-- A sum to which some of the terms add the same. -/
theorem sum_map_add_ite {α : Type*} {f g : α → ℚ} {q : α → Prop} [DecidablePred q] {δ : ℚ}
    (hfg : ∀ a, f a = g a + if q a then δ else 0) (l : List α) :
    (l.map f).sum = (l.map g).sum + l.countP q * δ := by
  induction l with
  | nil => simp
  | cons a l ih =>
    rw [List.map_cons, List.sum_cons, ih, hfg, List.map_cons, List.sum_cons, List.countP_cons]
    by_cases ha : q a
    · simp only [ha, if_true, decide_true, Nat.cast_add, Nat.cast_one]
      ring
    · simp [ha, add_assoc]

/-- The use of a day with the copy: every device-hour but that of the copy is used as
before. -/
theorem getD_rawKwhSum_copy (K : DayKey D) :
    ((dayRow K (groupRows (fun p => p.1.dayKey)
        (joinedBatch time prices (pre ++ r :: (mid ++ r :: post))) K)).rawKwhSum).getD 0 =
      ((dayRow K (groupRows (fun p => p.1.dayKey)
          (joinedBatch time prices (pre ++ r :: (mid ++ post))) K)).rawKwhSum).getD 0 +
        (((pricedHours time prices (pre ++ r :: (mid ++ post))).filter fun p =>
            (hourOf time (pre ++ r :: (mid ++ post)) p.1).dayKey = K).countP
          fun p => p.1 = hourKey time r) *
        (hourKwh time (pre ++ r :: (mid ++ r :: post)) (hourKey time r) -
          hourKwh time (pre ++ r :: (mid ++ post)) (hourKey time r)) := by
  have hfilter : ((pricedHours time prices (pre ++ r :: (mid ++ r :: post))).filter fun p =>
      (hourOf time (pre ++ r :: (mid ++ r :: post)) p.1).dayKey = K) =
      (pricedHours time prices (pre ++ r :: (mid ++ r :: post))).filter fun p =>
        (hourOf time (pre ++ r :: (mid ++ post)) p.1).dayKey = K := by
    refine List.filter_congr fun p hp => ?_
    rw [hourOf_copy (groupKeys_copy.mp (mem_pricedHours.mp hp).1)]
    rfl
  have hhours : (pricedHours time prices (pre ++ r :: (mid ++ r :: post))).Perm
      (pricedHours time prices (pre ++ r :: (mid ++ post))) :=
    pricedHours_perm prices fun _ => groupKeys_copy
  have hperm := hhours.filter fun p =>
    (hourOf time (pre ++ r :: (mid ++ post)) p.1).dayKey = K
  rw [getD_rawKwhSum, getD_rawKwhSum, hfilter, (hperm.map _).sum_eq]
  refine sum_map_add_ite (fun p => ?_) _
  by_cases hp : p.1 = hourKey time r
  · rw [if_pos hp, hp, add_sub_cancel]
  · rw [if_neg hp, add_zero, hourKwh, hourKwh, hourPowers, hourPowers,
      groupRows_copy_of_ne (Ne.symm hp)]

/-- The same bill has the same use on every day. -/
theorem getD_rawKwhSum_of_sameBill {b b' : List (Reading String)}
    (hbill : SameBill time prices b b') {K : DayKey D}
    (hK : K ∈ groupKeys (fun p => p.1.dayKey) (joinedBatch time prices b')) :
    ((dayRow K (groupRows (fun p => p.1.dayKey) (joinedBatch time prices b') K)).rawKwhSum).getD 0 =
      ((dayRow K
        (groupRows (fun p => p.1.dayKey) (joinedBatch time prices b) K)).rawKwhSum).getD 0 := by
  have hgroups : ∀ b : List (Reading String), (finalAnalyticsDf time prices b).map billed =
      groupBy (fun p => p.1.dayKey) (fun k ps => billed (dayRow k ps))
        (joinedBatch time prices b) := by
    intro b
    rw [finalAnalyticsDf, groupBy, List.map_map]
    rfl
  have hsame := hbill.1
  rw [hgroups, hgroups] at hsame
  have hday := ((groupBy_perm_iff (fun x => x.1) fun _ _ => rfl).mp hsame).2 K hK
  exact congrArg (fun x => x.2.1.getD 0) hday

/-- The use of the device-hour of a reading with a power tells its mean. -/
theorem nullAvg_copy_of_hourKwh (hpower : r.powerConsumptionWatts ≠ none)
    (h : hourKwh time (pre ++ r :: (mid ++ r :: post)) (hourKey time r) =
      hourKwh time (pre ++ r :: (mid ++ post)) (hourKey time r)) :
    nullAvg (hourPowers time (pre ++ r :: (mid ++ r :: post)) (hourKey time r)) =
      nullAvg (hourPowers time (pre ++ r :: (mid ++ post)) (hourKey time r)) := by
  obtain ⟨p, hp⟩ := Option.ne_none_iff_exists'.mp hpower
  have hmem : some p ∈ hourPowers time (pre ++ r :: (mid ++ post)) (hourKey time r) :=
    hp ▸ mem_hourPowers
  have hmem' : some p ∈ hourPowers time (pre ++ r :: (mid ++ r :: post)) (hourKey time r) :=
    hourPowers_copy.mem_iff.mpr (hp ▸ List.mem_cons_self)
  rw [hourKwh, hourKwh, nullAvg_eq_some_of_mem hmem, nullAvg_eq_some_of_mem hmem', realKwh_some,
    realKwh_some, Option.getD_some, Option.getD_some] at h
  rw [nullAvg_eq_some_of_mem hmem, nullAvg_eq_some_of_mem hmem']
  exact congrArg some ((div_left_inj' (by norm_num)).mp h)

/-- **The same use of the day of a reading**: then the copy keeps the mean. -/
theorem balanced_of_sameBill
    (hbill : SameBill time prices (pre ++ r :: (mid ++ post)) (pre ++ r :: (mid ++ r :: post))) :
    Balanced time (pre ++ r :: (mid ++ post)) r := by
  by_cases hpower : r.powerConsumptionWatts = none
  · simp [Balanced, hpower]
  · have hh : hourKey time r ∈ groupKeys (hourKey time) (pre ++ r :: (mid ++ post)) :=
      mem_groupKeys.mpr ⟨r, by simp, rfl⟩
    obtain ⟨q, hq⟩ := exists_pricedHour prices hh
    -- the day of the reading is billed the same use
    let K := (hourOf time (pre ++ r :: (mid ++ post)) (hourKey time r)).dayKey
    have hK : K ∈ groupKeys (fun p => p.1.dayKey)
        (joinedBatch time prices (pre ++ r :: (mid ++ r :: post))) :=
      mem_dayKeys.mpr ⟨_, groupKeys_copy.mpr hh, by rw [hourOf_copy hh]; rfl⟩
    have huse := getD_rawKwhSum_of_sameBill hbill hK
    rw [getD_rawKwhSum_copy, add_eq_left, mul_eq_zero, sub_eq_zero] at huse
    -- and its device-hour is one of that day, so it uses the same
    have hcount : 0 < ((pricedHours time prices (pre ++ r :: (mid ++ post))).filter fun p =>
        (hourOf time (pre ++ r :: (mid ++ post)) p.1).dayKey = K).countP
          fun p => p.1 = hourKey time r :=
      List.countP_pos_iff.mpr ⟨_, List.mem_filter.mpr ⟨hq, by simp [K]⟩, by simp⟩
    have hkwh := huse.resolve_left (Nat.cast_ne_zero.mpr hcount.ne')
    exact nullAvg_copy_iff.mp (nullAvg_copy_of_hourKwh hpower hkwh)

/-- **Exactly when a copy of a reading does not change the bill**: when the reading has no
power, or the mean power of its device-hour. -/
theorem sameBill_iff_balanced (time : SparkTime D) (prices : List PriceRow)
    (pre mid post : List (Reading String)) (r : Reading String) :
    SameBill time prices (pre ++ r :: (mid ++ post)) (pre ++ r :: (mid ++ r :: post)) ↔
      Balanced time (pre ++ r :: (mid ++ post)) r :=
  ⟨balanced_of_sameBill, sameBill_of_balanced⟩

/-- A reading of the refrigerator. -/
def fridgeUsing (timestamp : String) (watts : ℚ) : Reading String :=
  { fridgeAt timestamp with powerConsumptionWatts := some watts }

/-- The refrigerator at 100 and at 200 watts within an hour, and the first reading twice: the
hour is billed as 400/3 watts, and no longer as 150. -/
theorem not_sameBill :
    let r := fridgeUsing "2026-01-01 12:00:00" 100
    let s := fridgeUsing "2026-01-01 12:00:05" 200
    Silver [r, s] ∧ ¬SameBill isoTime noonPrice [r, s] [r, r, s] := by
  refine ⟨by decide +kernel, fun h => ?_⟩
  exact absurd h.1 (by decide +kernel)

end SmartHomeEnergy
