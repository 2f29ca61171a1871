import Mathlib.Algebra.Field.Rat
import SmartHomeEnergy.Numeric.Rounding
import SmartHomeEnergy.Reading
import SmartHomeEnergy.Relational.Aggregate
import SmartHomeEnergy.Relational.GroupBy
import SmartHomeEnergy.Relational.Logic
import SmartHomeEnergy.Relational.Table

/-!
# The daily warehouse

Part 1 of `spark_dwh_batch.ipynb`. A batch of silver readings is averaged for every device
and hour, the hour is priced, and the priced hours are added up for every day, zone,
device type, occupancy and peak flag. The result is upserted into `dwh_energy_analytics`.

Spark's functions of time are a parameter, `SmartHomeEnergy.SparkTime`: nothing in this
file depends on what they make of a timestamp. Arithmetic is exact, and sums and means
skip nulls.
-/

namespace SmartHomeEnergy

open Numeric Relational

/-! ### Reading the time of a reading -/

/-- The functions of time that are applied to the text of a timestamp. -/
structure SparkTime (D : Type) where
  /-- `hour`. -/
  hour : String → Option ℕ
  /-- `to_timestamp(…, "yyyy-MM-dd")`. -/
  toTimestamp : String → Option D

/-- `substring(…, 1, n)`. -/
def substring (s : String) (n : ℕ) : String := String.ofList (s.toList.take n)

theorem substring_substring (s : String) {m n : ℕ} (h : n ≤ m) :
    substring (substring s m) n = substring s n := by
  simp [substring, List.take_take, Nat.min_eq_left h]

section Columns

variable {D : Type} (time : SparkTime D) (r : Reading String)

/-- `hour_of_day`. -/
def hourOfDay : Option ℕ := r.timestamp.bind time.hour

/-- `date_hour_key`. -/
def dateHourKey : Option String := r.timestamp.map fun s => substring s 13

/-- `report_date`. -/
def reportDate : Option D := r.timestamp.bind fun s => time.toTimestamp (substring s 10)

/-- `is_peak_hours`, of an hour: from six in the evening, and never for a missing one. -/
def isPeakHours (hour : Option ℕ) : Bool :=
  decide ((test (18 ≤ ·) hour).and (test (· ≤ 23) hour)).Holds

end Columns

/-! ### Device-hours -/

/-- What the readings of a device in an hour share. -/
structure HourKey (D : Type) where
  reportDate : Option D
  dateHourKey : Option String
  hourOfDay : Option ℕ
  isPeakHours : Bool
  deviceId : Option String
  deriving DecidableEq

/-- The device-hour of a reading. -/
def hourKey {D : Type} (time : SparkTime D) (r : Reading String) : HourKey D where
  reportDate := reportDate time r
  dateHourKey := dateHourKey r
  hourOfDay := hourOfDay time r
  isPeakHours := isPeakHours (hourOfDay time r)
  deviceId := r.deviceId

/-- A row of `hourly_core`. -/
structure HourRow (D : Type) where
  key : HourKey D
  avgWatts : Option ℚ
  zone : Option String
  deviceType : Option String
  isRoomOccupied : Option Bool
  status : Option String
  deriving DecidableEq

/-- The row of a device-hour: the mean of its powers, and the rest from its first
reading. -/
def hourRow {D : Type} (k : HourKey D) (rows : List (Reading String)) : HourRow D where
  key := k
  avgWatts := nullAvg (rows.map (·.powerConsumptionWatts))
  zone := first (rows.map (·.zone))
  deviceType := first (rows.map (·.deviceType))
  isRoomOccupied := first (rows.map (·.isRoomOccupied))
  status := first (rows.map (·.status))

/-! ### Pricing an hour -/

/-- A row of `electricity_prices`. -/
structure PriceRow where
  hour : Option ℕ
  pricePerKwh : Option ℚ
  deriving DecidableEq

/-- The condition of the join with the prices. -/
def SameHour (hour : Option ℕ) (p : PriceRow) : Prop := ∃ h, hour = some h ∧ p.hour = some h

instance (hour : Option ℕ) (p : PriceRow) : Decidable (SameHour hour p) :=
  decidable_of_iff (hour ≠ none ∧ p.hour = hour) (by
    unfold SameHour
    cases hour <;> simp)

/-- `real_kwh`. -/
def realKwh (avgWatts : Option ℚ) : Option ℚ := avgWatts.map (· / 1000)

theorem realKwh_some (w : ℚ) : realKwh (some w) = some (w / 1000) := rfl

/-- `real_cost`; without a price there is none. -/
def realCost (avgWatts : Option ℚ) (price : Option PriceRow) : Option ℚ :=
  (realKwh avgWatts).bind fun kwh => (price.bind (·.pricePerKwh)).map (kwh * ·)

theorem realCost_ne_none {w : ℚ} {price : Option PriceRow} :
    realCost (some w) price ≠ none ↔ ∃ q, price = some q ∧ q.pricePerKwh ≠ none := by
  cases price <;> simp [realCost, realKwh]

/-- `wasted_kwh`: what is used in a room that is known to be empty. -/
def wastedKwh {D : Type} (r : HourRow D) : Option ℚ :=
  if ((test (· = false) r.isRoomOccupied).and (test (0 < ·) r.avgWatts)).Holds then
    realKwh r.avgWatts
  else some 0

/-- `is_sensor_fault` and `is_lost_signal`: one for the status, and zero for any other. -/
def hasStatus {D : Type} (status : String) (r : HourRow D) : ℕ :=
  if (test (· = status) r.status).Holds then 1 else 0

theorem hasStatus_eq_zero {D : Type} {status : String} {r : HourRow D} :
    hasStatus status r = 0 ↔ r.status ≠ some status := by
  simp [hasStatus]

/-! ### Days -/

/-- What the rows of a day are grouped by. -/
structure DayKey (D : Type) where
  reportDate : Option D
  zone : Option String
  deviceType : Option String
  isRoomOccupied : Option Bool
  isPeakHours : Bool
  deriving DecidableEq

/-- The day of a device-hour. -/
def HourRow.dayKey {D : Type} (r : HourRow D) : DayKey D where
  reportDate := r.key.reportDate
  zone := r.zone
  deviceType := r.deviceType
  isRoomOccupied := r.isRoomOccupied
  isPeakHours := r.key.isPeakHours

/-- A row of `final_analytics_df`, and of `dwh_energy_analytics`. -/
structure DayRow (D : Type) where
  key : DayKey D
  rawKwhSum : Option ℚ
  totalPowerKwh : Option ℚ
  estimatedCostYer : Option ℚ
  wastedEnergyKwh : Option ℚ
  sensorFaultCount : ℕ
  lostSignalCount : ℕ
  deriving DecidableEq

/-- `round(…, 2)`. -/
def round2 (x : Option ℚ) : Option ℚ := x.map (roundTo halfUp 2)

/-- The row of a day, from its priced device-hours. -/
def dayRow {D : Type} (k : DayKey D) (rows : List (HourRow D × Option PriceRow)) : DayRow D where
  key := k
  rawKwhSum := nullSum (rows.map fun p => realKwh p.1.avgWatts)
  totalPowerKwh := nullSum (rows.map fun p => realKwh p.1.avgWatts)
  estimatedCostYer := round2 (nullSum (rows.map fun p => realCost p.1.avgWatts p.2))
  wastedEnergyKwh := round2 (nullSum (rows.map fun p => wastedKwh p.1))
  sensorFaultCount := (rows.map fun p => hasStatus "SENSOR_FAULT" p.1).sum
  lostSignalCount := (rows.map fun p => hasStatus "LOST_SIGNAL" p.1).sum

section Aggregation

variable {D : Type} [DecidableEq D] (time : SparkTime D) (prices : List PriceRow)

/-- `hourly_core`. -/
def hourlyCore (batch : List (Reading String)) : List (HourRow D) :=
  groupBy (hourKey time) hourRow batch

/-- `joined_batch`: every device-hour, with each of its prices. -/
def joinedBatch (batch : List (Reading String)) : List (HourRow D × Option PriceRow) :=
  leftJoin (fun r p => SameHour r.key.hourOfDay p) (hourlyCore time batch) prices

/-- `final_analytics_df`. -/
def finalAnalyticsDf (batch : List (Reading String)) : List (DayRow D) :=
  groupBy (fun p => p.1.dayKey) dayRow (joinedBatch time prices batch)

@[simp] theorem finalAnalyticsDf_nil : finalAnalyticsDf time prices [] = [] := rfl

/-- The row of a device-hour of a batch. -/
def hourOf (batch : List (Reading String)) (h : HourKey D) : HourRow D :=
  hourRow h (groupRows (hourKey time) batch h)

/-- **What is joined**: every device-hour that occurs, with what its hour matches. -/
theorem mem_joinedBatch {batch : List (Reading String)} {p : HourRow D × Option PriceRow} :
    p ∈ joinedBatch time prices batch ↔
      (∃ h ∈ groupKeys (hourKey time) batch, p.1 = hourOf time batch h) ∧
        p.2 ∈ joinMatches (fun (r : HourRow D) q => SameHour r.key.hourOfDay q) prices p.1 := by
  rw [joinedBatch, mem_leftJoin, hourlyCore, mem_groupBy]
  simp only [hourOf, eq_comm]

end Aggregation

/-! ### `dwh_energy_analytics` -/

/-- The five columns of the `ON CONFLICT` clause, when none of them is null. -/
def conflictKey {D : Type} (r : DayRow D) : Option (D × String × String × Bool × Bool) :=
  match r.key.reportDate, r.key.zone, r.key.deviceType, r.key.isRoomOccupied with
  | some d, some z, some t, some o => some (d, z, t, o, r.key.isPeakHours)
  | _, _, _, _ => none

/-- The group whose row is stored under a key. -/
def storedKey {D : Type} (k : D × String × String × Bool × Bool) : DayKey D :=
  ⟨some k.1, some k.2.1, some k.2.2.1, some k.2.2.2.1, k.2.2.2.2⟩

theorem conflictKey_eq_some {D : Type} {r : DayRow D} {k : D × String × String × Bool × Bool} :
    conflictKey r = some k ↔ r.key = storedKey k := by
  obtain ⟨d, z, t, o, p⟩ := k
  obtain ⟨⟨d', z', t', o', p'⟩, -⟩ := r
  cases d' <;> cases z' <;> cases t' <;> cases o' <;> simp [conflictKey, storedKey]

/-- `DO UPDATE SET`: all figures are taken from the new row. -/
def dayUpsert {D : Type} : ConflictUpdate (conflictKey (D := D)) where
  merge old new := { new with key := old.key }
  key_merge _ _ := rfl

theorem dayUpsert_overwrites {D : Type} : (dayUpsert (D := D)).Overwrites := by
  intro old new k hold hnew
  have he : old.key = new.key :=
    (conflictKey_eq_some.mp hold).trans (conflictKey_eq_some.mp hnew).symm
  simp [dayUpsert, he]

/-- `dwh_energy_analytics`, with the constraint that the `ON CONFLICT` clause names. -/
abbrev Analytics (D : Type) [DecidableEq D] := Table (conflictKey (D := D))

section Batches

variable {D : Type} [DecidableEq D] {time : SparkTime D} {prices : List PriceRow}
  {b b₁ b₂ : List (Reading String)}

/-! ### Batches that share no device-hour -/

/-- No two rows of a batch are stored under the same key. -/
theorem nodup_conflictKey (time : SparkTime D) (prices : List PriceRow)
    (b : List (Reading String)) :
    ((finalAnalyticsDf time prices b).filterMap conflictKey).Nodup := by
  have hn : ((finalAnalyticsDf time prices b).map fun r => r.key).Nodup :=
    nodup_map_groupBy fun _ _ => rfl
  exact nodup_filterMap_key hn fun x y k hx hy =>
    (conflictKey_eq_some.mp hx).trans (conflictKey_eq_some.mp hy).symm

/-- **Batches that share no device-hour** are averaged and priced independently. -/
theorem joinedBatch_append (h : KeyDisjoint (hourKey time) b₁ b₂) :
    joinedBatch time prices (b₁ ++ b₂) =
      joinedBatch time prices b₁ ++ joinedBatch time prices b₂ := by
  rw [joinedBatch, hourlyCore, groupBy_append h, leftJoin_append]
  rfl

end Batches

/-! ### A reading at noon -/

/-- The functions of time on well-formed timestamps, a date being its text. -/
def isoTime : SparkTime String where
  hour s :=
    some (((s.toList.drop 11).take 2).foldl (fun n c => 10 * n + (c.toNat - '0'.toNat)) 0)
  toTimestamp s := some s

/-- A reading of the refrigerator. -/
def fridgeAt (timestamp : String) : Reading String where
  timestamp := some timestamp
  houseType := some "Smart_Luxury_Villa"
  currency := some "YER"
  zone := some "Kitchen"
  deviceId := some "KT_Fridge"
  deviceType := some "Critical_Appliance"
  isRoomOccupied := some true
  powerConsumptionWatts := some 150
  status := some "ON"

example : (finalAnalyticsDf isoTime [⟨some 12, some 20⟩] [fridgeAt "2026-01-01 12:00:00"]).map
    (fun r => (r.totalPowerKwh, r.estimatedCostYer)) = [(some 0.15, some 3)] := by
  decide +kernel

end SmartHomeEnergy
