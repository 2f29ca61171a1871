import SmartHomeEnergy.Cleaning.Filters
import SmartHomeEnergy.Warehouse.DeviceHours

/-!
# Faults, from the simulator to the warehouse

The warehouse counts the sensor faults and the lost signals of every day. A payload has three
stages to pass before it is counted, and each may leave it out:

* the silver filter refuses what has no power, so it refuses every lost signal, and the
  sensor faults it can tell;
* a device-hour keeps the status of its first reading, so a fault that comes later is hidden
  (`SmartHomeEnergy.hiddenReadings`);
* the join repeats a device-hour for every price of its hour, and its fault with it.

The counts are right exactly when no signal is lost and, day by day and type by type, as many
sensor faults are hidden as are repeated (`SmartHomeEnergy.faultsConserved_iff`); with one
price for every hour, when none is hidden.
-/

namespace SmartHomeEnergy

open Relational

/-! ### The payloads, stored and cleaned -/

/-- What the loop body of the simulator builds one payload from. -/
structure Emission where
  now : String
  hour : ℕ
  eco : Bool
  device : Device
  draws : Draws

/-- The payload. -/
def Emission.sent (e : Emission) : Payload := payload e.now e.hour e.eco e.device e.draws

/-- The bronze layer keeps every payload. -/
def bronzeRows (es : List Emission) : List (Reading String) := es.map fun e => e.sent.toReading

/-- The rows of the silver layer. -/
def silverRows (rows : List (Reading String)) : List (Reading String) :=
  rows.filter fun r => (silverCleanedDf r).Holds

section Definitions

variable {D : Type} [DecidableEq D] (time : SparkTime D) (prices : List PriceRow)

/-- A reading of a day and a device type with a status. -/
def Shows (status : String) (day : Option D) (type : Option String) (r : Reading String) : Prop :=
  r.status = some status ∧ reportDate time r = day ∧ r.deviceType = type

instance (status : String) (day : Option D) (type : Option String) :
    DecidablePred (Shows time status day type) :=
  fun r => inferInstanceAs (Decidable (r.status = some status ∧ _ ∧ _))

/-- The readings of a day and a device type with a status, counted. -/
def reported (status : String) (day : Option D) (type : Option String)
    (rows : List (Reading String)) : ℕ := rows.countP fun r => Shows time status day type r

/-- A count of the warehouse, summed up for a day and a device type. -/
def warehoused (count : DayRow D → ℕ) (day : Option D) (type : Option String)
    (rows : List (Reading String)) : ℕ :=
  (((finalAnalyticsDf time prices rows).filter fun r =>
    r.key.reportDate = day ∧ r.key.deviceType = type).map count).sum

/-- **Faults are conserved**: the warehouse counts as many of them as were sent. -/
def FaultsConserved (es : List Emission) : Prop :=
  ∀ day type,
    warehoused time prices (·.sensorFaultCount) day type (silverRows (bronzeRows es)) =
        reported time "SENSOR_FAULT" day type (bronzeRows es) ∧
      warehoused time prices (·.lostSignalCount) day type (silverRows (bronzeRows es)) =
        reported time "LOST_SIGNAL" day type (bronzeRows es)

/-- The first silver reading of every device-hour. -/
def firstReadings (rows : List (Reading String)) : List (Reading String) :=
  (groupKeys (hourKey time) (silverRows rows)).filterMap (firstReading time (silverRows rows))

/-- The readings of the bronze layer that are not the first silver ones of their
device-hour. -/
def hiddenReadings (rows : List (Reading String)) : List (Reading String) :=
  rows.diff (firstReadings time rows)

/-- The prices of an hour beyond the first one. -/
def furtherPrices (r : Reading String) : ℕ :=
  prices.countP (fun p => SameHour (hourOfDay time r) p) - 1

/-- How often the join repeats a sensor fault of a day and a device type. -/
def repeated (day : Option D) (type : Option String) (rows : List (Reading String)) : ℕ :=
  (((firstReadings time rows).filter fun r => Shows time "SENSOR_FAULT" day type r).map
    (furtherPrices time prices)).sum

/-- No signal is lost, and the sensor faults that are hidden make up for the repeated ones. -/
def FaultsSeen (es : List Emission) : Prop :=
  (∀ e ∈ es, e.sent.status ≠ .lostSignal) ∧
    ∀ day type, reported time "SENSOR_FAULT" day type (hiddenReadings time (bronzeRows es)) =
      repeated time prices day type (bronzeRows es)

end Definitions

/-! ### A lost signal has no power -/

theorem decidePower_state (d : Device) (hour : ℕ) (eco : Bool) (r : Draws) :
    (decidePower d hour eco r).1 ∈ [Status.on, Status.off] := by
  have hon : ∀ w : ℚ, (Status.on, w).1 ∈ [Status.on, Status.off] := fun _ => List.mem_cons_self
  have hoff : ∀ w : ℚ, (Status.off, w).1 ∈ [Status.on, Status.off] := fun _ =>
    List.mem_cons_of_mem _ List.mem_cons_self
  have hite : ∀ {c : Prop} [Decidable c] {x y : Status × ℚ}, x.1 ∈ [Status.on, Status.off] →
      y.1 ∈ [Status.on, Status.off] → (if c then x else y).1 ∈ [Status.on, Status.off] := by
    intro c _ x y hx hy
    split
    · exact hx
    · exact hy
  unfold decidePower decideAuto
  dsimp only
  repeat' apply hite
  all_goals first
    | exact hon _
    | exact hoff _

/-- The status of a lost signal comes without a power, and only then. -/
theorem sent_lost (e : Emission) (h : e.sent.status = .lostSignal) :
    e.sent.powerConsumptionWatts = none := by
  rw [Emission.sent, payload] at h ⊢
  dsimp only at h ⊢
  have hstate := decidePower_state e.device e.hour e.eco e.draws
  generalize decidePower e.device e.hour e.eco e.draws = x at h hstate ⊢
  obtain ⟨state, power⟩ := x
  obtain rfl | rfl : state = .on ∨ state = .off := by simpa using hstate
  · simp only [injectFault] at h ⊢
    split at h <;> simp_all
    split at h <;> simp_all
  · simp [injectFault] at h

/-- **The silver filter refuses every lost signal.** -/
theorem not_lost_of_silver {es : List Emission} {r : Reading String}
    (hr : r ∈ silverRows (bronzeRows es)) : r.status ≠ some "LOST_SIGNAL" := by
  obtain ⟨hmem, hkeeps⟩ := List.mem_filter.mp hr
  obtain ⟨e, -, rfl⟩ := List.mem_map.mp hmem
  obtain ⟨w, hw, -⟩ := holds_silverCleanedDf.mp (of_decide_eq_true hkeeps)
  intro hstatus
  have hlost : e.sent.status = .lostSignal := by
    cases hs : e.sent.status <;> simp [Payload.toReading, hs, Status.text] at hstatus ⊢
  have hnone := sent_lost e hlost
  simp [Payload.toReading, hnone] at hw

/-! ### What the warehouse counts -/

section Counts

variable {D : Type} [DecidableEq D] {time : SparkTime D} {prices : List PriceRow}
  {rows : List (Reading String)} {status : String} {day : Option D} {type : Option String}

omit [DecidableEq D] in
/-- A sum of zeros and ones is a count. -/
theorem sum_filter_eq_countP {α : Type*} {p q : α → Prop} [DecidablePred p] [DecidablePred q]
    {f : α → ℕ} : ∀ {l : List α}, (∀ a ∈ l, (if p a then f a else 0) = if q a then 1 else 0) →
      ((l.filter fun a => p a).map f).sum = l.countP fun a => q a
  | [], _ => rfl
  | a :: l, h => by
    have ih := sum_filter_eq_countP fun b hb => h b (List.mem_cons_of_mem _ hb)
    have ha := h a List.mem_cons_self
    rw [List.countP_cons, ← ih, List.filter_cons]
    by_cases hp : p a
    · rw [if_pos hp] at ha
      simp only [hp, decide_true, if_true, List.map_cons, List.sum_cons, ha, decide_eq_true_eq]
      exact add_comm _ _
    · rw [if_neg hp] at ha
      simp only [hp, decide_false, Bool.false_eq_true, if_false, decide_eq_true_eq, ← ha, add_zero]

/-- A device-hour counts when its first reading shows the status. -/
theorem hasStatus_hourOf (status : String) (day : Option D) (type : Option String)
    {b : List (Reading String)} {h : HourKey D} {r : Reading String}
    (hr : firstReading time b h = some r) :
    (if (hourOf time b h).dayKey.reportDate = day ∧ (hourOf time b h).dayKey.deviceType = type
      then hasStatus status (hourOf time b h) else 0) =
      if Shows time status day type r then 1 else 0 := by
  rw [dayKey_hourOf hr, hourOf_eq hr]
  by_cases hs : r.status = some status
  · simp [hasStatus, Shows, readingDay, hs]
  · simp [hasStatus, Shows, hs]

/-- **What is counted**: a device-hour whose first reading shows the status, once for every
row it is joined to. -/
theorem warehoused_eq {count : DayRow D → ℕ}
    (hcount : ∀ K ps, count (dayRow K ps) = (ps.map fun p => hasStatus status p.1).sum)
    {b : List (Reading String)} {pick : HourKey D → Reading String}
    (hpick : ∀ h ∈ groupKeys (hourKey time) b, firstReading time b h = some (pick h)) :
    warehoused time prices count day type b =
      (pricedHours time prices b).countP fun p => Shows time status day type (pick p.1) := by
  have hdays : ((finalAnalyticsDf time prices b).filter fun r =>
      r.key.reportDate = day ∧ r.key.deviceType = type) =
      groupBy (fun p => p.1.dayKey) dayRow ((joinedBatch time prices b).filter fun p =>
        p.1.dayKey.reportDate = day ∧ p.1.dayKey.deviceType = type) :=
    filter_groupBy (fun _ _ => rfl) (fun K : DayKey D => K.reportDate = day ∧ K.deviceType = type) _
  rw [warehoused, hdays, sum_map_groupBy hcount, joinedBatch_eq, List.filter_map, List.map_map]
  refine sum_filter_eq_countP fun p hp => ?_
  have hfirst := hpick p.1 (mem_pricedHours.mp hp).1
  simpa using hasStatus_hourOf status day type hfirst

/-- The first reading of every device-hour, as a function. -/
theorem exists_firsts (time : SparkTime D) (b : List (Reading String)) :
    ∃ pick : HourKey D → Reading String,
      ∀ h ∈ groupKeys (hourKey time) b, firstReading time b h = some (pick h) := by
  have hex : ∀ h, ∃ r, h ∈ groupKeys (hourKey time) b → firstReading time b h = some r := by
    intro h
    by_cases hh : h ∈ groupKeys (hourKey time) b
    · obtain ⟨r, hr⟩ := exists_firstReading hh
      exact ⟨r, fun _ => hr⟩
    · exact ⟨⟨none, none, none, none, none, none, none, none, none⟩, fun hc => absurd hc hh⟩
  choose pick hpick using hex
  exact ⟨pick, hpick⟩

/-- **The sensor faults the warehouse counts** are those of the first readings, and the
repeated ones. -/
theorem warehoused_sensorFault :
    warehoused time prices (·.sensorFaultCount) day type (silverRows rows) =
      reported time "SENSOR_FAULT" day type (firstReadings time rows) +
        repeated time prices day type rows := by
  obtain ⟨pick, hpick⟩ := exists_firsts time (silverRows rows)
  have hfirsts : firstReadings time rows = (groupKeys (hourKey time) (silverRows rows)).map pick :=
    List.filterMap_eq_map_iff_forall_eq_some.mpr hpick
  rw [warehoused_eq (fun _ _ => rfl) hpick, pricedHours,
    countP_leftJoin _ _ fun h => Shows time "SENSOR_FAULT" day type (pick h), reported, repeated,
    hfirsts, List.countP_map, List.filter_map, List.map_map, List.countP_eq_length_filter]
  -- every device-hour is joined to one row, and to one more for every further price
  have hlength : ∀ h ∈ groupKeys (hourKey time) (silverRows rows),
      (joinMatches (fun (h : HourKey D) p => SameHour h.hourOfDay p) prices h).length =
        1 + furtherPrices time prices (pick h) := by
    intro h hh
    obtain ⟨-, hkey⟩ := mem_of_firstReading (hpick h hh)
    have hhour : h.hourOfDay = hourOfDay time (pick h) := congrArg HourKey.hourOfDay hkey.symm
    rw [length_joinMatches, add_comm, furtherPrices, hhour]
  rw [List.map_congr_left fun h hh => hlength h (List.mem_filter.mp hh).1, List.sum_map_add,
    List.map_const', List.sum_replicate, smul_eq_mul, mul_one]
  rfl

/-- **No lost signal is counted.** -/
theorem warehoused_lostSignal (es : List Emission) :
    warehoused time prices (·.lostSignalCount) day type (silverRows (bronzeRows es)) = 0 := by
  obtain ⟨pick, hpick⟩ := exists_firsts time (silverRows (bronzeRows es))
  rw [warehoused_eq (fun _ _ => rfl) hpick, List.countP_eq_zero]
  intro p hp
  rw [decide_eq_true_eq]
  rintro ⟨hstatus, -⟩
  obtain ⟨hmem, -⟩ := mem_of_firstReading (hpick p.1 (mem_pricedHours.mp hp).1)
  exact not_lost_of_silver hmem hstatus

/-! ### First and hidden readings -/

theorem nodup_firstReadings : (firstReadings time rows).Nodup := by
  obtain ⟨pick, hpick⟩ := exists_firsts time (silverRows rows)
  have hfirsts : firstReadings time rows = (groupKeys (hourKey time) (silverRows rows)).map pick :=
    List.filterMap_eq_map_iff_forall_eq_some.mpr hpick
  rw [hfirsts]
  refine (nodup_groupKeys _ _).map_on fun h hh h' hh' he => ?_
  rw [← (mem_of_firstReading (hpick h hh)).2, he, (mem_of_firstReading (hpick h' hh')).2]

theorem firstReadings_subset : firstReadings time rows ⊆ rows := by
  intro r hr
  obtain ⟨h, -, hfirst⟩ := List.mem_filterMap.mp hr
  exact (List.mem_filter.mp (mem_of_firstReading hfirst).1).1

/-- The readings are the first ones and the hidden ones. -/
theorem firstReadings_append_hidden (time : SparkTime D) (rows : List (Reading String)) :
    (firstReadings time rows ++ hiddenReadings time rows).Perm rows := by
  have hsub : (firstReadings time rows).Subperm rows :=
    List.subperm_of_subset nodup_firstReadings firstReadings_subset
  exact List.subperm_append_diff_self_of_count_le fun r _ => hsub.count_le r

theorem reported_eq (time : SparkTime D) (status : String) (day : Option D)
    (type : Option String) (rows : List (Reading String)) : reported time status day type rows =
    reported time status day type (firstReadings time rows) +
      reported time status day type (hiddenReadings time rows) := by
  rw [reported, ← (firstReadings_append_hidden time rows).countP_eq, List.countP_append]
  rfl

/-- A lost signal is reported on its day. -/
theorem reported_lostSignal_iff (time : SparkTime D) {es : List Emission} :
    (∀ day type, reported time "LOST_SIGNAL" day type (bronzeRows es) = 0) ↔
      ∀ e ∈ es, e.sent.status ≠ .lostSignal := by
  have htext : ∀ p : Payload, p.toReading.status = some "LOST_SIGNAL" ↔ p.status = .lostSignal := by
    intro p
    cases hs : p.status <;> simp [Payload.toReading, hs, Status.text]
  constructor
  · intro h e he hlost
    have hmem : e.sent.toReading ∈ bronzeRows es := List.mem_map_of_mem he
    have hzero := h (reportDate time e.sent.toReading) e.sent.toReading.deviceType
    rw [reported, List.countP_eq_zero] at hzero
    exact hzero _ hmem (decide_eq_true ⟨(htext _).mpr hlost, rfl, rfl⟩)
  · intro h day type
    rw [reported, List.countP_eq_zero]
    intro r hr
    obtain ⟨e, he, rfl⟩ := List.mem_map.mp hr
    rw [decide_eq_true_eq]
    rintro ⟨hstatus, -⟩
    exact h e he ((htext _).mp hstatus)

end Counts

/-- **Exactly when faults are conserved**: when no signal is lost, and of every day and device
type as many sensor faults are hidden as the join repeats. -/
theorem faultsConserved_iff {D : Type} [DecidableEq D] (time : SparkTime D)
    (prices : List PriceRow) (es : List Emission) :
    FaultsConserved time prices es ↔ FaultsSeen time prices es := by
  have hday : ∀ day type,
      (warehoused time prices (·.sensorFaultCount) day type (silverRows (bronzeRows es)) =
          reported time "SENSOR_FAULT" day type (bronzeRows es) ∧
        warehoused time prices (·.lostSignalCount) day type (silverRows (bronzeRows es)) =
          reported time "LOST_SIGNAL" day type (bronzeRows es)) ↔
      reported time "LOST_SIGNAL" day type (bronzeRows es) = 0 ∧
        reported time "SENSOR_FAULT" day type (hiddenReadings time (bronzeRows es)) =
          repeated time prices day type (bronzeRows es) := by
    intro day type
    have hfaults := reported_eq time "SENSOR_FAULT" day type (bronzeRows es)
    rw [warehoused_sensorFault, warehoused_lostSignal, hfaults, Nat.add_left_cancel_iff, and_comm,
      eq_comm, @eq_comm _ (repeated ..)]
  rw [FaultsSeen, ← reported_lostSignal_iff time]
  exact (forall₂_congr hday).trans (by simp only [forall_and])

/-- A draw that makes a sensor fault of the reading. -/
def faultDraw : Draw := ⟨12 / 1000, by decide +kernel, by decide +kernel⟩

/-- A draw that loses the signal. -/
def lostDraw : Draw := ⟨0, by decide +kernel, by decide +kernel⟩

/-- The refrigerator at noon, its faults being decided by a draw. -/
def fridgeSends (timestamp : String) (dice : Draw) : Emission :=
  ⟨timestamp, 12, false, fridge, drawsAt .half dice⟩

/-- A reading, a sensor fault of 1500 watts and a lost signal within an hour: neither of the
faults is counted. -/
theorem not_faultsConserved :
    ¬FaultsConserved isoTime [⟨some 12, some 20⟩]
      [fridgeSends "2026-01-01 12:00:00" .half,
        fridgeSends "2026-01-01 12:00:05" faultDraw,
        fridgeSends "2026-01-01 12:00:10" lostDraw] := by
  intro h
  exact absurd (h (some "2026-01-01") (some "Critical_Appliance")).1 (by decide +kernel)

end SmartHomeEnergy
