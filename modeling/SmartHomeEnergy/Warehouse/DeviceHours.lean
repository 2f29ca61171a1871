import SmartHomeEnergy.Warehouse.Split

/-!
# Device-hours, and the readings they are named after

The daily warehouse reads two kinds of columns off the readings of a device-hour. The mean
power depends on all of them and not on their order; the zone, the device type, the
occupancy and the status are those of its first reading (`SmartHomeEnergy.hourOf_eq`), and
so the first reading alone decides which day the device-hour is added to
(`SmartHomeEnergy.dayKey_hourOf`).

So two batches with the same device-hours, the same means and the same first readings have
the same days. The files that change a batch – a reading delivered twice, a batch replayed,
the rows in another order – only have to say which of these they keep.
-/

namespace SmartHomeEnergy

open Numeric Relational

variable {D : Type} [DecidableEq D] (time : SparkTime D) (prices : List PriceRow)

/-! ### The readings of a device-hour -/

/-- The powers of a device-hour. -/
def hourPowers (batch : List (Reading String)) (h : HourKey D) : List (Option ℚ) :=
  (groupRows (hourKey time) batch h).map (·.powerConsumptionWatts)

/-- The reading of a device-hour that `first` takes its columns from. -/
def firstReading (batch : List (Reading String)) (h : HourKey D) : Option (Reading String) :=
  (groupRows (hourKey time) batch h).head?

/-- The day a device-hour is added to, when this is its first reading. -/
def readingDay (r : Reading String) : DayKey D where
  reportDate := reportDate time r
  zone := r.zone
  deviceType := r.deviceType
  isRoomOccupied := r.isRoomOccupied
  isPeakHours := isPeakHours (hourOfDay time r)

section First

variable {time} {b b' : List (Reading String)} {h : HourKey D} {r : Reading String}

theorem mem_of_firstReading (hr : firstReading time b h = some r) :
    r ∈ b ∧ hourKey time r = h :=
  mem_groupRows.mp (List.mem_of_head? hr)

theorem exists_firstReading (hh : h ∈ groupKeys (hourKey time) b) :
    ∃ r, firstReading time b h = some r := by
  obtain ⟨r, rs, he⟩ := List.exists_cons_of_ne_nil (groupRows_ne_nil hh)
  exact ⟨r, by rw [firstReading, he, List.head?_cons]⟩

/-- **What a device-hour is**: the mean of its powers, and its first reading. -/
theorem hourOf_eq (hr : firstReading time b h = some r) :
    hourOf time b h = ⟨h, nullAvg (hourPowers time b h), r.zone, r.deviceType,
      r.isRoomOccupied, r.status⟩ := by
  obtain ⟨rs, he⟩ : ∃ rs, groupRows (hourKey time) b h = r :: rs := by
    rw [firstReading] at hr
    exact ⟨_, List.eq_cons_of_mem_head? hr⟩
  simp [hourOf, hourRow, hourPowers, first, he]

/-- **The first reading decides the day.** -/
theorem dayKey_hourOf (hr : firstReading time b h = some r) :
    (hourOf time b h).dayKey = readingDay time r := by
  obtain ⟨-, rfl⟩ := mem_of_firstReading hr
  rw [hourOf_eq hr]
  rfl

end First

/-! ### Device-hours and days -/

/-- The device-hours of a batch, each with its prices. -/
def pricedHours (batch : List (Reading String)) : List (HourKey D × Option PriceRow) :=
  leftJoin (fun h p => SameHour h.hourOfDay p) (groupKeys (hourKey time) batch) prices

/-- **What is joined**: the row of every priced device-hour. -/
theorem joinedBatch_eq (batch : List (Reading String)) :
    joinedBatch time prices batch =
      (pricedHours time prices batch).map fun p => (hourOf time batch p.1, p.2) := by
  have hcore : hourlyCore time batch = (groupKeys (hourKey time) batch).map (hourOf time batch) :=
    rfl
  rw [joinedBatch, hcore, leftJoin_map]
  rfl

variable {time prices} {b b' : List (Reading String)} {K : DayKey D}

theorem mem_pricedHours {p : HourKey D × Option PriceRow} :
    p ∈ pricedHours time prices b ↔ p.1 ∈ groupKeys (hourKey time) b ∧
      p.2 ∈ joinMatches (fun (h : HourKey D) q => SameHour h.hourOfDay q) prices p.1 :=
  mem_leftJoin _ _

/-- Every device-hour is priced, or joined with no price. -/
theorem exists_pricedHour (prices : List PriceRow) {h : HourKey D}
    (hh : h ∈ groupKeys (hourKey time) b) :
    ∃ q, (h, q) ∈ pricedHours time prices b := by
  obtain ⟨q, hq⟩ := List.exists_mem_of_ne_nil _
    (joinMatches_ne_nil (fun (h : HourKey D) q => SameHour h.hourOfDay q) prices h)
  exact ⟨q, mem_pricedHours.mpr ⟨hh, hq⟩⟩

/-- **A cost** is there exactly for a device-hour that is joined with a price. -/
theorem priced_iff_exists_cost {h : HourKey D} {w : ℚ}
    (hh : h ∈ groupKeys (hourKey time) b) :
    Priced prices h.hourOfDay ↔
      ∃ q, (h, q) ∈ pricedHours time prices b ∧ realCost (some w) q ≠ none := by
  constructor
  · rintro ⟨price, hm, hsame, hkwh⟩
    refine ⟨some price, mem_pricedHours.mpr ⟨hh, ?_⟩, realCost_ne_none.mpr ⟨price, rfl, hkwh⟩⟩
    exact (some_mem_joinMatches _ _).mpr ⟨hm, hsame⟩
  · rintro ⟨q, hq, hcost⟩
    obtain ⟨price, rfl, hkwh⟩ := realCost_ne_none.mp hcost
    obtain ⟨hm, hsame⟩ := (some_mem_joinMatches _ _).mp (mem_pricedHours.mp hq).2
    exact ⟨price, hm, hsame, hkwh⟩

theorem pricedHours_perm (prices : List PriceRow)
    (hkeys : ∀ h, h ∈ groupKeys (hourKey time) b ↔ h ∈ groupKeys (hourKey time) b') :
    (pricedHours time prices b).Perm (pricedHours time prices b') :=
  leftJoin_perm _ _ (groupKeys_perm hkeys)

/-- The days of a batch. -/
theorem mem_dayKeys :
    K ∈ groupKeys (fun p => p.1.dayKey) (joinedBatch time prices b) ↔
      ∃ h ∈ groupKeys (hourKey time) b, (hourOf time b h).dayKey = K := by
  rw [mem_groupKeys, joinedBatch_eq]
  constructor
  · rintro ⟨p, hp, he⟩
    obtain ⟨q, hq, rfl⟩ := List.mem_map.mp hp
    exact ⟨q.1, (mem_pricedHours.mp hq).1, he⟩
  · rintro ⟨h, hh, he⟩
    obtain ⟨q, hq⟩ := exists_pricedHour prices hh
    exact ⟨_, List.mem_map_of_mem hq, he⟩

omit [DecidableEq D] in
/-- The figures of a day do not depend on the order of its device-hours. -/
theorem dayRow_perm {xs ys : List (HourRow D × Option PriceRow)} (h : xs.Perm ys) :
    dayRow K xs = dayRow K ys := by
  rw [dayRow, dayRow, nullSum_perm (h.map _),
    nullSum_perm (h.map fun p => realCost p.1.avgWatts p.2),
    nullSum_perm (h.map fun p => wastedKwh p.1), (h.map _).sum_eq,
    (h.map fun p => hasStatus "LOST_SIGNAL" p.1).sum_eq]

/-- **The same device-hours make the same days.** -/
theorem finalAnalyticsDf_perm
    (h : (joinedBatch time prices b).Perm (joinedBatch time prices b')) :
    (finalAnalyticsDf time prices b).Perm (finalAnalyticsDf time prices b') := by
  refine (groupBy_perm_iff (fun r => r.key) fun _ _ => rfl).mpr
    ⟨mem_groupKeys_of_perm h, fun K _ => dayRow_perm (h.filter _)⟩

end SmartHomeEnergy
