import SmartHomeEnergy.Warehouse.DeviceHours
import SmartHomeEnergy.Warehouse.Split

/-!
# The order of the rows

Spark promises no order between files and partitions, so the daily figures of a batch should
not depend on one. The mean of a device-hour does not. Its other columns are those of its
first reading, and two of them vary within an hour: the occupancy, which is a column that the
days are grouped by, and the status, which is counted.

So an order makes a difference as soon as a device-hour has readings that disagree on the day
or on a counted status (`SmartHomeEnergy.SettledHour` says they do not), unless it goes
unnoticed wherever it is added: it used nothing, has no fault to count, and every day it may
be added to is there without it (`SmartHomeEnergy.Unnoticed`). That this is exactly when is
`SmartHomeEnergy.orderFree_iff`.
-/

namespace SmartHomeEnergy

open Numeric Relational

section Definitions

variable {D : Type} [DecidableEq D] (time : SparkTime D) (prices : List PriceRow)
  (b : List (Reading String)) (h : HourKey D)

/-- **The order does not matter**: every order of the rows gives the same days. -/
def OrderFree : Prop :=
  ∀ b', b'.Perm b → (finalAnalyticsDf time prices b').Perm (finalAnalyticsDf time prices b)

/-- The status of a reading, if it is one that is counted. -/
def countedStatus (r : Reading String) : Option String :=
  if r.status ∈ [some "SENSOR_FAULT", some "LOST_SIGNAL"] then r.status else none

/-- All readings of a device-hour are of one day. -/
def OfDay (K : DayKey D) : Prop := ∀ r ∈ groupRows (hourKey time) b h, readingDay time r = K

/-- All readings of a device-hour agree on the day and on the counted status. -/
def SettledHour : Prop :=
  ∃ K s, ∀ r ∈ groupRows (hourKey time) b h, readingDay time r = K ∧ countedStatus r = s

/-- Nothing of a device-hour is noticed on any day that one of its readings puts it on: it
has nothing to add, and a device-hour that stays there keeps the day, and its cost. -/
def Unnoticed : Prop :=
  ∀ r ∈ groupRows (hourKey time) b h, r.powerConsumptionWatts = some 0 ∧
    countedStatus r = none ∧
    ∃ h' ∈ groupKeys (hourKey time) b, OfDay time b h' (readingDay time r) ∧
      (Priced prices h.hourOfDay → Priced prices h'.hourOfDay)

/-- The row of a device-hour when a certain reading comes first. -/
def hourFrom (r : Reading String) : HourRow D :=
  ⟨h, nullAvg (hourPowers time b h), r.zone, r.deviceType, r.isRoomOccupied, r.status⟩

/-- The part of a day whose device-hours have a property, the first readings being those of
another order of the rows. -/
def dayPart (b' : List (Reading String)) (K : DayKey D) (q : HourKey D → Prop)
    [DecidablePred q] : List (HourRow D × Option PriceRow) :=
  ((pricedHours time prices b).filter fun p => q p.1 ∧ (hourOf time b' p.1).dayKey = K).map
    fun p => (hourOf time b' p.1, p.2)

end Definitions

variable {D : Type} [DecidableEq D] {time : SparkTime D} {prices : List PriceRow}
  {b b' b₁ b₂ : List (Reading String)} {h : HourKey D} {K : DayKey D} {r r' : Reading String}

/-! ### Another order of the rows -/

/-- **In another order** a device-hour is named after another of its readings. -/
theorem hourOf_of_perm (hperm : b'.Perm b) (hh : h ∈ groupKeys (hourKey time) b) :
    ∃ r ∈ groupRows (hourKey time) b h, hourOf time b' h = hourFrom time b h r := by
  obtain ⟨r, hr⟩ := exists_firstReading ((mem_groupKeys_of_perm hperm h).mpr hh)
  obtain ⟨hmem, hkey⟩ := mem_of_firstReading hr
  refine ⟨r, mem_groupRows.mpr ⟨hperm.mem_iff.mp hmem, hkey⟩, ?_⟩
  have hpowers : (hourPowers time b' h).Perm (hourPowers time b h) := (hperm.filter _).map _
  rw [hourOf_eq hr, hourFrom, nullAvg_perm hpowers]

/-- **Every reading may come first**, in every device-hour. -/
theorem exists_order {pick : HourKey D → Reading String}
    (hpick : ∀ h ∈ groupKeys (hourKey time) b, pick h ∈ groupRows (hourKey time) b h) :
    ∃ b', b'.Perm b ∧ ∀ h ∈ groupKeys (hourKey time) b,
      hourOf time b' h = hourFrom time b h (pick h) := by
  obtain ⟨b', hperm, hheads⟩ := exists_perm_heads hpick
  refine ⟨b', hperm, fun h hh => ?_⟩
  have hpowers : (hourPowers time b' h).Perm (hourPowers time b h) := (hperm.filter _).map _
  rw [hourOf_eq (hheads h hh), hourFrom, nullAvg_perm hpowers]

theorem dayKey_hourFrom (hr : r ∈ groupRows (hourKey time) b h) :
    (hourFrom time b h r).dayKey = readingDay time r := by
  obtain ⟨-, rfl⟩ := mem_groupRows.mp hr
  rfl

theorem countedStatus_ext (h : ∀ s, s = "SENSOR_FAULT" ∨ s = "LOST_SIGNAL" →
    (countedStatus r = some s ↔ countedStatus r' = some s)) :
    countedStatus r = countedStatus r' := by
  have hcounted : ∀ {r : Reading String} {s}, countedStatus r = some s →
      s = "SENSOR_FAULT" ∨ s = "LOST_SIGNAL" := by
    intro r s hs
    rw [countedStatus] at hs
    split at hs
    next hmem => simpa [hs] using hmem
    next => simp at hs
  refine Option.ext fun s => ⟨fun hs => ?_, fun hs => ?_⟩
  · exact (h s (hcounted hs)).mp hs
  · exact (h s (hcounted hs)).mpr hs

omit [DecidableEq D] in
theorem hasStatus_of_status {s : String} (hs : s = "SENSOR_FAULT" ∨ s = "LOST_SIGNAL")
    {x : HourRow D} (hx : x.status = r.status) :
    hasStatus s x = if countedStatus r = some s then 1 else 0 := by
  rw [hasStatus, hx, countedStatus]
  cases hr : r.status with
  | none => simp
  | some t =>
    rcases hs with rfl | rfl
    · by_cases ht : t = "SENSOR_FAULT" <;> by_cases ht' : t = "LOST_SIGNAL" <;> simp [ht, ht']
    · by_cases ht : t = "SENSOR_FAULT" <;> by_cases ht' : t = "LOST_SIGNAL" <;> simp [ht, ht']

/-- A day is made of its device-hours with a property and of those without. -/
theorem dayGroup_perm (hperm : b'.Perm b) (K : DayKey D) (q : HourKey D → Prop)
    [DecidablePred q] :
    (groupRows (fun p => p.1.dayKey) (joinedBatch time prices b') K).Perm
      (dayPart time prices b b' K (fun h => ¬q h) ++ dayPart time prices b b' K q) := by
  have hgroup : groupRows (fun p => p.1.dayKey) (joinedBatch time prices b') K =
      ((pricedHours time prices b').filter fun p => (hourOf time b' p.1).dayKey = K).map
        fun p => (hourOf time b' p.1, p.2) := by
    rw [joinedBatch_eq, groupRows, List.filter_map]
    rfl
  have hhours : (pricedHours time prices b').Perm (pricedHours time prices b) :=
    pricedHours_perm prices fun h => mem_groupKeys_of_perm hperm h
  have hpriced := hhours.filter fun p => (hourOf time b' p.1).dayKey = K
  have hsplit := List.filter_append_perm (fun p => !decide (q p.1))
    ((pricedHours time prices b).filter fun p => (hourOf time b' p.1).dayKey = K)
  rw [hgroup, dayPart, dayPart, ← List.map_append]
  refine (hpriced.trans (hsplit.symm.trans (List.Perm.of_eq ?_))).map _
  simp only [List.filter_filter, Bool.not_not, Bool.decide_and, decide_not]

theorem mem_dayPart {q : HourKey D → Prop} [DecidablePred q] {p : HourRow D × Option PriceRow} :
    p ∈ dayPart time prices b b' K q ↔ ∃ h, (h, p.2) ∈ pricedHours time prices b ∧ q h ∧
      (hourOf time b' h).dayKey = K ∧ p.1 = hourOf time b' h := by
  constructor
  · intro hp
    obtain ⟨x, hx, rfl⟩ := List.mem_map.mp hp
    obtain ⟨hmem, hq⟩ := List.mem_filter.mp hx
    obtain ⟨hq, hday⟩ := of_decide_eq_true hq
    exact ⟨x.1, hmem, hq, hday, rfl⟩
  · rintro ⟨h, hmem, hq, hday, he⟩
    refine List.mem_map.mpr ⟨(h, p.2), List.mem_filter.mpr ⟨hmem, by simp [hq, hday]⟩, ?_⟩
    rw [← he]

/-- The days of another order. -/
theorem mem_days_iff (prices : List PriceRow) (hperm : b'.Perm b) :
    K ∈ groupKeys (fun p => p.1.dayKey) (joinedBatch time prices b') ↔
      ∃ h ∈ groupKeys (hourKey time) b, (hourOf time b' h).dayKey = K := by
  simp only [mem_dayKeys, mem_groupKeys_of_perm hperm]

/-- The row of a day, from its two parts. -/
theorem dayRow_dayPart (hperm : b'.Perm b) (K : DayKey D) (q : HourKey D → Prop)
    [DecidablePred q] :
    dayRow K (groupRows (fun p => p.1.dayKey) (joinedBatch time prices b') K) =
      dayRow K (dayPart time prices b b' K (fun h => ¬q h) ++ dayPart time prices b b' K q) :=
  dayRow_perm (dayGroup_perm hperm K q)

/-- Two orders give the same days exactly when they have the same ones, each with the same
row. -/
theorem finalAnalyticsDf_perm_iff :
    (finalAnalyticsDf time prices b₁).Perm (finalAnalyticsDf time prices b₂) ↔
      (∀ K, K ∈ groupKeys (fun p => p.1.dayKey) (joinedBatch time prices b₁) ↔
        K ∈ groupKeys (fun p => p.1.dayKey) (joinedBatch time prices b₂)) ∧
      ∀ K ∈ groupKeys (fun p => p.1.dayKey) (joinedBatch time prices b₁),
        dayRow K (groupRows (fun p => p.1.dayKey) (joinedBatch time prices b₁) K) =
          dayRow K (groupRows (fun p => p.1.dayKey) (joinedBatch time prices b₂) K) :=
  groupBy_perm_iff (fun r => r.key) fun _ _ => rfl

/-- The powers of a device-hour are read off its mean, which is zero only for zeros. -/
theorem avgWatts_of_perm (hb : Silver b) (hperm : b'.Perm b)
    (hh : h ∈ groupKeys (hourKey time) b) :
    ∃ w, (hourOf time b' h).avgWatts = some w ∧ 0 ≤ w ∧
      (w = 0 ↔ ∀ r ∈ groupRows (hourKey time) b h, r.powerConsumptionWatts = some 0) := by
  have hb' : Silver b' := fun r hr => hb r (hperm.mem_iff.mp hr)
  obtain ⟨w, hw, h0, hzero⟩ := avgWatts_hourOf hb' ((mem_groupKeys_of_perm hperm h).mpr hh)
  refine ⟨w, hw, h0, hzero.trans ?_⟩
  simp only [mem_groupRows, hperm.mem_iff]

theorem nonneg_of_mem_dayPart (hb : Silver b) (hperm : b'.Perm b) {q : HourKey D → Prop}
    [DecidablePred q] {p : HourRow D × Option PriceRow}
    (hp : p ∈ dayPart time prices b b' K q) : ∃ w, p.1.avgWatts = some w ∧ 0 ≤ w := by
  obtain ⟨h, hmem, -, -, he⟩ := mem_dayPart.mp hp
  obtain ⟨w, hw, h0, -⟩ := avgWatts_of_perm hb hperm (mem_pricedHours.mp hmem).1
  exact ⟨w, he ▸ hw, h0⟩

/-! ### Unnoticed device-hours make no difference -/

/-- What stays on a day is settled, if nothing but unnoticed device-hours is not. -/
theorem settled_of_ofDay (hday : OfDay time b h K)
    (hall : SettledHour time b h ∨ Unnoticed time prices b h) : SettledHour time b h := by
  rcases hall with hset | hun
  · exact hset
  · exact ⟨K, none, fun r hr => ⟨hday r hr, (hun r hr).2.1⟩⟩

/-- A settled device-hour is of the same day in every order. -/
theorem dayKey_of_settled (hperm : b'.Perm b) (hh : h ∈ groupKeys (hourKey time) b)
    (hset : SettledHour time b h) : (hourOf time b' h).dayKey = (hourOf time b h).dayKey := by
  obtain ⟨K, s, hset⟩ := hset
  obtain ⟨r, hr, he⟩ := hourOf_of_perm hperm hh
  obtain ⟨r', hr', he'⟩ := hourOf_of_perm (List.Perm.refl b) hh
  rw [he, he', dayKey_hourFrom hr, dayKey_hourFrom hr', (hset r hr).1, (hset r' hr').1]

omit [DecidableEq D] in
/-- The row of a day looks at five columns only. -/
theorem dayRow_congr {α : Type*} {l : List α} {f g : α → HourRow D × Option PriceRow}
    (h : ∀ a ∈ l, (f a).1.avgWatts = (g a).1.avgWatts ∧ (f a).2 = (g a).2 ∧
      (f a).1.isRoomOccupied = (g a).1.isRoomOccupied ∧
      hasStatus "SENSOR_FAULT" (f a).1 = hasStatus "SENSOR_FAULT" (g a).1 ∧
      hasStatus "LOST_SIGNAL" (f a).1 = hasStatus "LOST_SIGNAL" (g a).1) :
    dayRow K (l.map f) = dayRow K (l.map g) := by
  have hcongr : ∀ {β : Type} {c : HourRow D × Option PriceRow → β},
      (∀ a ∈ l, c (f a) = c (g a)) → (l.map f).map c = (l.map g).map c := by
    intro β c hc
    rw [List.map_map, List.map_map]
    exact List.map_congr_left hc
  rw [dayRow, dayRow, hcongr (c := fun p => realKwh p.1.avgWatts) fun a ha => by rw [(h a ha).1],
    hcongr (c := fun p => realCost p.1.avgWatts p.2) fun a ha => by
      rw [(h a ha).1, (h a ha).2.1],
    hcongr (c := fun p => wastedKwh p.1) fun a ha => by
      rw [wastedKwh, wastedKwh, (h a ha).1, (h a ha).2.2.1],
    hcongr (c := fun p => hasStatus "SENSOR_FAULT" p.1) fun a ha => (h a ha).2.2.2.1,
    hcongr (c := fun p => hasStatus "LOST_SIGNAL" p.1) fun a ha => (h a ha).2.2.2.2]

open Classical in
/-- The settled device-hours of a day give the same row in every order. -/
theorem dayRow_settled (hperm : b'.Perm b) (K : DayKey D) :
    dayRow K (dayPart time prices b b' K (SettledHour time b)) =
      dayRow K (dayPart time prices b b K (SettledHour time b)) := by
  have hfilter : ((pricedHours time prices b).filter fun p =>
      SettledHour time b p.1 ∧ (hourOf time b' p.1).dayKey = K) =
      (pricedHours time prices b).filter fun p =>
        SettledHour time b p.1 ∧ (hourOf time b p.1).dayKey = K := by
    refine List.filter_congr fun p hp => decide_eq_decide.mpr (and_congr_right fun hset => ?_)
    rw [dayKey_of_settled hperm (mem_pricedHours.mp hp).1 hset]
  rw [dayPart, dayPart, hfilter]
  refine dayRow_congr fun p hp => ?_
  obtain ⟨hmem, hq⟩ := List.mem_filter.mp hp
  obtain ⟨⟨K', s, hset⟩, -⟩ := of_decide_eq_true hq
  obtain ⟨hh, -⟩ := mem_pricedHours.mp hmem
  obtain ⟨r, hr, he⟩ := hourOf_of_perm hperm hh
  obtain ⟨r', hr', he'⟩ := hourOf_of_perm (List.Perm.refl b) hh
  have hoccupied : r.isRoomOccupied = r'.isRoomOccupied :=
    congrArg DayKey.isRoomOccupied ((hset r hr).1.trans (hset r' hr').1.symm)
  have hstatus : ∀ s, s = "SENSOR_FAULT" ∨ s = "LOST_SIGNAL" →
      hasStatus s (hourFrom time b p.1 r) = hasStatus s (hourFrom time b p.1 r') := fun s hs => by
    rw [hasStatus_of_status hs rfl, hasStatus_of_status hs rfl, (hset r hr).2, (hset r' hr').2]
  rw [he, he']
  exact ⟨rfl, rfl, hoccupied, hstatus _ (Or.inl rfl), hstatus _ (Or.inr rfl)⟩

/-- A device-hour that is not settled is on a day of one that is, with a price if it has
one. -/
theorem exists_settled (hperm : b'.Perm b)
    (hall : ∀ h ∈ groupKeys (hourKey time) b, SettledHour time b h ∨ Unnoticed time prices b h)
    (hh : h ∈ groupKeys (hourKey time) b) (hday : (hourOf time b' h).dayKey = K) :
    ∃ h' ∈ groupKeys (hourKey time) b, SettledHour time b h' ∧ (hourOf time b' h').dayKey = K ∧
      (Priced prices h.hourOfDay → Priced prices h'.hourOfDay) := by
  rcases hall h hh with hset | hun
  · exact ⟨h, hh, hset, hday, id⟩
  · obtain ⟨r, hr, he⟩ := hourOf_of_perm hperm hh
    obtain ⟨-, -, h', hh', hof, hprice⟩ := hun r hr
    obtain ⟨r', hr', he'⟩ := hourOf_of_perm hperm hh'
    refine ⟨h', hh', settled_of_ofDay hof (hall h' hh'), ?_, hprice⟩
    rw [he', dayKey_hourFrom hr', hof r' hr', ← dayKey_hourFrom hr, ← he, hday]

open Classical in
/-- **The days of every order** are those of the settled device-hours. -/
theorem day_of_settled (hb : Silver b) (hperm : b'.Perm b)
    (hall : ∀ h ∈ groupKeys (hourKey time) b, SettledHour time b h ∨ Unnoticed time prices b h)
    (hh : h ∈ groupKeys (hourKey time) b) (hday : (hourOf time b' h).dayKey = K) :
    (∃ h ∈ groupKeys (hourKey time) b, SettledHour time b h ∧ (hourOf time b h).dayKey = K) ∧
      dayRow K (groupRows (fun p => p.1.dayKey) (joinedBatch time prices b') K) =
        dayRow K (dayPart time prices b b K (SettledHour time b)) := by
  have hpart : ∀ {x : HourKey D}, x ∈ groupKeys (hourKey time) b → SettledHour time b x →
      (hourOf time b' x).dayKey = K → ∀ {q}, (x, q) ∈ pricedHours time prices b →
        (hourOf time b' x, q) ∈ dayPart time prices b b' K (SettledHour time b) :=
    fun hx hset hxday q hq => mem_dayPart.mpr ⟨_, hq, hset, hxday, rfl⟩
  obtain ⟨h', hh', hset', hday', -⟩ := exists_settled hperm hall hh hday
  refine ⟨⟨h', hh', hset', by rw [← dayKey_of_settled hperm hh' hset', hday']⟩, ?_⟩
  rw [dayRow_dayPart hperm K (SettledHour time b), ← dayRow_settled hperm K]
  obtain ⟨q', hq'⟩ := exists_pricedHour prices hh'
  refine dayRow_of_addsNothing (List.ne_nil_of_mem (hpart hh' hset' hday' hq')) ?_ ?_
  · intro p hp
    rcases List.mem_append.mp hp with hp | hp
    · exact nonneg_of_mem_dayPart hb hperm hp
    · exact nonneg_of_mem_dayPart hb hperm hp
  · intro p hp
    obtain ⟨x, hmem, hnot, hxday, he⟩ := mem_dayPart.mp hp
    obtain ⟨hx, -⟩ := mem_pricedHours.mp hmem
    have hun := (hall x hx).resolve_left hnot
    obtain ⟨w, hw, -, hzero⟩ := avgWatts_of_perm hb hperm hx
    obtain ⟨r, hr, her⟩ := hourOf_of_perm hperm hx
    refine ⟨?_, ?_, fun hcost => ?_⟩
    · rw [he, hw, hzero.mpr fun r hr => (hun r hr).1]
    · have hnone := (hun r hr).2.1
      rw [he, her]
      intro hmem
      simp only [countedStatus, hourFrom] at hnone hmem
      rw [if_pos hmem] at hnone
      simp [hnone] at hmem
    · rw [he, hw] at hcost
      obtain ⟨y, hy, hyset, hyday, hprice⟩ := exists_settled hperm hall hx hxday
      obtain ⟨v, hv, -⟩ := avgWatts_of_perm hb hperm hy
      obtain ⟨q, hq, hqcost⟩ := (priced_iff_exists_cost (w := v) hy).mp
        (hprice ((priced_iff_exists_cost hx).mpr ⟨_, hmem, hcost⟩))
      exact ⟨_, hpart hy hyset hyday hq, by rwa [hv]⟩

/-- Settled and unnoticed device-hours give the same days in every order. -/
theorem orderFree_of_settled (hb : Silver b)
    (hall : ∀ h ∈ groupKeys (hourKey time) b, SettledHour time b h ∨ Unnoticed time prices b h) :
    OrderFree time prices b := by
  intro b' hperm
  have hself := List.Perm.refl b
  refine finalAnalyticsDf_perm_iff.mpr ⟨fun K => ?_, fun K hK => ?_⟩
  · rw [mem_days_iff prices hperm, mem_days_iff prices hself]
    constructor
    · rintro ⟨h, hh, hday⟩
      obtain ⟨⟨h', hh', -, hday'⟩, -⟩ := day_of_settled hb hperm hall hh hday
      exact ⟨h', hh', hday'⟩
    · rintro ⟨h, hh, hday⟩
      obtain ⟨⟨h', hh', hset', hday'⟩, -⟩ := day_of_settled hb hself hall hh hday
      exact ⟨h', hh', by rw [dayKey_of_settled hperm hh' hset', hday']⟩
  · obtain ⟨h, hh, hday⟩ := (mem_days_iff prices hperm).mp hK
    obtain ⟨⟨h', hh', -, hday'⟩, hrow⟩ := day_of_settled hb hperm hall hh hday
    rw [hrow, (day_of_settled hb hself hall hh' hday').2]

/-! ### Anything else makes a difference -/

/-- The part of a day that a single device-hour makes up. -/
theorem dayPart_not_ne (hday : (hourOf time b' h).dayKey = K) :
    dayPart time prices b b' K (fun x => ¬x ≠ h) =
      ((pricedHours time prices b).filter fun p => p.1 = h).map
        fun p => (hourOf time b' h, p.2) := by
  have hfilter : ((pricedHours time prices b).filter fun p =>
      ¬p.1 ≠ h ∧ (hourOf time b' p.1).dayKey = K) =
      (pricedHours time prices b).filter fun p => p.1 = h := by
    refine List.filter_congr fun p _ => decide_eq_decide.mpr ?_
    rw [not_not, and_iff_left_iff_imp]
    rintro rfl
    exact hday
  rw [dayPart, hfilter]
  refine List.map_congr_left fun p hp => ?_
  rw [of_decide_eq_true (List.mem_filter.mp hp).2]

theorem dayPart_not_ne_eq_nil (hday : (hourOf time b' h).dayKey ≠ K) :
    dayPart time prices b b' K (fun x => ¬x ≠ h) = [] := by
  refine List.map_eq_nil_iff.mpr (List.filter_eq_nil_iff.mpr fun p _ => ?_)
  simp only [decide_eq_true_eq, not_not]
  rintro ⟨rfl, hp⟩
  exact hday hp

/-- Two orders that differ in a single device-hour agree on the rest of the day. -/
theorem dayPart_congr (hsame : ∀ x ∈ groupKeys (hourKey time) b, x ≠ h →
      hourOf time b₁ x = hourOf time b₂ x) :
    dayPart time prices b b₁ K (· ≠ h) = dayPart time prices b b₂ K (· ≠ h) := by
  have hfilter : ((pricedHours time prices b).filter fun p =>
      p.1 ≠ h ∧ (hourOf time b₁ p.1).dayKey = K) =
      (pricedHours time prices b).filter fun p =>
        p.1 ≠ h ∧ (hourOf time b₂ p.1).dayKey = K := by
    refine List.filter_congr fun p hp => decide_eq_decide.mpr (and_congr_right fun hne => ?_)
    rw [hsame p.1 (mem_pricedHours.mp hp).1 hne]
  rw [dayPart, dayPart, hfilter]
  refine List.map_congr_left fun p hp => ?_
  obtain ⟨hmem, hq⟩ := List.mem_filter.mp hp
  rw [hsame p.1 (mem_pricedHours.mp hmem).1 (of_decide_eq_true hq).1]

/-- The other device-hours can be kept off a day, but for those that stay there. -/
theorem exists_pick (time : SparkTime D) (b : List (Reading String)) (r : Reading String)
    (K : DayKey D) :
    ∃ pick : HourKey D → Reading String, ∀ x ∈ groupKeys (hourKey time) b,
      pick x ∈ groupRows (hourKey time) b x ∧
        (readingDay time (pick x) = K → OfDay time b x K) := by
  have hx : ∀ x, ∃ s, x ∈ groupKeys (hourKey time) b →
      s ∈ groupRows (hourKey time) b x ∧ (readingDay time s = K → OfDay time b x K) := by
    intro x
    by_cases hmem : x ∈ groupKeys (hourKey time) b
    · by_cases hof : OfDay time b x K
      · obtain ⟨s, hs⟩ := List.exists_mem_of_ne_nil _ (groupRows_ne_nil hmem)
        exact ⟨s, fun _ => ⟨hs, fun _ => hof⟩⟩
      · rw [OfDay] at hof
        push Not at hof
        obtain ⟨s, hs, hday⟩ := hof
        exact ⟨s, fun _ => ⟨hs, fun he => absurd he hday⟩⟩
    · exact ⟨r, fun h => absurd h hmem⟩
  choose pick hpick using hx
  exact ⟨pick, hpick⟩

/-- **Two orders that differ in a single device-hour**, the first reading of which is any of
two; that of the others is chosen before. -/
theorem exists_two_orders {pick : HourKey D → Reading String}
    (hpick : ∀ x ∈ groupKeys (hourKey time) b, pick x ∈ groupRows (hourKey time) b x)
    (hr : r ∈ groupRows (hourKey time) b h) (hr' : r' ∈ groupRows (hourKey time) b h) :
    ∃ b₁ b₂, b₁.Perm b ∧ b₂.Perm b ∧ hourOf time b₁ h = hourFrom time b h r ∧
      hourOf time b₂ h = hourFrom time b h r' ∧ ∀ x ∈ groupKeys (hourKey time) b, x ≠ h →
        hourOf time b₁ x = hourFrom time b x (pick x) ∧
          hourOf time b₂ x = hourFrom time b x (pick x) := by
  have hh : h ∈ groupKeys (hourKey time) b :=
    mem_groupKeys.mpr ⟨r, (mem_groupRows.mp hr).1, (mem_groupRows.mp hr).2⟩
  have hupdate : ∀ s ∈ groupRows (hourKey time) b h, ∀ x ∈ groupKeys (hourKey time) b,
      Function.update pick h s x ∈ groupRows (hourKey time) b x := by
    intro s hs x hx
    by_cases hxh : x = h
    · subst hxh
      rwa [Function.update_self]
    · rw [Function.update_of_ne hxh]
      exact hpick x hx
  obtain ⟨b₁, hb₁, h₁⟩ := exists_order (hupdate r hr)
  obtain ⟨b₂, hb₂, h₂⟩ := exists_order (hupdate r' hr')
  refine ⟨b₁, b₂, hb₁, hb₂, by rw [h₁ h hh, Function.update_self],
    by rw [h₂ h hh, Function.update_self], fun x hx hne => ?_⟩
  rw [h₁ x hx, h₂ x hx, Function.update_of_ne hne, Function.update_of_ne hne]
  exact ⟨rfl, rfl⟩

/-- An order that does not matter gives any two orders the same days. -/
theorem OrderFree.days (hfree : OrderFree time prices b) (hb₁ : b₁.Perm b) (hb₂ : b₂.Perm b)
    (hh : h ∈ groupKeys (hourKey time) b) (hday : (hourOf time b₁ h).dayKey = K) :
    (∃ x ∈ groupKeys (hourKey time) b, (hourOf time b₂ x).dayKey = K) ∧
      dayRow K (groupRows (fun p => p.1.dayKey) (joinedBatch time prices b₁) K) =
        dayRow K (groupRows (fun p => p.1.dayKey) (joinedBatch time prices b₂) K) := by
  obtain ⟨hkeys, hrows⟩ :=
    finalAnalyticsDf_perm_iff.mp ((hfree b₁ hb₁).trans (hfree b₂ hb₂).symm)
  have hK := (mem_days_iff prices hb₁).mpr ⟨h, hh, hday⟩
  exact ⟨(mem_days_iff prices hb₂).mp ((hkeys K).mp hK), hrows K hK⟩

/-- **Readings of a device-hour on one day agree on the counted status**: the counts of the
day would tell them apart. -/
theorem OrderFree.countedStatus_eq (hfree : OrderFree time prices b)
    (hr : r ∈ groupRows (hourKey time) b h) (hr' : r' ∈ groupRows (hourKey time) b h)
    (hday : readingDay time r' = readingDay time r) : countedStatus r = countedStatus r' := by
  have hh : h ∈ groupKeys (hourKey time) b :=
    mem_groupKeys.mpr ⟨r, (mem_groupRows.mp hr).1, (mem_groupRows.mp hr).2⟩
  obtain ⟨pick, hpick⟩ := exists_pick time b r (readingDay time r)
  obtain ⟨b₁, b₂, hb₁, hb₂, h₁, h₂, hother⟩ :=
    exists_two_orders (fun x hx => (hpick x hx).1) hr hr'
  have hday₁ : (hourOf time b₁ h).dayKey = readingDay time r := by rw [h₁, dayKey_hourFrom hr]
  have hday₂ : (hourOf time b₂ h).dayKey = readingDay time r := by
    rw [h₂, dayKey_hourFrom hr', hday]
  have hrow := (hfree.days hb₁ hb₂ hh hday₁).2
  rw [dayRow_dayPart hb₁ _ (· ≠ h), dayRow_dayPart hb₂ _ (· ≠ h),
    dayPart_congr fun x hx hne => (hother x hx hne).1.trans (hother x hx hne).2.symm,
    dayPart_not_ne hday₁, dayPart_not_ne hday₂, h₁, h₂] at hrow
  obtain ⟨q, hq⟩ := exists_pricedHour prices hh
  have hlength : ((pricedHours time prices b).filter fun p => p.1 = h).length ≠ 0 :=
    (List.length_pos_of_mem (List.mem_filter.mpr ⟨hq, by simp⟩)).ne'
  have hcount : ∀ s, s = "SENSOR_FAULT" ∨ s = "LOST_SIGNAL" →
      hasStatus s (hourFrom time b h r) = hasStatus s (hourFrom time b h r') := by
    intro s hs
    have hsensor := congrArg DayRow.sensorFaultCount hrow
    have hsignal := congrArg DayRow.lostSignalCount hrow
    simp only [dayRow, List.map_append, List.map_map, Function.comp_def, List.map_const',
      List.sum_append, List.sum_replicate, Nat.add_right_cancel_iff, smul_eq_mul,
      Nat.mul_right_inj hlength] at hsensor hsignal
    rcases hs with rfl | rfl
    · exact hsensor
    · exact hsignal
  refine countedStatus_ext fun s hs => ?_
  have hsame := hcount s hs
  rw [hasStatus_of_status hs rfl, hasStatus_of_status hs rfl] at hsame
  by_cases hc : countedStatus r = some s <;> by_cases hc' : countedStatus r' = some s <;>
    simp_all

/-- The part of a day that one device-hour makes. -/
theorem mem_dayPart_self {q : Option PriceRow} (hq : (h, q) ∈ pricedHours time prices b)
    (hday : (hourOf time b₁ h).dayKey = K) :
    (hourOf time b₁ h, q) ∈ dayPart time prices b b₁ K fun x => ¬x ≠ h :=
  mem_dayPart.mpr ⟨h, hq, not_not.mpr rfl, hday, rfl⟩

/-- Where a device-hour with a price adds nothing to the others of its day, one of them has a
price too. -/
theorem exists_priced_of_addsNothing (hb : Silver b) (hb₁ : b₁.Perm b) (hb₂ : b₂.Perm b)
    (hh : h ∈ groupKeys (hourKey time) b) (hday : (hourOf time b₁ h).dayKey = K)
    (hpriced : Priced prices h.hourOfDay)
    (hadds : ∀ p ∈ dayPart time prices b b₁ K (fun x => ¬x ≠ h),
      AddsNothing (dayPart time prices b b₂ K (· ≠ h)) p) :
    ∃ x ∈ groupKeys (hourKey time) b, x ≠ h ∧ (hourOf time b₂ x).dayKey = K ∧
      Priced prices x.hourOfDay := by
  obtain ⟨w, hw, -⟩ := avgWatts_of_perm hb hb₁ hh
  obtain ⟨q, hq, hcost⟩ := (priced_iff_exists_cost (w := w) hh).mp hpriced
  obtain ⟨-, -, hstays⟩ := hadds _ (mem_dayPart_self hq hday)
  obtain ⟨y, hy, hycost⟩ := hstays (by rwa [hw])
  obtain ⟨x, hx, hne, hxday, he⟩ := mem_dayPart.mp hy
  obtain ⟨hxmem, -⟩ := mem_pricedHours.mp hx
  obtain ⟨v, hv, -⟩ := avgWatts_of_perm hb hb₂ hxmem
  rw [he, hv] at hycost
  exact ⟨x, hxmem, hne, hxday, (priced_iff_exists_cost hxmem).mpr ⟨_, hx, hycost⟩⟩

/-- **A device-hour whose readings are of two days is unnoticed** on the day of either. -/
theorem OrderFree.unnoticed (hfree : OrderFree time prices b) (hb : Silver b)
    (hr : r ∈ groupRows (hourKey time) b h) (hr' : r' ∈ groupRows (hourKey time) b h)
    (hday : readingDay time r' ≠ readingDay time r) :
    (∀ s ∈ groupRows (hourKey time) b h, s.powerConsumptionWatts = some 0) ∧
      countedStatus r = none ∧
      ∃ h' ∈ groupKeys (hourKey time) b, OfDay time b h' (readingDay time r) ∧
        (Priced prices h.hourOfDay → Priced prices h'.hourOfDay) := by
  have hh : h ∈ groupKeys (hourKey time) b :=
    mem_groupKeys.mpr ⟨r, (mem_groupRows.mp hr).1, (mem_groupRows.mp hr).2⟩
  obtain ⟨pick, hpick⟩ := exists_pick time b r (readingDay time r)
  obtain ⟨b₁, b₂, hb₁, hb₂, h₁, h₂, hother⟩ :=
    exists_two_orders (fun x hx => (hpick x hx).1) hr hr'
  have hday₁ : (hourOf time b₁ h).dayKey = readingDay time r := by rw [h₁, dayKey_hourFrom hr]
  have hday₂ : (hourOf time b₂ h).dayKey ≠ readingDay time r := by rwa [h₂, dayKey_hourFrom hr']
  -- without the device-hour, the day is made of device-hours that stay there
  have hof : ∀ x ∈ groupKeys (hourKey time) b, x ≠ h →
      (hourOf time b₂ x).dayKey = readingDay time r → OfDay time b x (readingDay time r) := by
    intro x hx hne hxday
    refine (hpick x hx).2 ?_
    rwa [(hother x hx hne).2, dayKey_hourFrom (hpick x hx).1] at hxday
  obtain ⟨⟨x, hx, hxday⟩, hrow⟩ := hfree.days hb₁ hb₂ hh hday₁
  have hxh : x ≠ h := by
    rintro rfl
    exact hday₂ hxday
  rw [dayRow_dayPart hb₁ _ (· ≠ h), dayRow_dayPart hb₂ _ (· ≠ h), dayPart_not_ne_eq_nil hday₂,
    List.nil_append,
    dayPart_congr fun x hx hne => (hother x hx hne).1.trans (hother x hx hne).2.symm] at hrow
  have hadds := addsNothing_of_dayRow (fun p hp => ?_) hrow
  · obtain ⟨w, hw, -, hzero⟩ := avgWatts_of_perm hb hb₁ hh
    obtain ⟨q, hq⟩ := exists_pricedHour prices hh
    obtain ⟨hwatts, hstatus, -⟩ := hadds _ (mem_dayPart_self hq hday₁)
    refine ⟨hzero.mp (Option.some.inj (hw.symm.trans hwatts)), ?_, ?_⟩
    · rw [h₁] at hstatus
      exact if_neg hstatus
    by_cases hpriced : Priced prices h.hourOfDay
    · -- with a price, the cost of the day has to be there without the device-hour
      obtain ⟨z, hz, hne, hzday, hzpriced⟩ :=
        exists_priced_of_addsNothing hb hb₁ hb₂ hh hday₁ hpriced hadds
      exact ⟨z, hz, hof z hz hne hzday, fun _ => hzpriced⟩
    · exact ⟨x, hx, hof x hx hxh hxday, fun hp => absurd hp hpriced⟩
  · rcases List.mem_append.mp hp with hp | hp
    · exact nonneg_of_mem_dayPart hb hb₁ hp
    · exact nonneg_of_mem_dayPart hb hb₂ hp

/-- **Exactly when the order of the rows does not matter**: when every device-hour is settled
or goes unnoticed. -/
theorem orderFree_iff (time : SparkTime D) (prices : List PriceRow)
    (b : List (Reading String)) (hb : Silver b) :
    OrderFree time prices b ↔
      ∀ h ∈ groupKeys (hourKey time) b, SettledHour time b h ∨ Unnoticed time prices b h := by
  refine ⟨fun hfree h hh => or_iff_not_imp_left.mpr fun hnot r hr => ?_, orderFree_of_settled hb⟩
  -- some reading of the device-hour is of another day
  obtain ⟨r', hr', hday⟩ : ∃ r' ∈ groupRows (hourKey time) b h,
      readingDay time r' ≠ readingDay time r := by
    by_contra hnone
    push Not at hnone
    exact hnot ⟨_, _, fun s hs => ⟨hnone s hs, (hfree.countedStatus_eq hr hs (hnone s hs)).symm⟩⟩
  obtain ⟨hpowers, hstatus, hstays⟩ := hfree.unnoticed hb hr hr' hday
  exact ⟨hpowers r hr, hstatus, hstays⟩

/-- Two readings of the refrigerator within an hour, in both orders. -/
theorem orderFree_fridge :
    OrderFree isoTime noonPrice
      [fridgeAt "2026-01-01 12:00:00", fridgeAt "2026-01-01 12:00:05"] := by
  refine (orderFree_iff isoTime noonPrice _ (by decide +kernel)).mpr fun h _ => Or.inl ?_
  have hall : ∀ r ∈ [fridgeAt "2026-01-01 12:00:00", fridgeAt "2026-01-01 12:00:05"],
      readingDay isoTime r = readingDay isoTime (fridgeAt "2026-01-01 12:00:00") ∧
        countedStatus r = none := by
    decide +kernel
  exact ⟨_, _, fun r hr => hall r (mem_groupRows.mp hr).1⟩

/-- The kitchen is left within the hour: which of the two readings comes first decides whether
the hour is a waste. -/
theorem not_orderFree :
    let r := fridgeAt "2026-01-01 12:00:00"
    let s := { fridgeAt "2026-01-01 12:00:05" with isRoomOccupied := some false }
    Silver [r, s] ∧ ¬OrderFree isoTime noonPrice [r, s] := by
  refine ⟨by decide +kernel, fun hfree => ?_⟩
  exact absurd (hfree _ (List.Perm.swap _ _ _)) (by decide +kernel)

end SmartHomeEnergy
