import SmartHomeEnergy.Cleaning.Filters
import SmartHomeEnergy.Warehouse.Sink

/-!
# Cutting the silver layer into batches

The daily warehouse is incremental: `write_to_postgres` sees the silver rows batch by
batch, and the upsert of a day overwrites what an earlier batch stored for it. So a day
that lies in several batches keeps the figures of the last of them alone, and they are the
figures of the whole day only if the earlier batches had nothing to add.

For rows of the silver layer, and as long as no device-hour is cut itself
(`SmartHomeEnergy.HoursWhole`), that is all there is to it:
`SmartHomeEnergy.splitIndependent_iff_earlierIdle` says that the table does not depend on
the cut exactly when every device-hour of a day, outside the last batch with that day, is
idle (`SmartHomeEnergy.EarlierIdle`).
-/

namespace SmartHomeEnergy

open Numeric Relational Transition

section Definitions

variable {D : Type} [DecidableEq D] (time : SparkTime D) (prices : List PriceRow)

/-- The row of a table under a key. -/
def storedDay (rows : List (DayRow D)) (k : D × String × String × Bool × Bool) :
    Option (DayRow D) := rows.find? fun r => conflictKey r = some k

/-- **The cut does not matter**: under every key there is the row that the whole list
gives in one batch. -/
def SplitIndependent (batches : List (List (Reading String))) : Prop :=
  ∀ k, storedDay (dailyTable time prices batches) k =
    storedDay (dailyTable time prices [batches.flatten]) k

/-! ### Device-hours and their days -/

/-- The batch has device-hours of a day. -/
def HasDay (k : D × String × String × Bool × Bool) (b : List (Reading String)) : Prop :=
  ∃ h ∈ groupKeys (hourKey time) b, (hourOf time b h).dayKey = storedKey k

/-- The hour has a price. -/
def Priced (hour : Option ℕ) : Prop := ∃ p ∈ prices, SameHour hour p ∧ p.pricePerKwh ≠ none

/-- The batch has device-hours of a day in an hour with a price. -/
def HasPricedDay (k : D × String × String × Bool × Bool) (b : List (Reading String)) : Prop :=
  ∃ h ∈ groupKeys (hourKey time) b,
    (hourOf time b h).dayKey = storedKey k ∧ Priced prices h.hourOfDay

/-- The device used nothing in the hour, and its first status is no fault. -/
def IdleHour (b : List (Reading String)) (h : HourKey D) : Prop :=
  (∀ r ∈ groupRows (hourKey time) b h, r.powerConsumptionWatts = some 0) ∧
    first ((groupRows (hourKey time) b h).map (·.status)) ∉
      [some "SENSOR_FAULT", some "LOST_SIGNAL"]

/-- No device-hour has readings in two batches. -/
def HoursWhole (batches : List (List (Reading String))) : Prop :=
  batches.Pairwise (KeyDisjoint (hourKey time))

/-- A device-hour in a batch before the last one with its day is idle, and its price is
not the only one of the day. -/
def EarlierIdle (batches : List (List (Reading String))) : Prop :=
  ∀ k pre c post, batches = pre ++ c :: post → HasDay time k c → (∀ b ∈ post, ¬HasDay time k b) →
    ∀ b ∈ pre, ∀ h ∈ groupKeys (hourKey time) b, (hourOf time b h).dayKey = storedKey k →
      IdleHour time b h ∧ (Priced prices h.hourOfDay → HasPricedDay time prices k c)

/-- The device-hours of a day in a batch, each with its prices. -/
def dayHours (k : D × String × String × Bool × Bool) (b : List (Reading String)) :
    List (HourRow D × Option PriceRow) :=
  groupRows (fun p => p.1.dayKey) (joinedBatch time prices b) (storedKey k)

end Definitions

variable {D : Type} [DecidableEq D] {time : SparkTime D} {prices : List PriceRow}
  {k : D × String × String × Bool × Bool} {b c : List (Reading String)}
  {batches pre post : List (List (Reading String))}

theorem mem_dayHours {p : HourRow D × Option PriceRow} : p ∈ dayHours time prices k b ↔
    ∃ h ∈ groupKeys (hourKey time) b, (hourOf time b h).dayKey = storedKey k ∧
      p.1 = hourOf time b h ∧
      p.2 ∈ joinMatches (fun (r : HourRow D) q => SameHour r.key.hourOfDay q) prices p.1 := by
  rw [dayHours, mem_groupRows, mem_joinedBatch]
  constructor
  · rintro ⟨⟨⟨h, hh, he⟩, hm⟩, hday⟩
    exact ⟨h, hh, he ▸ hday, he, hm⟩
  · rintro ⟨h, hh, hday, he, hm⟩
    exact ⟨⟨⟨h, hh, he⟩, hm⟩, he ▸ hday⟩

/-- A batch has device-hours of a day when it has joined ones. -/
theorem dayHours_eq_nil (prices : List PriceRow) :
    dayHours time prices k b = [] ↔ ¬HasDay time k b := by
  rw [← not_iff_not, not_not]
  constructor
  · intro hne
    obtain ⟨p, hp⟩ := List.exists_mem_of_ne_nil _ hne
    obtain ⟨h, hh, hday, -⟩ := mem_dayHours.mp hp
    exact ⟨h, hh, hday⟩
  · rintro ⟨h, hh, hday⟩
    obtain ⟨q, hq⟩ := List.exists_mem_of_ne_nil _ (joinMatches_ne_nil
      (fun (r : HourRow D) q => SameHour r.key.hourOfDay q) prices (hourOf time b h))
    exact List.ne_nil_of_mem (mem_dayHours.mpr ⟨h, hh, hday, rfl, hq⟩ :
      (hourOf time b h, q) ∈ dayHours time prices k b)

/-! ### What is stored under a key -/

/-- The rows of a batch under a key: one, if the batch has the day. -/
theorem filter_finalAnalyticsDf :
    (finalAnalyticsDf time prices b).filter (fun r => conflictKey r = some k) =
      if dayHours time prices k b = [] then []
      else [dayRow (storedKey k) (dayHours time prices k b)] := by
  have hp : ((finalAnalyticsDf time prices b).filter fun r => conflictKey r = some k) =
      groupBy (fun p => p.1.dayKey) dayRow (dayHours time prices k b) := by
    have hkey : ∀ (K : DayKey D) rows, (dayRow K rows).key = K := fun _ _ => rfl
    rw [dayHours, groupRows, ← filter_groupBy hkey (· = storedKey k)]
    exact List.filter_congr fun r _ => by simp [conflictKey_eq_some]
  rw [hp]
  split
  next h => simp [h]
  next h => exact groupBy_of_const h fun p hp => (mem_groupRows.mp hp).2

theorem storedDay_dailyTable :
    storedDay (dailyTable time prices batches) k =
      (batches.flatMap fun b => if dayHours time prices k b = [] then []
        else [dayRow (storedKey k) (dayHours time prices k b)]).getLast? := by
  have hfind := Table.find_upsertAll dayUpsert_overwrites (Table.empty : Analytics D)
    (batches.flatMap (finalAnalyticsDf time prices)) k
  rw [List.filter_flatMap, Table.find_empty, Option.or_none] at hfind
  rw [storedDay, dailyTable_eq]
  exact hfind.trans (congrArg List.getLast? (List.flatMap_congr fun b _ => filter_finalAnalyticsDf))

/-- **The last batch with a day decides what is stored for it.** -/
theorem storedDay_of_last (prices : List PriceRow) (pre : List (List (Reading String)))
    (hc : HasDay time k c) (hpost : ∀ b ∈ post, ¬HasDay time k b) :
    storedDay (dailyTable time prices (pre ++ c :: post)) k =
      some (dayRow (storedKey k) (dayHours time prices k c)) := by
  have hnil : (post.flatMap fun b => if dayHours time prices k b = [] then []
      else [dayRow (storedKey k) (dayHours time prices k b)]) = [] :=
    List.flatMap_eq_nil_iff.mpr fun b hb => if_pos ((dayHours_eq_nil prices).mpr (hpost b hb))
  rw [storedDay_dailyTable, List.flatMap_append, List.flatMap_cons, hnil,
    if_neg fun h => (dayHours_eq_nil prices).mp h hc]
  simp

/-- A day that no batch has is not stored. -/
theorem storedDay_of_none (prices : List PriceRow) (h : ∀ b ∈ batches, ¬HasDay time k b) :
    storedDay (dailyTable time prices batches) k = none := by
  rw [storedDay_dailyTable, List.getLast?_eq_none_iff]
  exact List.flatMap_eq_nil_iff.mpr fun b hb => if_pos ((dayHours_eq_nil prices).mpr (h b hb))

theorem joinedBatch_flatten (hw : HoursWhole time batches) :
    joinedBatch time prices batches.flatten = batches.flatMap (joinedBatch time prices) := by
  induction batches with
  | nil => rfl
  | cons b bs ih =>
    obtain ⟨hb, hbs⟩ := List.pairwise_cons.mp hw
    have hdisjoint : KeyDisjoint (hourKey time) b bs.flatten := by
      intro r hr r' hr'
      obtain ⟨c, hc, hrc⟩ := List.mem_flatten.mp hr'
      exact hb c hc r hr r' hrc
    rw [List.flatten_cons, joinedBatch_append hdisjoint, ih hbs, List.flatMap_cons]

/-- The device-hours of a day are those of the batches. -/
theorem dayHours_flatten (hw : HoursWhole time batches) :
    dayHours time prices k batches.flatten = batches.flatMap (dayHours time prices k) := by
  rw [dayHours, joinedBatch_flatten hw, groupRows, List.filter_flatMap]
  rfl

/-! ### Device-hours that add nothing -/

section Sums

variable {K : DayKey D} {xs ys : List (HourRow D × Option PriceRow)}

/-- What a device-hour has to be for the sums of a day to pass over it. -/
def AddsNothing (ys : List (HourRow D × Option PriceRow)) (p : HourRow D × Option PriceRow) :
    Prop :=
  p.1.avgWatts = some 0 ∧ p.1.status ∉ [some "SENSOR_FAULT", some "LOST_SIGNAL"] ∧
    (realCost p.1.avgWatts p.2 ≠ none → ∃ q ∈ ys, realCost q.1.avgWatts q.2 ≠ none)

omit [DecidableEq D] in
/-- Nonnegative figures that a sum passes over are zeros. -/
theorem addsNothing_of_dayRow (hnonneg : ∀ p ∈ xs ++ ys, ∃ w, p.1.avgWatts = some w ∧ 0 ≤ w)
    (h : dayRow K (xs ++ ys) = dayRow K ys) : ∀ p ∈ xs, AddsNothing ys p := by
  intro p hp
  refine ⟨?_, ?_, fun hcost => ?_⟩
  · have hkwh := congrArg (fun r => r.rawKwhSum.getD 0) h
    simp only [dayRow, getD_nullSum, List.map_append, List.sum_append, add_eq_right] at hkwh
    obtain ⟨w, hw, -⟩ := hnonneg p (List.mem_append_left _ hp)
    have hzero : w / 1000 = 0 := by
      refine List.all_zero_of_le_zero_le_of_sum_eq_zero ?_ hkwh (x := w / 1000) ?_
      · intro x hx
        simp only [List.map_map, List.mem_map, Function.comp_apply] at hx
        obtain ⟨q, hq, rfl⟩ := hx
        obtain ⟨v, hv, hv0⟩ := hnonneg q (List.mem_append_left _ hq)
        rw [hv, realKwh_some]
        exact div_nonneg hv0 (by norm_num)
      · simp only [List.map_map, List.mem_map, Function.comp_apply]
        exact ⟨p, hp, by rw [hw, realKwh_some]; rfl⟩
    rw [hw, (div_eq_zero_iff.mp hzero).resolve_right (by norm_num)]
  · have hsensor := congrArg DayRow.sensorFaultCount h
    have hsignal := congrArg DayRow.lostSignalCount h
    simp only [dayRow, List.map_append, List.sum_append, add_eq_right, List.sum_eq_zero_iff,
      List.forall_mem_map, hasStatus_eq_zero] at hsensor hsignal
    simp [hsensor p hp, hsignal p hp]
  · by_contra hnone
    push Not at hnone
    have hys : nullSum (ys.map fun q => realCost q.1.avgWatts q.2) = none :=
      nullSum_eq_none.mpr (List.forall_mem_map.mpr hnone)
    have hall := congrArg DayRow.estimatedCostYer h
    simp only [dayRow, round2, hys, Option.map_none, Option.map_eq_none_iff,
      nullSum_eq_none] at hall
    exact hcost (hall _ (List.mem_map.mpr ⟨p, List.mem_append_left _ hp, rfl⟩))

omit [DecidableEq D] in
/-- Device-hours that add nothing leave every figure of the day as it is. -/
theorem dayRow_of_addsNothing (hys : ys ≠ [])
    (hnonneg : ∀ p ∈ xs ++ ys, ∃ w, p.1.avgWatts = some w ∧ 0 ≤ w)
    (h : ∀ p ∈ xs, AddsNothing ys p) : dayRow K (xs ++ ys) = dayRow K ys := by
  -- a sum passes over zeros as long as it has something else to add up: `q` below
  obtain ⟨q, hq⟩ := List.exists_mem_of_ne_nil ys hys
  obtain ⟨v, hv, -⟩ := hnonneg q (List.mem_append_right _ hq)
  have hkwh : nullSum ((xs ++ ys).map fun p => realKwh p.1.avgWatts) =
      nullSum (ys.map fun p => realKwh p.1.avgWatts) := by
    rw [List.map_append]
    refine nullSum_append_of_zeros ?_ fun _ => ⟨_, List.mem_map_of_mem hq, by simp [hv, realKwh]⟩
    exact List.forall_mem_map.mpr fun p hp => Or.inr (by rw [(h p hp).1, realKwh_some, zero_div])
  have hcost : nullSum ((xs ++ ys).map fun p => realCost p.1.avgWatts p.2) =
      nullSum (ys.map fun p => realCost p.1.avgWatts p.2) := by
    rw [List.map_append]
    refine nullSum_append_of_zeros ?_ ?_
    · refine List.forall_mem_map.mpr fun p hp => ?_
      rw [(h p hp).1, realCost, realKwh_some]
      cases p.2.bind (·.pricePerKwh) <;> simp
    · rintro ⟨x, hx, hne⟩
      obtain ⟨p, hp, rfl⟩ := List.mem_map.mp hx
      obtain ⟨q, hq, hqc⟩ := (h p hp).2.2 hne
      exact ⟨_, List.mem_map_of_mem hq, hqc⟩
  have hwasted : nullSum ((xs ++ ys).map fun p => wastedKwh p.1) =
      nullSum (ys.map fun p => wastedKwh p.1) := by
    rw [List.map_append]
    refine nullSum_append_of_zeros ?_ fun _ => ⟨_, List.mem_map_of_mem hq, ?_⟩
    · refine List.forall_mem_map.mpr fun p hp => ?_
      simp [wastedKwh, (h p hp).1]
    · rw [wastedKwh, hv, realKwh_some]
      split <;> simp
  have hsum : ∀ s, s = "SENSOR_FAULT" ∨ s = "LOST_SIGNAL" →
      ((xs ++ ys).map fun p => hasStatus s p.1).sum = (ys.map fun p => hasStatus s p.1).sum := by
    intro s hs
    rw [List.map_append, List.sum_append, add_eq_right, List.sum_eq_zero_iff]
    refine List.forall_mem_map.mpr fun p hp => hasStatus_eq_zero.mpr fun he => ?_
    exact (h p hp).2.1 (by rcases hs with rfl | rfl <;> simp [he])
  simp only [dayRow, hkwh, hcost, hwasted, hsum _ (Or.inl rfl), hsum _ (Or.inr rfl)]

end Sums

/-! ### Rows of the silver layer -/

/-- A batch of the silver layer. -/
def Silver (b : List (Reading String)) : Prop := ∀ r ∈ b, (silverCleanedDf r).Holds

instance (b : List (Reading String)) : Decidable (Silver b) :=
  inferInstanceAs (Decidable (∀ r ∈ b, _))

section Silver

variable {p : HourRow D × Option PriceRow}

/-- The mean of a device-hour is there, and zero only for an idle one. -/
theorem avgWatts_hourOf (hb : Silver b) {h : HourKey D} (hh : h ∈ groupKeys (hourKey time) b) :
    ∃ w, (hourOf time b h).avgWatts = some w ∧ 0 ≤ w ∧
      (w = 0 ↔ ∀ r ∈ groupRows (hourKey time) b h, r.powerConsumptionWatts = some 0) := by
  have hpowers : ∀ x ∈ (groupRows (hourKey time) b h).map (·.powerConsumptionWatts),
      ∃ v, x = some v ∧ 0 ≤ v := by
    refine List.forall_mem_map.mpr fun r hr => ?_
    obtain ⟨v, hv, h0, -⟩ := holds_silverCleanedDf.mp (hb r (mem_groupRows.mp hr).1)
    exact ⟨v, hv, h0⟩
  have hne : (groupRows (hourKey time) b h).map (·.powerConsumptionWatts) ≠ [] := fun h0 =>
    groupRows_ne_nil hh (List.map_eq_nil_iff.mp h0)
  obtain ⟨w, hw, h0, hzero⟩ := nullAvg_of_nonneg hne hpowers
  exact ⟨w, hw, h0, hzero.trans List.forall_mem_map⟩

theorem nonneg_of_mem_dayHours (hb : Silver b) (hp : p ∈ dayHours time prices k b) :
    ∃ w, p.1.avgWatts = some w ∧ 0 ≤ w := by
  obtain ⟨h, hh, -, he, -⟩ := mem_dayHours.mp hp
  obtain ⟨w, hw, h0, -⟩ := avgWatts_hourOf hb hh
  exact ⟨w, he ▸ hw, h0⟩

/-- A device-hour has a cost with one of its prices when its hour has a price. -/
theorem exists_realCost (hb : Silver b) {h : HourKey D} (hh : h ∈ groupKeys (hourKey time) b)
    (hday : (hourOf time b h).dayKey = storedKey k) (hpriced : Priced prices h.hourOfDay) :
    ∃ q ∈ dayHours time prices k b, q.1 = hourOf time b h ∧
      realCost q.1.avgWatts q.2 ≠ none := by
  obtain ⟨price, hm, hsame, hkwh⟩ := hpriced
  obtain ⟨w, hw, -⟩ := avgWatts_hourOf hb hh
  refine ⟨(hourOf time b h, some price), mem_dayHours.mpr ⟨h, hh, hday, rfl, ?_⟩, rfl, ?_⟩
  · exact (some_mem_joinMatches _ _).mpr ⟨hm, hsame⟩
  · rw [hw, realCost_ne_none]
    exact ⟨price, rfl, hkwh⟩

/-- A device-hour with a cost has a price. -/
theorem priced_of_realCost (hb : Silver b) (hp : p ∈ dayHours time prices k b)
    (hcost : realCost p.1.avgWatts p.2 ≠ none) : Priced prices p.1.key.hourOfDay := by
  obtain ⟨w, hw, -⟩ := nonneg_of_mem_dayHours hb hp
  obtain ⟨h, hh, hday, he, hm⟩ := mem_dayHours.mp hp
  rw [hw, realCost_ne_none] at hcost
  obtain ⟨price, hprice, hkwh⟩ := hcost
  rw [hprice] at hm
  obtain ⟨hmem, hsame⟩ := (some_mem_joinMatches _ _).mp hm
  exact ⟨price, hmem, hsame, hkwh⟩

theorem hasPricedDay_iff (hc : Silver c) : HasPricedDay time prices k c ↔
    ∃ q ∈ dayHours time prices k c, realCost q.1.avgWatts q.2 ≠ none := by
  constructor
  · rintro ⟨h, hh, hday, hpriced⟩
    obtain ⟨q, hq, -, hcost⟩ := exists_realCost hc hh hday hpriced
    exact ⟨q, hq, hcost⟩
  · rintro ⟨q, hq, hcost⟩
    have hpriced := priced_of_realCost hc hq hcost
    obtain ⟨h, hh, hday, he, -⟩ := mem_dayHours.mp hq
    exact ⟨h, hh, hday, by rwa [he] at hpriced⟩

/-- **The device-hours of a day that add nothing** are the idle ones. -/
theorem addsNothing_iff (hb : Silver b) (hc : Silver c) :
    (∀ p ∈ dayHours time prices k b, AddsNothing (dayHours time prices k c) p) ↔
      ∀ h ∈ groupKeys (hourKey time) b, (hourOf time b h).dayKey = storedKey k →
        IdleHour time b h ∧ (Priced prices h.hourOfDay → HasPricedDay time prices k c) := by
  constructor
  · intro hall h hh hday
    obtain ⟨w, hw, -, hzero⟩ := avgWatts_hourOf hb hh
    obtain ⟨q, hq⟩ := List.exists_mem_of_ne_nil _ (joinMatches_ne_nil
      (fun (r : HourRow D) q => SameHour r.key.hourOfDay q) prices (hourOf time b h))
    obtain ⟨hwatts, hstatus, -⟩ := hall (hourOf time b h, q)
      (mem_dayHours.mpr ⟨h, hh, hday, rfl, hq⟩)
    refine ⟨⟨hzero.mp (Option.some.inj (hw.symm.trans hwatts)), hstatus⟩, fun hpriced => ?_⟩
    obtain ⟨p, hp, -, hcost⟩ := exists_realCost hb hh hday hpriced
    exact (hasPricedDay_iff hc).mpr ((hall p hp).2.2 hcost)
  · intro hall p hp
    obtain ⟨h, hh, hday, he, -⟩ := mem_dayHours.mp hp
    obtain ⟨⟨hpowers, hstatus⟩, hprice⟩ := hall h hh hday
    obtain ⟨w, hw, -, hzero⟩ := avgWatts_hourOf hb hh
    refine ⟨?_, ?_, fun hcost => (hasPricedDay_iff hc).mp (hprice ?_)⟩
    · rw [he, hw, hzero.mpr hpowers]
    · rw [he]
      exact hstatus
    · have hpriced := priced_of_realCost hb hp hcost
      rwa [he] at hpriced

end Silver

/-! ### The cut, day by day -/

/-- The last element with a property. -/
theorem exists_last {α : Type*} {q : α → Prop} : ∀ {l : List α}, (∃ a ∈ l, q a) →
    ∃ pre a post, l = pre ++ a :: post ∧ q a ∧ ∀ b ∈ post, ¬q b
  | [], h => by simp at h
  | a :: l, h => by
    by_cases hl : ∃ b ∈ l, q b
    · obtain ⟨pre, b, post, rfl, hb, hpost⟩ := exists_last hl
      exact ⟨a :: pre, b, post, rfl, hb, hpost⟩
    · push Not at hl
      obtain ⟨b, hb, hq⟩ := h
      have ha : b = a := (List.mem_cons.mp hb).resolve_right fun hbl => hl b hbl hq
      exact ⟨[], a, l, rfl, ha ▸ hq, hl⟩

/-- The cut does not matter exactly when, for every day, the earlier batches leave the
figures of the last one as they are. -/
theorem splitIndependent_iff (hw : HoursWhole time batches) :
    SplitIndependent time prices batches ↔
      ∀ k pre c post, batches = pre ++ c :: post → HasDay time k c →
        (∀ b ∈ post, ¬HasDay time k b) →
        dayRow (storedKey k) (pre.flatMap (dayHours time prices k) ++ dayHours time prices k c) =
          dayRow (storedKey k) (dayHours time prices k c) := by
  refine forall_congr' fun k => ?_
  -- the row of the whole list, when the last batch with the day is known
  have hwhole : ∀ pre c post, batches = pre ++ c :: post → HasDay time k c →
      (∀ b ∈ post, ¬HasDay time k b) → storedDay (dailyTable time prices [batches.flatten]) k =
        some (dayRow (storedKey k)
          (pre.flatMap (dayHours time prices k) ++ dayHours time prices k c)) := by
    intro pre c post he hc hpost
    have hnil : post.flatMap (dayHours time prices k) = [] :=
      List.flatMap_eq_nil_iff.mpr fun b hb => (dayHours_eq_nil prices).mpr (hpost b hb)
    have hflat : dayHours time prices k batches.flatten =
        pre.flatMap (dayHours time prices k) ++ dayHours time prices k c := by
      rw [dayHours_flatten hw, he, List.flatMap_append, List.flatMap_cons, hnil, List.append_nil]
    have hall : HasDay time k batches.flatten := by
      rw [← not_not (a := HasDay time k _), ← dayHours_eq_nil prices, hflat]
      exact fun h => (dayHours_eq_nil prices).mp (List.append_eq_nil_iff.mp h).2 hc
    rw [← hflat]
    exact storedDay_of_last prices [] hall (by simp)
  constructor
  · intro hk pre c post he hc hpost
    have hlast := storedDay_of_last prices pre hc hpost
    rw [← he, hk, hwhole pre c post he hc hpost] at hlast
    exact Option.some.inj hlast
  · intro hk
    by_cases hday : ∃ b ∈ batches, HasDay time k b
    · obtain ⟨pre, c, post, he, hc, hpost⟩ := exists_last hday
      have hlast := storedDay_of_last prices pre hc hpost
      rw [hwhole pre c post he hc hpost, hk pre c post he hc hpost, ← hlast, he]
    · push Not at hday
      have hflat : ¬HasDay time k batches.flatten := by
        rw [← dayHours_eq_nil prices, dayHours_flatten hw]
        exact List.flatMap_eq_nil_iff.mpr fun b hb => (dayHours_eq_nil prices).mpr (hday b hb)
      rw [storedDay_of_none prices hday, storedDay_of_none prices (by simpa using hflat)]

/-- **When the cut does not matter**: it is enough that no device-hour is cut and that the
device-hours of a day outside the last batch with that day are idle; and as long as no
device-hour is cut, nothing less is. -/
theorem splitIndependent_iff_earlierIdle (time : SparkTime D) (prices : List PriceRow)
    (batches : List (List (Reading String))) (hsilver : ∀ b ∈ batches, Silver b) :
    (HoursWhole time batches ∧ EarlierIdle time prices batches →
      SplitIndependent time prices batches) ∧
    (HoursWhole time batches → SplitIndependent time prices batches →
      EarlierIdle time prices batches) := by
  -- both directions compare the same sums, device-hour by device-hour
  suffices hiff : HoursWhole time batches →
      (SplitIndependent time prices batches ↔ EarlierIdle time prices batches) from
    ⟨fun h => (hiff h.1).mpr h.2, fun hw => (hiff hw).mp⟩
  intro hw
  rw [splitIndependent_iff hw]
  refine forall_congr' fun k => forall_congr' fun pre => forall_congr' fun c =>
    forall_congr' fun post => forall_congr' fun he => forall_congr' fun hc =>
    forall_congr' fun hpost => ?_
  have hsilver' : ∀ b ∈ pre, Silver b := fun b hb => hsilver b (by simp [he, hb])
  have hsilverc : Silver c := hsilver c (by simp [he])
  have hnonneg : ∀ p ∈ pre.flatMap (dayHours time prices k) ++ dayHours time prices k c,
      ∃ w, p.1.avgWatts = some w ∧ 0 ≤ w := by
    intro p hp
    rcases List.mem_append.mp hp with hp | hp
    · obtain ⟨b, hb, hpb⟩ := List.mem_flatMap.mp hp
      exact nonneg_of_mem_dayHours (hsilver' b hb) hpb
    · exact nonneg_of_mem_dayHours hsilverc hp
  have hday : (∀ p ∈ pre.flatMap (dayHours time prices k),
      AddsNothing (dayHours time prices k c) p) ↔
      ∀ b ∈ pre, ∀ h ∈ groupKeys (hourKey time) b, (hourOf time b h).dayKey = storedKey k →
        IdleHour time b h ∧ (Priced prices h.hourOfDay → HasPricedDay time prices k c) := by
    rw [List.forall_mem_flatMap]
    exact forall₂_congr fun b hb => addsNothing_iff (hsilver' b hb) hsilverc
  rw [← hday]
  exact ⟨addsNothing_of_dayRow hnonneg,
    dayRow_of_addsNothing (fun h => (dayHours_eq_nil prices).mp h hc) hnonneg⟩

/-- A price for noon. -/
def noonPrice : List PriceRow := [⟨some 12, some 20⟩]

/-- The refrigerator at noon and an hour later, in two batches: the hour at noon, and its
cost, are lost. -/
theorem not_splitIndependent :
    let batches := [[fridgeAt "2026-01-01 12:00:00"], [fridgeAt "2026-01-01 13:00:00"]]
    (∀ b ∈ batches, b ≠ [] ∧ Silver b) ∧ ¬SplitIndependent isoTime noonPrice batches := by
  refine ⟨by decide +kernel, fun h => ?_⟩
  exact absurd (h ("2026-01-01", "Kitchen", "Critical_Appliance", true, false))
    (by decide +kernel)

/-- The refrigerator without power, an hour before noon. -/
def idleMorning : Reading String :=
  { fridgeAt "2026-01-01 11:00:00" with powerConsumptionWatts := some 0 }

/-- A day that is cut behind its idle hour is stored as a whole. -/
theorem splitIndependent_idleMorning :
    SplitIndependent isoTime noonPrice [[idleMorning], [fridgeAt "2026-01-01 12:00:00"]] := by
  refine (splitIndependent_iff_earlierIdle isoTime noonPrice _ (by decide +kernel)).1
    ⟨List.pairwise_pair.mpr ?_, ?_⟩
  · intro r hr r' hr'
    rw [List.mem_singleton.mp hr, List.mem_singleton.mp hr']
    decide +kernel
  · rintro k pre c post he - - b hb h hh -
    have hidle : ∀ h ∈ groupKeys (hourKey isoTime) [idleMorning],
        IdleHour isoTime [idleMorning] h ∧ ¬Priced noonPrice h.hourOfDay := by
      unfold IdleHour Priced
      decide +kernel
    rcases pre with _ | ⟨b₁, _ | ⟨b₂, pre⟩⟩
    · exact absurd hb List.not_mem_nil
    · obtain ⟨rfl, -, -⟩ : _ = b₁ ∧ _ = c ∧ [] = post := by simpa using he
      rw [List.mem_singleton.mp hb] at hh ⊢
      obtain ⟨hzero, hprice⟩ := hidle h hh
      exact ⟨hzero, fun hpriced => absurd hpriced hprice⟩
    · simp at he

end SmartHomeEnergy
