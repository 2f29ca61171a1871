import Mathlib.Data.List.Sort
import SmartHomeEnergy.Live.Pipeline
import SmartHomeEnergy.Numeric.Rounding
import SmartHomeEnergy.Relational.Join
import SmartHomeEnergy.Relational.Like

/-!
# The live view of the dashboard

`get_violated_devices` shows, for every device type of the last ten minutes of the live table,
what it costs, next to a limit from `device_thresholds`. Both come from one query: the rows of
the last ten minutes are joined with the thresholds, and grouped by device type.

The cost is a mean over the joined rows, where a row stands once for each threshold it is joined
with. Which ones these are is a matter of the device type alone, so they are equally many for
all rows of a group, and no threshold changes the mean (`SmartHomeEnergy.costs_perm_liveCosts`).

The limit is the largest of the thresholds the rows are joined with, and these are not only the
ones saved under the name of the device type: a name may also contain the device type, or be
contained in it, each read as a pattern of the other. A limit is the largest one saved under the
name of the type only while no other name brings in a larger one
(`SmartHomeEnergy.shows_ownLimit_iff`).
-/

namespace SmartHomeEnergy

open Relational Numeric

/-! ### The query -/

/-- The columns of `device_thresholds` that the query reads. -/
structure LimitRow where
  deviceName : Option String
  maxPriceLimitUsd : Option ℚ
  deriving DecidableEq

/-- A row of the result. -/
structure ViolatedDevice where
  deviceName : Option String
  max10minLimit : Option ℚ
  current10minCost : Option ℚ
  deriving DecidableEq

/-- `MAX(window_end)`. -/
def newestEnd (rows : List WindowedRow) : Option ℤ := (rows.filterMap (·.windowEnd)).max?

/-- `s.window_end >= (SELECT MAX(window_end) - INTERVAL '10 minutes' FROM …)`. -/
def inLastTenMinutes (rows : List WindowedRow) (r : WindowedRow) : Tri :=
  (newestEnd rows).bind fun newest => test (fun e => newest - minutes 10 ≤ e) r.windowEnd

/-- The rows of the last ten minutes. -/
def recentRows (rows : List WindowedRow) : List WindowedRow :=
  rows.filter fun r => (inLastTenMinutes rows r).Holds

section Query

variable (lower : String → String)

/-- The condition of the join, `lower` being `LOWER`. -/
def joinCondition (deviceType deviceName : Option String) : Tri :=
  (nullLike (deviceType.map lower) ((deviceName.map lower).map containing)).or
    (nullLike (deviceName.map lower) ((deviceType.map lower).map containing))

/-- A threshold is joined with the rows of a device type. -/
def Concerns (deviceType : Option String) (t : LimitRow) : Prop :=
  (joinCondition lower deviceType t.deviceName).Holds

instance (deviceType : Option String) (t : LimitRow) : Decidable (Concerns lower deviceType t) :=
  inferInstanceAs (Decidable (Tri.Holds _))

/-- `ROUND((AVG(s.avg_power_watts) * 0.05)::numeric, 2)`. -/
def liveCost (rows : List WindowedRow) : Option ℚ :=
  (nullAvg (rows.map (·.avgPowerWatts))).map fun w => roundTo halfUp 2 (w * 0.05)

/-- The output row of a group. -/
def violatedDevice (deviceType : Option String) (joined : List (WindowedRow × Option LimitRow)) :
    ViolatedDevice where
  deviceName := deviceType
  max10minLimit := nullMax (joined.map fun p => p.2.bind (·.maxPriceLimitUsd))
  current10minCost := liveCost (joined.map (·.1))

/-- `ORDER BY current_10min_cost DESC`, where a null comes first. -/
def CostsMore (v w : ViolatedDevice) : Prop :=
  ∀ a ∈ v.current10minCost, ∃ b ∈ w.current10minCost, b ≤ a

instance : DecidableRel CostsMore := fun v w => by
  unfold CostsMore
  infer_instance

/-- The rows the query returns. -/
def devicesSummary (rows : List WindowedRow) (thresholds : List LimitRow) : List ViolatedDevice :=
  List.insertionSort CostsMore
    (groupBy (fun p : WindowedRow × Option LimitRow => p.1.deviceType) violatedDevice
      (leftJoin (fun s t => Concerns lower s.deviceType t) (recentRows rows) thresholds))

/-- `get_violated_devices`: when the query raises, the exception is printed, and nothing is
returned. -/
def getViolatedDevices (raises : Bool) (rows : List WindowedRow) (thresholds : List LimitRow) :
    List ViolatedDevice :=
  if raises then [] else devicesSummary lower rows thresholds

/-! ### What the query returns -/

/-- The largest limit of the thresholds that are joined with a device type. -/
def joinedLimit (thresholds : List LimitRow) (deviceType : Option String) : Option ℚ :=
  nullMax ((thresholds.filter fun t => Concerns lower deviceType t).map (·.maxPriceLimitUsd))

/-- The output row of a group, without the join. -/
def liveDevice (thresholds : List LimitRow) (deviceType : Option String)
    (rows : List WindowedRow) : ViolatedDevice where
  deviceName := deviceType
  max10minLimit := joinedLimit lower thresholds deviceType
  current10minCost := liveCost rows

/-- The rows of a group are all joined with the same thresholds. -/
theorem violatedDevice_leftJoin {thresholds : List LimitRow} {deviceType : Option String}
    {rows : List WindowedRow} (hne : rows ≠ []) (htype : ∀ r ∈ rows, r.deviceType = deviceType) :
    violatedDevice deviceType
        (leftJoin (fun s t => Concerns lower s.deviceType t) rows thresholds) =
      liveDevice lower thresholds deviceType rows := by
  obtain ⟨a, ha⟩ := List.exists_mem_of_ne_nil rows hne
  have hmatches : ∀ r ∈ rows, joinMatches (fun s t => Concerns lower s.deviceType t) thresholds r =
      joinMatches (fun s t => Concerns lower s.deviceType t) thresholds a := fun r hr =>
    joinMatches_congr fun t _ => by rw [htype r hr, htype a ha]
  rw [leftJoin_of_uniform hmatches, violatedDevice, liveDevice, liveCost, liveCost,
    nullMax_product hne, List.map_map]
  congr 1
  · rw [joinedLimit, htype a ha]
  · exact congrArg _ (nullAvg_product (joinMatches_ne_nil _ _ _) _ _)

/-- **What the query returns**: a row for every device type of the last ten minutes, with the
largest limit it is joined with, and the cost that the join does not change. -/
theorem devicesSummary_perm (rows : List WindowedRow) (thresholds : List LimitRow) :
    (devicesSummary lower rows thresholds).Perm
      (groupBy (·.deviceType) (liveDevice lower thresholds) (recentRows rows)) := by
  refine (List.perm_insertionSort _ _).trans (groupBy_leftJoin_perm fun k hk => ?_)
  exact violatedDevice_leftJoin lower (groupRows_ne_nil hk) fun r hr => (mem_groupRows.mp hr).2

/-- What is returned depends on the rows of the last ten minutes only. -/
theorem devicesSummary_perm_of_recentRows {rows rows' : List WindowedRow}
    (h : (recentRows rows).Perm (recentRows rows')) (thresholds : List LimitRow) :
    (devicesSummary lower rows thresholds).Perm (devicesSummary lower rows' thresholds) := by
  refine (devicesSummary_perm lower rows thresholds).trans
    (List.Perm.trans ?_ (devicesSummary_perm lower rows' thresholds).symm)
  refine (groupBy_perm_iff ViolatedDevice.deviceName fun _ _ => rfl).mpr
    ⟨mem_groupKeys_of_perm h, fun k _ => ?_⟩
  have hgroup : (groupRows (·.deviceType) (recentRows rows) k).Perm
      (groupRows (·.deviceType) (recentRows rows') k) := h.filter _
  rw [liveDevice, liveDevice, liveCost, liveCost, nullAvg_perm (hgroup.map _)]

end Query

/-! ### The cost -/

/-- The window of a row ended at most ten minutes before that of any other. -/
def EndedRecently (rows : List WindowedRow) (r : WindowedRow) : Prop :=
  ∃ e ∈ r.windowEnd, ∀ r' ∈ rows, ∀ e' ∈ r'.windowEnd, e' ≤ e + minutes 10

instance (rows : List WindowedRow) : DecidablePred (EndedRecently rows) := fun r =>
  inferInstanceAs (Decidable (∃ e ∈ r.windowEnd, _))

/-- The mean of some powers times 0.05, rounded to two decimals. -/
def costOfMean (powers : List ℚ) : Option ℚ :=
  if powers = [] then none
  else some (roundTo halfUp 2 (powers.sum / powers.length * 0.05))

/-- **What a type costs**: the types of the rows whose windows ended recently, each with the cost
of the mean of their powers. -/
def liveCosts (rows : List WindowedRow) : List (Option String × Option ℚ) :=
  let recent := rows.filter fun r => EndedRecently rows r
  (recent.map (·.deviceType)).dedup.map fun deviceType =>
    (deviceType, costOfMean
      ((recent.filter fun r => r.deviceType = deviceType).filterMap (·.avgPowerWatts)))

/-- What is shown as the cost of the device types. -/
def shownCosts (devices : List ViolatedDevice) : List (Option String × Option ℚ) :=
  devices.map fun v => (v.deviceName, v.current10minCost)

/-- The rows of the last ten minutes are those whose windows ended recently. -/
theorem recentRows_eq_endedRecently (rows : List WindowedRow) :
    recentRows rows = rows.filter fun r => EndedRecently rows r := by
  refine List.filter_congr fun r hr => decide_eq_decide.mpr ?_
  rw [inLastTenMinutes, newestEnd, EndedRecently]
  cases hnewest : (rows.filterMap (·.windowEnd)).max? with
  | none =>
    -- no row has an end
    have hnone : r.windowEnd = none := by
      refine Option.eq_none_iff_forall_ne_some.mpr fun e he => ?_
      have hmem : e ∈ rows.filterMap (·.windowEnd) := List.mem_filterMap.mpr ⟨r, hr, he⟩
      rw [List.max?_eq_none_iff.mp hnewest] at hmem
      exact List.not_mem_nil hmem
    simp [hnone, Tri.Holds]
  | some newest =>
    obtain ⟨hfound, hmax⟩ := List.max?_eq_some_iff.mp hnewest
    obtain ⟨r₀, hr₀, hr₀e⟩ := List.mem_filterMap.mp hfound
    rw [Option.bind_some, holds_test]
    refine exists_congr fun e => and_congr_right fun _ => ⟨fun hle r' hr' e' he' => ?_, fun h => ?_⟩
    · have hle' := hmax e' (List.mem_filterMap.mpr ⟨r', hr', he'⟩)
      omega
    · have hle := h r₀ hr₀ newest hr₀e
      omega

/-- The query computes the cost of the mean. -/
theorem liveCost_eq (rows : List WindowedRow) :
    liveCost rows = costOfMean (rows.filterMap (·.avgPowerWatts)) := by
  have hpowers : (rows.map (·.avgPowerWatts)).reduceOption = rows.filterMap (·.avgPowerWatts) :=
    List.filterMap_map ..
  rw [liveCost, nullAvg, hpowers, costOfMean]
  split <;> rfl

/-- **The costs are those of the live table**, computed without the join. -/
theorem shownCosts_perm (lower : String → String) (rows : List WindowedRow)
    (thresholds : List LimitRow) :
    (shownCosts (getViolatedDevices lower false rows thresholds)).Perm (liveCosts rows) := by
  have hperm := (devicesSummary_perm lower rows thresholds).map fun v =>
    (v.deviceName, v.current10minCost)
  rw [groupBy, List.map_map, recentRows_eq_endedRecently] at hperm
  refine hperm.trans (List.Perm.of_eq ?_)
  exact List.map_congr_left fun deviceType _ => Prod.ext rfl (liveCost_eq _)

/-- **No threshold changes a cost.** -/
theorem costs_perm_liveCosts (lower : String → String) (rows : List WindowedRow)
    (thresholds thresholds' : List LimitRow) :
    (shownCosts (getViolatedDevices lower false rows thresholds)).Perm (liveCosts rows) ∧
      (shownCosts (getViolatedDevices lower false rows thresholds)).Perm
        (shownCosts (getViolatedDevices lower false rows thresholds')) :=
  ⟨shownCosts_perm lower rows thresholds,
    (shownCosts_perm lower rows thresholds).trans (shownCosts_perm lower rows thresholds').symm⟩

/-! ### The limit -/

section Limit

variable (lower : String → String)

/-- A threshold is saved under the name of a device type, whatever the case. -/
def SameNamed (deviceType : String) (t : LimitRow) : Prop :=
  ∃ name ∈ t.deviceName, lower name = lower deviceType

instance (deviceType : String) (t : LimitRow) : Decidable (SameNamed lower deviceType t) := by
  unfold SameNamed
  infer_instance

/-- The thresholds saved under the name of a device type. -/
def ownThresholds (thresholds : List LimitRow) (deviceType : String) : List LimitRow :=
  thresholds.filter fun t => SameNamed lower deviceType t

/-- The largest limit saved under the name of a device type. -/
def ownLimit (thresholds : List LimitRow) (deviceType : String) : Option ℚ :=
  nullMax ((ownThresholds lower thresholds deviceType).map (·.maxPriceLimitUsd))

/-- A limit is shown for a device type. -/
def ShowsLimit (devices : List ViolatedDevice) (deviceType : String) (limit : Option ℚ) : Prop :=
  ∃ v ∈ devices, v.deviceName = some deviceType ∧ v.max10minLimit = limit

instance (devices : List ViolatedDevice) (deviceType : String) (limit : Option ℚ) :
    Decidable (ShowsLimit devices deviceType limit) :=
  inferInstanceAs (Decidable (∃ v ∈ devices, _))

variable {lower} {rows : List WindowedRow} {thresholds : List LimitRow} {deviceType : String}
  {t : LimitRow}

/-- What is shown for a device type of the last ten minutes. -/
theorem showsLimit_iff (htype : ∃ r ∈ recentRows rows, r.deviceType = some deviceType)
    (limit : Option ℚ) :
    ShowsLimit (getViolatedDevices lower false rows thresholds) deviceType limit ↔
      joinedLimit lower thresholds (some deviceType) = limit := by
  have hmem : ∀ v, v ∈ getViolatedDevices lower false rows thresholds ↔
      v ∈ groupBy (·.deviceType) (liveDevice lower thresholds) (recentRows rows) := fun v =>
    (devicesSummary_perm lower rows thresholds).mem_iff
  constructor
  · rintro ⟨v, hv, hname, rfl⟩
    obtain ⟨k, -, rfl⟩ := mem_groupBy.mp ((hmem v).mp hv)
    exact congrArg (joinedLimit lower thresholds) hname.symm
  · rintro rfl
    exact ⟨_, (hmem _).mpr (mem_groupBy.mpr ⟨some deviceType, mem_groupKeys.mpr htype, rfl⟩), rfl,
      rfl⟩

/-- A threshold saved under the name of a device type is joined with it when the name is one
that contains itself. -/
theorem concerns_of_sameNamed (h : SameNamed lower deviceType t) :
    Concerns lower (some deviceType) t ↔
      like (lower deviceType) (containing (lower deviceType)) := by
  obtain ⟨name, hname, he⟩ := h
  rw [Concerns, joinCondition, Option.mem_def.mp hname, Tri.holds_or]
  simp [he]

/-- A limit occurs among the thresholds that pass a filter. -/
theorem some_mem_limits {p : LimitRow → Prop} [DecidablePred p] {x : ℚ} :
    some x ∈ (thresholds.filter fun t => p t).map (·.maxPriceLimitUsd) ↔
      ∃ t ∈ thresholds, p t ∧ t.maxPriceLimitUsd = some x := by
  simp [and_assoc]

/-- **The thresholds of a device type on their own**: their largest limit is shown when the name
contains itself, and otherwise none is. -/
theorem joinedLimit_ownThresholds :
    joinedLimit lower (ownThresholds lower thresholds deviceType) (some deviceType) =
        ownLimit lower thresholds deviceType ↔
      like (lower deviceType) (containing (lower deviceType)) ∨
        ∀ t ∈ thresholds, SameNamed lower deviceType t → t.maxPriceLimitUsd = none := by
  have hjoined : (ownThresholds lower thresholds deviceType).filter
      (fun t => Concerns lower (some deviceType) t) =
        if like (lower deviceType) (containing (lower deviceType)) then
          ownThresholds lower thresholds deviceType else [] := by
    split
    next hself =>
      refine List.filter_eq_self.mpr fun t ht => ?_
      have hsame := of_decide_eq_true (List.mem_filter.mp ht).2
      exact decide_eq_true ((concerns_of_sameNamed hsame).mpr hself)
    next hself =>
      refine List.filter_eq_nil_iff.mpr fun t ht hconcerns => hself ?_
      have hsame := of_decide_eq_true (List.mem_filter.mp ht).2
      exact (concerns_of_sameNamed hsame).mp (of_decide_eq_true hconcerns)
  rw [joinedLimit, hjoined, ownLimit]
  split
  next hself => exact iff_of_true rfl (Or.inl hself)
  next hself =>
    rw [or_iff_right hself, nullMax_eq_nullMax_iff, ownThresholds]
    simp only [some_mem_limits, List.map_nil, List.not_mem_nil, false_and, exists_false,
      false_imp_iff, implies_true, true_and]
    constructor
    · intro h t ht hsame
      exact Option.eq_none_iff_forall_ne_some.mpr fun x hx => h x ⟨t, ht, hsame, hx⟩
    · rintro h x ⟨t, ht, hsame, hx⟩
      exact absurd ((h t ht hsame).symm.trans hx) (by simp)

/-- **A limit is that of its own type** exactly when no threshold under another name that the
join takes for the type has a larger one, and the name of the type, read as a pattern, is found
in itself, or there is nothing to be found. -/
theorem shows_ownLimit_iff (lower : String → String) (rows : List WindowedRow)
    (thresholds : List LimitRow) {deviceType : String}
    (htype : ∃ r ∈ recentRows rows, r.deviceType = some deviceType) :
    (ShowsLimit (getViolatedDevices lower false rows thresholds) deviceType
          (ownLimit lower thresholds deviceType) ∧
        ShowsLimit (getViolatedDevices lower false rows (ownThresholds lower thresholds deviceType))
          deviceType (ownLimit lower thresholds deviceType)) ↔
      (∀ t ∈ thresholds, ¬SameNamed lower deviceType t → Concerns lower (some deviceType) t →
          ∀ x ∈ t.maxPriceLimitUsd, ∃ s ∈ thresholds, SameNamed lower deviceType s ∧
            ∃ y ∈ s.maxPriceLimitUsd, x ≤ y) ∧
        (like (lower deviceType) (containing (lower deviceType)) ∨
          ∀ t ∈ thresholds, SameNamed lower deviceType t → t.maxPriceLimitUsd = none) := by
  rw [showsLimit_iff htype, showsLimit_iff htype, joinedLimit_ownThresholds]
  refine and_congr_left fun hown => ?_
  rw [joinedLimit, ownLimit, ownThresholds, nullMax_eq_nullMax_iff]
  simp only [some_mem_limits]
  constructor
  · rintro ⟨hle, -⟩ t ht - hconcerns x hx
    obtain ⟨y, ⟨s, hs, hsame, hy⟩, hxy⟩ := hle x ⟨t, ht, hconcerns, hx⟩
    exact ⟨s, hs, hsame, y, hy, hxy⟩
  · intro hother
    constructor
    · rintro x ⟨t, ht, hconcerns, hx⟩
      by_cases hsame : SameNamed lower deviceType t
      · exact ⟨x, ⟨t, ht, hsame, hx⟩, le_rfl⟩
      · obtain ⟨s, hs, hsame', y, hy, hxy⟩ := hother t ht hsame hconcerns x hx
        exact ⟨y, ⟨s, hs, hsame', hy⟩, hxy⟩
    · rintro y ⟨s, hs, hsame, hy⟩
      rcases hown with hself | hnone
      · exact ⟨y, ⟨s, hs, (concerns_of_sameNamed hsame).mpr hself, hy⟩, le_rfl⟩
      · exact absurd ((hnone s hs hsame).symm.trans hy) (by simp)

/-- Without a backslash in its name a type is joined with its own thresholds. -/
theorem joinedLimit_ownThresholds_of_no_escape (h : '\\' ∉ (lower deviceType).toList) :
    joinedLimit lower (ownThresholds lower thresholds deviceType) (some deviceType) =
      ownLimit lower thresholds deviceType :=
  joinedLimit_ownThresholds.mpr (Or.inl (like_containing_self h))

end Limit

/-! ### Appliances -/

/-- `LOWER`, of the letters from A to Z. -/
def asciiLower (s : String) : String := String.ofList (s.toList.map Char.toLower)

/-- One window, of the appliances of the kitchen. -/
def applianceRows : List WindowedRow :=
  [⟨some 0, some (minutes 5), some "Kitchen", some "Appliance", some 100, some 200⟩]

/-- A limit for appliances, and one for heavy ones. -/
def applianceLimits : List LimitRow :=
  [⟨some "Appliance", some 5⟩, ⟨some "Heavy_Appliance", some 50⟩]

/-- The appliances get the limit of the heavy ones. -/
theorem not_shows_ownLimit :
    (∃ r ∈ recentRows applianceRows, r.deviceType = some "Appliance") ∧
      (∃ t ∈ applianceLimits, SameNamed asciiLower "Appliance" t) ∧
        ownLimit asciiLower applianceLimits "Appliance" = some 5 ∧
          ShowsLimit (getViolatedDevices asciiLower false applianceRows applianceLimits)
            "Appliance" (some 50) ∧
          ¬ShowsLimit (getViolatedDevices asciiLower false applianceRows applianceLimits)
            "Appliance" (ownLimit asciiLower applianceLimits "Appliance") := by
  decide +kernel

/-- Two limits of the same name, and one of a name that has nothing to do with it. -/
theorem shows_ownLimit_iff_lamp :
    ShowsLimit (getViolatedDevices asciiLower false applianceRows
      [⟨some "appliance", some 7⟩, ⟨some "Lamp", some 50⟩]) "Appliance" (some 7) :=
  ((shows_ownLimit_iff asciiLower applianceRows [⟨some "appliance", some 7⟩, ⟨some "Lamp", some 50⟩]
    (by decide +kernel)).mpr (by decide +kernel)).1

end SmartHomeEnergy
