import SmartHomeEnergy.Dashboard.Devices
import SmartHomeEnergy.Live.Report
import SmartHomeEnergy.Prediction.Encoding
import SmartHomeEnergy.Transition.Attempt

/-!
# Alerts, and the order of the device table

`generate_grand_ai_report` holds the latest power of every zone and device type against a
limit: what the model predicts, or else the base power of a device. The device is the first
one that matches in `SELECT … FROM devices_status`, a query without `ORDER BY`; it matches
when it has the type of the row, or an id that is part of that type. The zone is not looked at.

With two devices of one type, the report is therefore one or the other: the same power is an
alert, or it is passed over because the other device is switched off
(`SmartHomeEnergy.not_orderFreeReport`). The order has no say exactly when any two devices
that match a row are interchangeable for it (`SmartHomeEnergy.orderFreeReport_iff`), or when no
order gets through the loop.
-/

namespace SmartHomeEnergy

open Relational Numeric Transition

/-! ### The loop over the rows -/

/-- `severity`. -/
inductive Severity
  | critical
  | warning
  deriving DecidableEq

/-- An entry of `critical_alerts`. -/
structure Alert where
  zone : Option String
  deviceType : Option String
  actualWatts : ℚ
  baseLimitWatts : ℚ
  severity : Severity
  isCriticalDevice : Option Bool
  deriving DecidableEq

/-- `matching_device`: the first device with the type of the row, or with an id that is part
of it. Looking for an id in a missing type raises. -/
def matchingDevice (deviceType : Option String) : List DeviceRow → Option (Option DeviceRow)
  | [] => some none
  | d :: devicesRef =>
    if d.deviceType = deviceType then some (some d)
    else match deviceType with
      | none => none
      | some t =>
        if d.deviceId.toList <:+: t.toList then some (some d)
        else matchingDevice (some t) devicesRef

/-- `base_fallback`, `is_critical_device` and `override`. -/
structure Settings where
  baseFallback : Option ℚ
  isCriticalDevice : Option Bool
  override : Option String

/-- The settings of the device that matches, and the defaults without one. -/
def settingsOf : Option DeviceRow → Settings
  | none => ⟨some 500, some false, some "AUTO"⟩
  | some d => ⟨d.baseWatts, d.critical, d.overrideStatus⟩

/-- The entry for a power above the limit. -/
def alertOf (row : WindowedRow) (avgPower smartLimit : ℚ) (isCriticalDevice : Option Bool) :
    Alert where
  zone := row.zone
  deviceType := row.deviceType
  actualWatts := roundTo halfEven 2 avgPower
  baseLimitWatts := roundTo halfEven 2 smartLimit
  severity := if isCriticalDevice = some true then .critical else .warning
  isCriticalDevice := isCriticalDevice

/-- The body of the loop: the alert for a row, if there is one. -/
def rowAlert (model : Option Model) (currentHour : ℕ) (devicesRef : List DeviceRow)
    (row : WindowedRow) : Option (Option Alert) := do
  let avgPower ← row.avgPowerWatts
  let _totalPower ← row.totalPowerWatts
  let settings := settingsOf (← matchingDevice row.deviceType devicesRef)
  let smartLimit ← predictSmartThreshold model currentHour row.zone row.deviceType
    settings.baseFallback
  if smartLimit * (5 / 4) < avgPower ∧ settings.override ≠ some "OFF" then
    some (some (alertOf row avgPower smartLimit settings.isCriticalDevice))
  else some none

/-! ### The report -/

/-- `status_level`. -/
inductive StatusLevel
  | critical
  | warning
  | normal
  deriving DecidableEq

/-- `ai_personalized_message`; the first names the cost, to two decimals. -/
inductive PersonalizedMessage
  | unusualDraw (totalHourlyCostYer : ℚ)
  | slightDeviations
  | efficient
  deriving DecidableEq

/-- `category` of a saving. -/
inductive SavingCategory
  | criticalSavings
  | optimization
  deriving DecidableEq

/-- `priority` of a saving. -/
inductive Priority
  | high
  | medium
  deriving DecidableEq

/-- An entry of `ai_recommendations`. The text of a saving names the type, the zone and the
limit, to one decimal; without an alert there is the one entry `PRESERVATION`, which saves
nothing and has the priority `LOW`. -/
inductive Recommendation
  | saving (category : SavingCategory) (deviceType zone : Option String) (expectedWatts : ℚ)
      (potentialHourlySavingsYer : ℚ) (priority : Priority)
  | preservation
  deriving DecidableEq

/-- What is inserted into `ai_home_reports`. -/
structure HomeReport where
  totals : ReportTotals
  averagePricePerKwh : ℚ
  statusLevel : StatusLevel
  criticalAlerts : List Alert
  aiRecommendations : List Recommendation
  aiPersonalizedMessage : PersonalizedMessage
  deriving DecidableEq

/-- `status_level` of the alerts. -/
def statusLevelOf (criticalAlerts : List Alert) : StatusLevel :=
  if ∃ alert ∈ criticalAlerts, alert.severity = .critical then .critical
  else if 0 < criticalAlerts.length then .warning
  else .normal

/-- The message that goes with a level. -/
def messageOf (totalHourlyCostYer : ℚ) : StatusLevel → PersonalizedMessage
  | .critical => .unusualDraw (roundTo halfEven 2 totalHourlyCostYer)
  | .warning => .slightDeviations
  | .normal => .efficient

/-- The recommendation for an alert. -/
def savingOf (actualPricePerKwh : ℚ) (alert : Alert) : Recommendation :=
  let excessWatts := alert.actualWatts - alert.baseLimitWatts
  let estimatedSaving := excessWatts / 1000 * actualPricePerKwh
  .saving (if alert.isCriticalDevice = some true then .criticalSavings else .optimization)
    alert.deviceType alert.zone (roundTo halfEven 1 alert.baseLimitWatts)
    (roundTo halfEven 2 estimatedSaving)
    (if alert.severity = .critical then .high else .medium)

/-- `ai_recommendations` of the alerts. -/
def recommendationsOf (actualPricePerKwh : ℚ) (criticalAlerts : List Alert) :
    List Recommendation :=
  if criticalAlerts = [] then [.preservation] else criticalAlerts.map (savingOf actualPricePerKwh)

/-- The report on some alerts. -/
def reportOn (actualPricePerKwh : ℚ) (energyRows : List WindowedRow)
    (criticalAlerts : List Alert) : HomeReport :=
  let totalConsumptionKwh := (energyRows.map rowWatts).sum / 1000
  let totalHourlyCostYer := totalConsumptionKwh * actualPricePerKwh
  { totals := ⟨totalConsumptionKwh, totalHourlyCostYer⟩
    averagePricePerKwh := actualPricePerKwh
    statusLevel := statusLevelOf criticalAlerts
    criticalAlerts := criticalAlerts
    aiRecommendations := recommendationsOf actualPricePerKwh criticalAlerts
    aiPersonalizedMessage := messageOf totalHourlyCostYer (statusLevelOf criticalAlerts) }

/-- `generate_grand_ai_report` on the rows of `query_latest_energy`: there is no report when
there are no rows, and none when the loop raises. -/
def grandAiReport (model : Option Model) (currentHour : ℕ) (actualPricePerKwh : ℚ)
    (energyRows : List WindowedRow) (devicesRef : DevicesStatus) : Option HomeReport :=
  if energyRows = [] then none
  else (energyRows.mapM (rowAlert model currentHour devicesRef.rows)).map fun alerts =>
    reportOn actualPricePerKwh energyRows alerts.reduceOption

/-- **The order has no say**: the same devices in another order give the same report. -/
def OrderFreeReport (model : Option Model) (currentHour : ℕ) (actualPricePerKwh : ℚ)
    (energyRows : List WindowedRow) (devicesRef : DevicesStatus) : Prop :=
  ∀ reordered : DevicesStatus, reordered.rows.Perm devicesRef.rows →
    grandAiReport model currentHour actualPricePerKwh energyRows reordered =
      grandAiReport model currentHour actualPricePerKwh energyRows devicesRef

/-! ### The first device that matches -/

/-- A device may be the one that decides about a row. -/
def Matches (deviceType : Option String) (d : DeviceRow) : Prop :=
  d.deviceType = deviceType ∨ ∀ t ∈ deviceType, d.deviceId.toList <:+: t.toList

instance (deviceType : Option String) : DecidablePred (Matches deviceType) := fun d =>
  inferInstanceAs (Decidable (_ ∨ ∀ t ∈ deviceType, d.deviceId.toList <:+: t.toList))

/-- The limit a row is held against when this device matches first. There is none when the
device has no power to fall back on, or when its id is looked for in a missing type. -/
def limitWatts (model : Option Model) (currentHour : ℕ) (row : WindowedRow) (d : DeviceRow) :
    Option ℚ :=
  if row.deviceType = none ∧ d.deviceType ≠ none then none
  else predictSmartThreshold model currentHour row.zone row.deviceType d.baseWatts

/-- A device that makes the row an alert. -/
def Exceeds (model : Option Model) (currentHour : ℕ) (row : WindowedRow) (d : DeviceRow) :
    Prop :=
  ∃ avgPower ∈ row.avgPowerWatts, ∃ smartLimit ∈ limitWatts model currentHour row d,
    smartLimit * (5 / 4) < avgPower ∧ d.overrideStatus ≠ some "OFF"

instance (model : Option Model) (currentHour : ℕ) (row : WindowedRow) :
    DecidablePred (Exceeds model currentHour row) := fun d =>
  inferInstanceAs (Decidable (∃ avgPower ∈ row.avgPowerWatts,
    ∃ smartLimit ∈ limitWatts model currentHour row d,
      smartLimit * (5 / 4) < avgPower ∧ d.overrideStatus ≠ some "OFF"))

/-- **Interchangeable devices** for a row: both leave it without a limit or none does, both
make it an alert or none does, and an alert shows the same limit and the same criticality. -/
structure Interchangeable (model : Option Model) (currentHour : ℕ) (row : WindowedRow)
    (a b : DeviceRow) : Prop where
  noLimit : limitWatts model currentHour row a = none ↔ limitWatts model currentHour row b = none
  exceeds : Exceeds model currentHour row a ↔ Exceeds model currentHour row b
  shown : Exceeds model currentHour row a →
    (limitWatts model currentHour row a).map (roundTo halfEven 2) =
      (limitWatts model currentHour row b).map (roundTo halfEven 2) ∧ a.critical = b.critical

/-- The loop does not get past this row: a power is missing, or the device that matches first
leaves it without a limit. -/
def Unassessable (model : Option Model) (currentHour : ℕ) (devicesRef : List DeviceRow)
    (row : WindowedRow) : Prop :=
  row.avgPowerWatts = none ∨ row.totalPowerWatts = none ∨
    ∃ d ∈ devicesRef.find? fun d => Matches row.deviceType d,
      limitWatts model currentHour row d = none

section Row

variable {model : Option Model} {currentHour : ℕ} {row : WindowedRow}
  {devicesRef devicesRef' : List DeviceRow} {a b d : DeviceRow} {avgPower : ℚ}

theorem matches_none : Matches none d := Or.inr fun _ h => absurd h (by simp)

theorem matches_some {t : String} :
    Matches (some t) d ↔ d.deviceType = some t ∨ d.deviceId.toList <:+: t.toList := by
  simp [Matches]

theorem matches_of_find? {deviceType : Option String}
    (h : (devicesRef.find? fun d => Matches deviceType d) = some d) :
    d ∈ devicesRef ∧ Matches deviceType d := by
  have hmatches := List.find?_some h
  exact ⟨List.mem_of_find?_eq_some h, of_decide_eq_true hmatches⟩

/-- The loop over the devices finds the first one that matches; it raises when that is one
with a type, and the row has none. -/
theorem matchingDevice_eq (deviceType : Option String) : ∀ devicesRef : List DeviceRow,
    matchingDevice deviceType devicesRef =
      match devicesRef.find? fun d => Matches deviceType d with
      | none => some none
      | some d => if deviceType = none ∧ d.deviceType ≠ none then none else some (some d)
  | [] => rfl
  | d :: devicesRef => by
    have ih := matchingDevice_eq deviceType devicesRef
    cases deviceType with
    | none => by_cases hd : d.deviceType = none <;> simp [matchingDevice, matches_none, hd]
    | some t =>
      by_cases hd : d.deviceType = some t
      · simp [matchingDevice, matches_some, hd]
      · by_cases hid : d.deviceId.toList <:+: t.toList
        · simp [matchingDevice, matches_some, hd, hid]
        · simpa [matchingDevice, matches_some, hd, hid] using ih

/-- Without a device that matches there is always a limit. -/
theorem exists_defaultLimit (model : Option Model) (currentHour : ℕ) (row : WindowedRow) :
    ∃ smartLimit, predictSmartThreshold model currentHour row.zone row.deviceType (some 500) =
      some smartLimit := by
  unfold predictSmartThreshold
  split
  · exact ⟨_, rfl⟩
  · split <;> exact ⟨_, rfl⟩

/-- **The alert of a row** is decided by the first device that matches. -/
theorem rowAlert_of_find (htotal : row.totalPowerWatts ≠ none)
    (havg : row.avgPowerWatts = some avgPower)
    (hd : (devicesRef.find? fun d => Matches row.deviceType d) = some d) :
    rowAlert model currentHour devicesRef row =
      (limitWatts model currentHour row d).map fun smartLimit =>
        if smartLimit * (5 / 4) < avgPower ∧ d.overrideStatus ≠ some "OFF" then
          some (alertOf row avgPower smartLimit d.critical) else none := by
  obtain ⟨total, htotal⟩ := Option.ne_none_iff_exists'.mp htotal
  simp only [rowAlert, havg, htotal, matchingDevice_eq, hd, limitWatts, Option.bind_eq_bind,
    Option.bind_some]
  by_cases htype : row.deviceType = none ∧ d.deviceType ≠ none
  · simp [htype]
  · simp only [htype, if_false, Option.bind_some, settingsOf]
    cases predictSmartThreshold model currentHour row.zone row.deviceType d.baseWatts with
    | none => rfl
    | some smartLimit =>
      exact (apply_ite some _ _ _).symm

theorem rowAlert_of_find_none
    (hnone : (devicesRef.find? fun d => Matches row.deviceType d) = none)
    (hnone' : (devicesRef'.find? fun d => Matches row.deviceType d) = none) :
    rowAlert model currentHour devicesRef row = rowAlert model currentHour devicesRef' row := by
  simp only [rowAlert, matchingDevice_eq, hnone, hnone']

/-- The loop stops at a row exactly when the row cannot be assessed. -/
theorem rowAlert_eq_none :
    rowAlert model currentHour devicesRef row = none ↔
      Unassessable model currentHour devicesRef row := by
  cases havg : row.avgPowerWatts with
  | none => simp [rowAlert, Unassessable, havg]
  | some avgPower =>
    cases htotal : row.totalPowerWatts with
    | none => simp [rowAlert, Unassessable, havg, htotal]
    | some total =>
      cases hd : devicesRef.find? fun d => Matches row.deviceType d with
      | none =>
        obtain ⟨smartLimit, hlimit⟩ := exists_defaultLimit model currentHour row
        simp only [rowAlert, Unassessable, matchingDevice_eq, havg, htotal, hd, settingsOf, hlimit,
          Option.bind_eq_bind, Option.bind_some]
        by_cases hlt : smartLimit * (5 / 4) < avgPower <;> simp [hlt]
      | some d =>
        rw [rowAlert_of_find (by simp [htotal]) havg hd]
        simp [Unassessable, havg, htotal, hd]

/-- Interchangeable devices give the same alert. -/
theorem rowAlert_congr (h : Interchangeable model currentHour row a b)
    (ha : (devicesRef.find? fun d => Matches row.deviceType d) = some a)
    (hb : (devicesRef'.find? fun d => Matches row.deviceType d) = some b) :
    rowAlert model currentHour devicesRef row = rowAlert model currentHour devicesRef' row := by
  by_cases hnull : row.avgPowerWatts = none ∨ row.totalPowerWatts = none
  · have hstop : ∀ ds, rowAlert model currentHour ds row = none := fun ds =>
      rowAlert_eq_none.mpr (hnull.imp_right Or.inl)
    rw [hstop, hstop]
  push Not at hnull
  obtain ⟨havg, htotal⟩ := hnull
  obtain ⟨avgPower, havg⟩ := Option.ne_none_iff_exists'.mp havg
  rw [rowAlert_of_find htotal havg ha, rowAlert_of_find htotal havg hb]
  have hlimits := h.noLimit
  have hexceeds := h.exceeds
  have hshown := h.shown
  simp only [Exceeds, havg, Option.mem_some_iff, exists_eq_left'] at hexceeds hshown
  cases hla : limitWatts model currentHour row a with
  | none => rw [hlimits.mp hla]; rfl
  | some la =>
    have hlb : limitWatts model currentHour row b ≠ none := hlimits.not.mp (by simp [hla])
    obtain ⟨lb, hlb⟩ := Option.ne_none_iff_exists'.mp hlb
    simp only [hla, hlb, Option.mem_some_iff, exists_eq_left', Option.map_some,
      Option.some_inj] at hexceeds hshown ⊢
    by_cases hex : la * (5 / 4) < avgPower ∧ a.overrideStatus ≠ some "OFF"
    · obtain ⟨hround, hcritical⟩ := hshown hex
      rw [if_pos hex, if_pos (hexceeds.mp hex), alertOf, alertOf, hround, hcritical]
    · rw [if_neg hex, if_neg fun hb => hex (hexceeds.mpr hb)]

end Row

/-! ### The loop and the report -/

section Report

variable {model : Option Model} {currentHour : ℕ} {actualPricePerKwh : ℚ}
  {energyRows : List WindowedRow} {devicesRef reordered : DevicesStatus}

/-- The alerts of the rows, with the devices in this order. -/
def foundAlerts (model : Option Model) (currentHour : ℕ) (energyRows : List WindowedRow)
    (devicesRef : List DeviceRow) : List Alert :=
  energyRows.filterMap fun row => (rowAlert model currentHour devicesRef row).join

theorem grandAiReport_eq (hrows : energyRows ≠ []) :
    grandAiReport model currentHour actualPricePerKwh energyRows devicesRef =
      if ∃ row ∈ energyRows, rowAlert model currentHour devicesRef.rows row = none then none
      else some (reportOn actualPricePerKwh energyRows
        (foundAlerts model currentHour energyRows devicesRef.rows)) := by
  have hloop := mapM_reduceOption (rowAlert model currentHour devicesRef.rows) energyRows
  rw [grandAiReport, if_neg hrows, ← Function.comp_def, ← Option.map_map, hloop]
  split <;> rfl

theorem grandAiReport_congr
    (h : ∀ row ∈ energyRows, rowAlert model currentHour reordered.rows row =
      rowAlert model currentHour devicesRef.rows row) :
    grandAiReport model currentHour actualPricePerKwh energyRows reordered =
      grandAiReport model currentHour actualPricePerKwh energyRows devicesRef := by
  rcases eq_or_ne energyRows [] with rfl | hrows
  · rfl
  have hraise : (∃ row ∈ energyRows, rowAlert model currentHour reordered.rows row = none) ↔
      ∃ row ∈ energyRows, rowAlert model currentHour devicesRef.rows row = none :=
    exists_congr fun row => and_congr_right fun hrow => by rw [h row hrow]
  have hfound : foundAlerts model currentHour energyRows reordered.rows =
      foundAlerts model currentHour energyRows devicesRef.rows :=
    List.filterMap_congr fun row hrow => by rw [h row hrow]
  rw [grandAiReport_eq hrows, grandAiReport_eq hrows, hfound]
  exact if_congr hraise rfl rfl

/-- The rows of a zone and a type. -/
def rowsOf (zone deviceType : Option String) (energyRows : List WindowedRow) :
    List WindowedRow :=
  energyRows.filter fun row => row.zone = zone ∧ row.deviceType = deviceType

/-- The entry for a row that a device makes an alert. -/
def alertBy (model : Option Model) (currentHour : ℕ) (d : DeviceRow) (row : WindowedRow) :
    Alert :=
  alertOf row (row.avgPowerWatts.getD 0) ((limitWatts model currentHour row d).getD 0) d.critical

variable {zone deviceType : Option String} {a b d : DeviceRow}

/-- An alert has the zone and the type of its row. -/
theorem key_of_rowAlert {ds : List DeviceRow} {row : WindowedRow} {alert : Alert}
    (h : rowAlert model currentHour ds row = some (some alert)) :
    alert.zone = row.zone ∧ alert.deviceType = row.deviceType := by
  simp only [rowAlert, Option.bind_eq_bind, Option.bind_eq_some_iff] at h
  obtain ⟨avgPower, -, -, -, d, -, smartLimit, -, h⟩ := h
  by_cases hlt : smartLimit * (5 / 4) < avgPower ∧ (settingsOf d).override ≠ some "OFF"
  · rw [if_pos hlt] at h
    rw [← Option.some.inj (Option.some.inj h)]
    exact ⟨rfl, rfl⟩
  · rw [if_neg hlt] at h
    exact absurd (Option.some.inj h) (by simp)

/-- A row that is assessed is an alert exactly when the first device that matches makes it
one. -/
theorem join_rowAlert {ds : List DeviceRow} {row : WindowedRow}
    (hd : (ds.find? fun d => Matches row.deviceType d) = some d)
    (hstop : rowAlert model currentHour ds row ≠ none) :
    (rowAlert model currentHour ds row).join =
      if Exceeds model currentHour row d then some (alertBy model currentHour d row) else none := by
  have hassessable := rowAlert_eq_none.not.mp hstop
  simp only [Unassessable, not_or] at hassessable
  obtain ⟨havg, htotal, hlimit⟩ := hassessable
  obtain ⟨avgPower, havg⟩ := Option.ne_none_iff_exists'.mp havg
  obtain ⟨smartLimit, hlimit⟩ := Option.ne_none_iff_exists'.mp fun hnone => hlimit ⟨d, hd, hnone⟩
  rw [rowAlert_of_find htotal havg hd, hlimit, Option.map_some, Option.join_some]
  simp only [Exceeds, alertBy, havg, hlimit, Option.mem_some_iff, exists_eq_left', Option.getD_some]

/-- **The alerts of one zone and one type** are those that one device makes, the first that
matches. -/
theorem filter_foundAlerts {ds : List DeviceRow}
    (hd : (ds.find? fun d => Matches deviceType d) = some d)
    (hstop : ∀ row ∈ energyRows, rowAlert model currentHour ds row ≠ none) :
    (foundAlerts model currentHour energyRows ds).filter
        (fun alert => alert.zone = zone ∧ alert.deviceType = deviceType) =
      ((rowsOf zone deviceType energyRows).filter fun row => Exceeds model currentHour row d).map
        (alertBy model currentHour d) := by
  have hrow : ∀ row ∈ energyRows,
      Option.filter (fun alert : Alert => alert.zone = zone ∧ alert.deviceType = deviceType)
        (rowAlert model currentHour ds row).join =
      if row.zone = zone ∧ row.deviceType = deviceType then
        if Exceeds model currentHour row d then some (alertBy model currentHour d row) else none
      else none := by
    intro row hmem
    have hkey' : ∀ alert ∈ (rowAlert model currentHour ds row).join,
        alert.zone = row.zone ∧ alert.deviceType = row.deviceType := fun alert halert =>
      key_of_rowAlert (Option.join_eq_some_iff.mp halert)
    by_cases hkey : row.zone = zone ∧ row.deviceType = deviceType
    · rw [if_pos hkey]
      obtain ⟨rfl, rfl⟩ := hkey
      rw [← join_rowAlert hd (hstop row hmem)]
      cases hjoin : (rowAlert model currentHour ds row).join with
      | none => rfl
      | some alert => rw [Option.filter_some, if_pos (decide_eq_true (hkey' alert hjoin))]
    · rw [if_neg hkey]
      refine Option.filter_eq_none_iff.mpr fun alert halert => ?_
      obtain ⟨hzone, htype⟩ := hkey' alert halert
      rw [hzone, htype, decide_eq_true_eq]
      exact hkey
  rw [foundAlerts, List.filter_filterMap, List.filterMap_congr hrow, rowsOf, List.filter_filter,
    ← List.filterMap_eq_map, List.filterMap_filter]
  refine List.filterMap_congr fun row _ => ?_
  by_cases hkey : row.zone = zone ∧ row.deviceType = deviceType <;>
    by_cases hex : Exceeds model currentHour row d <;> simp [hkey, hex]

/-- Of two devices, one makes every row of a zone and a type an alert that the other does. -/
theorem exceeds_total {la lb : ℚ} {rows : List WindowedRow}
    (ha : ∀ r ∈ rows, limitWatts model currentHour r a = some la)
    (hb : ∀ r ∈ rows, limitWatts model currentHour r b = some lb) :
    (∀ r ∈ rows, Exceeds model currentHour r a → Exceeds model currentHour r b) ∨
      ∀ r ∈ rows, Exceeds model currentHour r b → Exceeds model currentHour r a := by
  have hmono : ∀ {c d : DeviceRow} {lc ld : ℚ},
      (∀ r ∈ rows, limitWatts model currentHour r c = some lc) →
      (∀ r ∈ rows, limitWatts model currentHour r d = some ld) →
      ld ≤ lc → d.overrideStatus ≠ some "OFF" →
        ∀ r ∈ rows, Exceeds model currentHour r c → Exceeds model currentHour r d := by
    rintro c d lc ld hc hd hle hoff r hr ⟨avgPower, havg, smartLimit, hlimit, hlt, -⟩
    obtain rfl : lc = smartLimit := Option.some.inj ((hc r hr).symm.trans hlimit)
    exact ⟨avgPower, havg, ld, hd r hr, by linarith, hoff⟩
  have hoff : ∀ {c d : DeviceRow}, c.overrideStatus = some "OFF" →
      ∀ r ∈ rows, Exceeds model currentHour r c → Exceeds model currentHour r d := by
    rintro c d hc r - ⟨_, _, _, _, _, hne⟩
    exact absurd hc hne
  by_cases haoff : a.overrideStatus = some "OFF"
  · exact Or.inl (hoff haoff)
  by_cases hboff : b.overrideStatus = some "OFF"
  · exact Or.inr (hoff hboff)
  rcases le_total la lb with hle | hle
  · exact Or.inr (hmono hb ha hle haoff)
  · exact Or.inl (hmono ha hb hle hboff)

/-- A device that matches first, and gets past a row, has one limit for all rows of its zone
and its type. -/
theorem exists_limitWatts (energyRows : List WindowedRow) {ds : List DeviceRow}
    {row : WindowedRow}
    (hd : (ds.find? fun d => Matches row.deviceType d) = some d)
    (hstop : rowAlert model currentHour ds row ≠ none) :
    ∃ l, ∀ r ∈ rowsOf row.zone row.deviceType energyRows,
      limitWatts model currentHour r d = some l := by
  have hassessable := rowAlert_eq_none.not.mp hstop
  simp only [Unassessable, not_or] at hassessable
  obtain ⟨l, hl⟩ := Option.ne_none_iff_exists'.mp fun hnone => hassessable.2.2 ⟨d, hd, hnone⟩
  refine ⟨l, fun r hr => ?_⟩
  obtain ⟨hzone, htype⟩ := of_decide_eq_true (List.mem_filter.mp hr).2
  rw [← hl, limitWatts, limitWatts, hzone, htype]

/-- Two devices that make equally many rows of a zone and a type alerts make the same ones
alerts, since one of them makes all those that the other does. -/
theorem filter_exceeds_eq {la lb : ℚ} {rows : List WindowedRow}
    (ha : ∀ r ∈ rows, limitWatts model currentHour r a = some la)
    (hb : ∀ r ∈ rows, limitWatts model currentHour r b = some lb)
    (hlength : (rows.filter fun r => Exceeds model currentHour r a).length =
      (rows.filter fun r => Exceeds model currentHour r b).length) :
    (rows.filter fun r => Exceeds model currentHour r a) =
      rows.filter fun r => Exceeds model currentHour r b := by
  rcases exceeds_total ha hb with hle | hle
  · exact filter_eq_of_length_le (fun r hr hex => by simpa using hle r hr (by simpa using hex))
      hlength.ge
  · exact (filter_eq_of_length_le (fun r hr hex => by simpa using hle r hr (by simpa using hex))
      hlength.le).symm

/-- **Devices that leave the same alerts are interchangeable**: of the alerts of one zone and
one type as many are left with either. -/
theorem interchangeable_of_foundAlerts {ds ds' : List DeviceRow} {row : WindowedRow}
    (hrow : row ∈ energyRows) (ha : (ds.find? fun d => Matches row.deviceType d) = some a)
    (hb : (ds'.find? fun d => Matches row.deviceType d) = some b)
    (hstop : ∀ r ∈ energyRows, rowAlert model currentHour ds r ≠ none)
    (hstop' : ∀ r ∈ energyRows, rowAlert model currentHour ds' r ≠ none)
    (h : foundAlerts model currentHour energyRows ds =
      foundAlerts model currentHour energyRows ds') :
    Interchangeable model currentHour row a b := by
  have hmem : row ∈ rowsOf row.zone row.deviceType energyRows :=
    List.mem_filter.mpr ⟨hrow, decide_eq_true ⟨rfl, rfl⟩⟩
  obtain ⟨la, hla⟩ := exists_limitWatts energyRows ha (hstop row hrow)
  obtain ⟨lb, hlb⟩ := exists_limitWatts energyRows hb (hstop' row hrow)
  have hkept := congrArg
    (List.filter fun alert => alert.zone = row.zone ∧ alert.deviceType = row.deviceType) h
  rw [filter_foundAlerts ha hstop, filter_foundAlerts hb hstop'] at hkept
  have hfilter := filter_exceeds_eq hla hlb (by simpa using congrArg List.length hkept)
  rw [hfilter] at hkept
  have hiff : Exceeds model currentHour row a ↔ Exceeds model currentHour row b := by
    have hiff := congrArg (row ∈ ·) hfilter
    simpa [List.mem_filter, hmem] using hiff
  refine ⟨by simp [hla row hmem, hlb row hmem], hiff, fun hex => ?_⟩
  have hshown : alertBy model currentHour a row = alertBy model currentHour b row :=
    List.map_inj_left.mp hkept row
      (List.mem_filter.mpr ⟨hmem, decide_eq_true (hiff.mp hex)⟩)
  simp only [alertBy, alertOf, Alert.mk.injEq, hla row hmem, hlb row hmem, Option.getD_some,
    true_and] at hshown
  exact ⟨by rw [hla row hmem, hlb row hmem, Option.map_some, Option.map_some, hshown.1],
    hshown.2.2⟩

/-! ### When the order has no say -/

/-- Where the order has no say and there is a report, every order leaves the same alerts. -/
theorem OrderFreeReport.foundAlerts_eq (hrows : energyRows ≠ [])
    (hfree : OrderFreeReport model currentHour actualPricePerKwh energyRows devicesRef)
    (hraise : ¬∃ row ∈ energyRows, rowAlert model currentHour devicesRef.rows row = none)
    (hperm : reordered.rows.Perm devicesRef.rows) :
    (∀ row ∈ energyRows, rowAlert model currentHour reordered.rows row ≠ none) ∧
      foundAlerts model currentHour energyRows reordered.rows =
        foundAlerts model currentHour energyRows devicesRef.rows := by
  have hsame := hfree reordered hperm
  rw [grandAiReport_eq hrows, grandAiReport_eq hrows, if_neg hraise] at hsame
  by_cases hstop : ∃ row ∈ energyRows, rowAlert model currentHour reordered.rows row = none
  · rw [if_pos hstop] at hsame
    exact absurd hsame (by simp)
  · rw [if_neg hstop] at hsame
    exact ⟨fun row hrow hnone => hstop ⟨row, hrow, hnone⟩,
      congrArg HomeReport.criticalAlerts (Option.some.inj hsame)⟩

/-- In another order another device may match first, but one that is interchangeable. -/
theorem rowAlert_of_perm {row : WindowedRow} (hperm : reordered.rows.Perm devicesRef.rows)
    (hinter : ∀ a ∈ devicesRef.rows, ∀ b ∈ devicesRef.rows, Matches row.deviceType a →
      Matches row.deviceType b → Interchangeable model currentHour row a b) :
    rowAlert model currentHour reordered.rows row =
      rowAlert model currentHour devicesRef.rows row := by
  cases ha : reordered.rows.find? fun d => Matches row.deviceType d with
  | none =>
    refine rowAlert_of_find_none ha (List.find?_eq_none.mpr fun d hd => ?_)
    exact List.find?_eq_none.mp ha d (hperm.mem_iff.mpr hd)
  | some a =>
    obtain ⟨hmema, hma⟩ := matches_of_find? ha
    have hmema' := hperm.mem_iff.mp hmema
    obtain ⟨b, hb⟩ : ∃ b, (devicesRef.rows.find? fun d => Matches row.deviceType d) = some b := by
      rw [← Option.isSome_iff_exists, List.find?_isSome]
      exact ⟨a, hmema', decide_eq_true hma⟩
    obtain ⟨hmemb, hmb⟩ := matches_of_find? hb
    exact rowAlert_congr (hinter a hmema' b hmemb hma hmb) ha hb

/-- **When the order has no say**: any two devices that match a row are interchangeable for
it, or there is a row in every order that the loop does not get past. -/
theorem orderFreeReport_iff (model : Option Model) (currentHour : ℕ) (actualPricePerKwh : ℚ)
    (energyRows : List WindowedRow) (devicesRef : DevicesStatus) :
    OrderFreeReport model currentHour actualPricePerKwh energyRows devicesRef ↔
      (∀ row ∈ energyRows, ∀ a ∈ devicesRef.rows, ∀ b ∈ devicesRef.rows,
        Matches row.deviceType a → Matches row.deviceType b →
          Interchangeable model currentHour row a b) ∨
      ∀ reordered : DevicesStatus, reordered.rows.Perm devicesRef.rows →
        ∃ row ∈ energyRows, Unassessable model currentHour reordered.rows row := by
  rcases eq_or_ne energyRows [] with rfl | hrows
  · simp [OrderFreeReport, grandAiReport]
  simp only [← rowAlert_eq_none]
  constructor
  · intro hfree
    by_cases hraise : ∃ row ∈ energyRows, rowAlert model currentHour devicesRef.rows row = none
    · refine Or.inr fun reordered hperm => ?_
      have hsame := hfree reordered hperm
      rw [grandAiReport_eq hrows, grandAiReport_eq hrows, if_pos hraise] at hsame
      by_contra hno
      rw [if_neg hno] at hsame
      exact absurd hsame (by simp)
    · refine Or.inl fun row hrow a hmema b hmemb hma hmb => ?_
      -- either device may come first, and be the one that is found
      obtain ⟨ta, hperma, hfinda⟩ := Table.exists_find?_eq hmema
      obtain ⟨tb, hpermb, hfindb⟩ := Table.exists_find?_eq hmemb
      obtain ⟨hstopa, hfounda⟩ := hfree.foundAlerts_eq hrows hraise hperma
      obtain ⟨hstopb, hfoundb⟩ := hfree.foundAlerts_eq hrows hraise hpermb
      exact interchangeable_of_foundAlerts hrow (hfinda _ (decide_eq_true hma))
        (hfindb _ (decide_eq_true hmb)) hstopa hstopb (hfounda.trans hfoundb.symm)
  · rintro (hinter | hraise) reordered hperm
    · exact grandAiReport_congr fun row hrow => rowAlert_of_perm hperm (hinter row hrow)
    · rw [grandAiReport_eq hrows, grandAiReport_eq hrows, if_pos (hraise reordered hperm),
        if_pos (hraise devicesRef (List.Perm.refl _))]

/-- The totals are those of the report without its alerts. -/
theorem totals_grandAiReport {t : LiveTable} {report : HomeReport}
    (h : grandAiReport model currentHour actualPricePerKwh (queryLatestEnergy t) devicesRef =
      some report) : generateGrandAiReport actualPricePerKwh t = some report.totals := by
  have hrows : queryLatestEnergy t ≠ [] := by
    intro hnil
    simp [grandAiReport, hnil] at h
  rw [grandAiReport_eq hrows] at h
  by_cases hraise : ∃ row ∈ queryLatestEnergy t,
      rowAlert model currentHour devicesRef.rows row = none
  · rw [if_pos hraise] at h
    exact absurd h (by simp)
  · rw [if_neg hraise] at h
    obtain rfl := Option.some.inj h
    have hpower :
        ¬∃ r ∈ queryLatestEnergy t, r.avgPowerWatts = none ∨ r.totalPowerWatts = none := by
      rintro ⟨r, hr, hnull⟩
      exact hraise ⟨r, hr, rowAlert_eq_none.mpr (hnull.imp_right Or.inl)⟩
    rw [generateGrandAiReport, if_neg (not_or.mpr ⟨hrows, hpower⟩)]
    rfl

end Report

/-! ### Two fridges -/

/-- The fridge of the kitchen. -/
def kitchenFridge : DeviceRow :=
  { deviceId := "fridge_01", deviceType := some "Fridge", overrideStatus := some "AUTO",
    baseWatts := some 150, critical := some false, deviceName := some "Kitchen fridge" }

/-- The fridge of the garage, which is switched off. -/
def garageFridge : DeviceRow :=
  { deviceId := "fridge_02", deviceType := some "Fridge", overrideStatus := some "OFF",
    baseWatts := some 150, critical := some false, deviceName := some "Garage fridge" }

/-- The two fridges, in both orders. -/
def kitchenFirst : DevicesStatus := ⟨[kitchenFridge, garageFridge], by decide +kernel⟩

@[inherit_doc kitchenFirst]
def garageFirst : DevicesStatus := ⟨[garageFridge, kitchenFridge], by decide +kernel⟩

/-- The fridge of the kitchen draws the double of its base power. -/
def doubleDraw : WindowedRow :=
  { windowStart := some 0, windowEnd := some 300, zone := some "Kitchen",
    deviceType := some "Fridge", avgPowerWatts := some 300, totalPowerWatts := some 3000 }

/-- **The order does have a say**: with the kitchen first the fridge is reported, and with the
garage first it is passed over. -/
theorem not_orderFreeReport :
    ¬∀ (model : Option Model) (currentHour : ℕ) (actualPricePerKwh : ℚ)
      (energyRows : List WindowedRow) (devicesRef : DevicesStatus),
      OrderFreeReport model currentHour actualPricePerKwh energyRows devicesRef := by
  intro hfree
  have hsame := hfree none 12 200 [doubleDraw] kitchenFirst garageFirst (List.Perm.swap _ _ _)
  have hlevel : (grandAiReport none 12 200 [doubleDraw] garageFirst).map (·.statusLevel) =
      some .normal := by decide +kernel
  have hlevel' : (grandAiReport none 12 200 [doubleDraw] kitchenFirst).map (·.statusLevel) =
      some .warning := by decide +kernel
  rw [hsame, hlevel'] at hlevel
  exact absurd hlevel (by simp)

end SmartHomeEnergy
