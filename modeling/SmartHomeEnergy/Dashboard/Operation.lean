import SmartHomeEnergy.Dashboard.LastForm
import SmartHomeEnergy.Dashboard.Registry
import SmartHomeEnergy.Live.Retained
import SmartHomeEnergy.Warehouse.Accounts

/-!
# The dashboard of a running house

The dashboard page is made from tables that four programs write: the notebooks fill the
warehouse, the stream the live table, and the panel and the form of the preferences have a table
of their own. They run side by side, in any order, and each of them fails in its own ways.

No program writes a table of another, so each runs as it would alone
(`SmartHomeEnergy.tables_exec`), and what was shown of each holds of the page that is rendered in
between (`SmartHomeEnergy.page_sound`): from the first saved form on the page is there; its budget
and its eco badge are those of the last one; what it says of the spending agrees with the figures
next to it; its devices are those that the panel's requests account for; and the costs of the live
view are bounded.
-/

namespace SmartHomeEnergy

open Numeric Relational Streaming Transition

/-! ### Four programs side by side -/

/-- What the four programs write. -/
structure Platform (D : Type) where
  medallion : Medallion D
  live : LiveState
  devices : DevicesStatus
  preferences : PreferenceDatabase

/-- Before the notebooks and the stream have run. -/
def Platform.start {D : Type} (devices : DevicesStatus) (preferences : PreferenceDatabase) :
    Platform D := ⟨.start, .start .empty, devices, preferences⟩

/-- What happens next. -/
inductive PlatformEvent (D : Type)
  | notebook (e : MedallionEvent D)
  | stream (e : LiveEvent)
  | panel (r : PanelRequest × Option PanelFault)
  | form (r : FormRequest)

/-- The event, if it is one of the notebooks. -/
def PlatformEvent.notebook? {D : Type} : PlatformEvent D → Option (MedallionEvent D)
  | .notebook e => some e
  | _ => none

/-- The event, if it is one of the stream. -/
def PlatformEvent.stream? {D : Type} : PlatformEvent D → Option LiveEvent
  | .stream e => some e
  | _ => none

/-- The event, if it is a request of the panel. -/
def PlatformEvent.panel? {D : Type} : PlatformEvent D → Option (PanelRequest × Option PanelFault)
  | .panel r => some r
  | _ => none

/-- The event, if it is a form. -/
def PlatformEvent.form? {D : Type} : PlatformEvent D → Option FormRequest
  | .form r => some r
  | _ => none

section Platform

variable {D : Type} [DecidableEq D] (constraints : List (List Column)) (time : SparkTime D)
  (fromJson : String → Reading String) (hash : WindowedRow → Fin 4)

/-- **One step of one of them.** -/
def platformStep (s : Platform D) : PlatformEvent D → Platform D
  | .notebook e => { s with medallion := medallionStep constraints time fromJson s.medallion e }
  | .stream e => { s with live := liveEventStep hash s.live e }
  | .panel r => { s with devices := panelStep s.devices r }
  | .form r => { s with preferences := preferenceStep s.preferences r }

/-- The tables of the page. Nobody here writes the prices. -/
def Platform.tables (s : Platform D) (electricityPrices : List PriceRow) : DashboardTables D where
  userPreferences := s.preferences.userPreferences
  dwhEnergyAnalytics := s.medallion.daily.sink.analytics
  electricityPrices := electricityPrices
  devicesStatus := s.devices.rows
  sparkWindowedEnergy := s.live.table.rows
  deviceThresholds := s.preferences.deviceThresholds.map fun row =>
    ⟨row.deviceName, row.maxPriceLimitUsd⟩

/-- **Each program runs as it would alone.** -/
theorem tables_exec (s : Platform D) (es : List (PlatformEvent D)) :
    exec (platformStep constraints time fromJson hash) s es =
      ⟨exec (medallionStep constraints time fromJson) s.medallion
          (es.filterMap PlatformEvent.notebook?),
        exec (liveEventStep hash) s.live (es.filterMap PlatformEvent.stream?),
        exec panelStep s.devices (es.filterMap PlatformEvent.panel?),
        exec preferenceStep s.preferences (es.filterMap PlatformEvent.form?)⟩ := by
  rw [← exec_component (platformStep constraints time fromJson hash) Platform.medallion
      PlatformEvent.notebook? _ (fun _ e => by cases e <;> rfl) s es,
    ← exec_component (platformStep constraints time fromJson hash) Platform.live
      PlatformEvent.stream? _ (fun _ e => by cases e <;> rfl) s es,
    ← exec_component (platformStep constraints time fromJson hash) Platform.devices
      PlatformEvent.panel? _ (fun _ e => by cases e <;> rfl) s es,
    ← exec_component (platformStep constraints time fromJson hash) Platform.preferences
      PlatformEvent.form? _ (fun _ e => by cases e <;> rfl) s es]

end Platform

/-! ### What is shown -/

/-- **The message fits the figures** next to it, up to their rounding. -/
def StatusFits (shown : DashboardContext) : Prop :=
  match shown.budgetStatusMsg with
  | .unknown => shown.isBudgetExceeded = false ∧ shown.actualSpendingYer = 0
  | .exceeded diff => shown.isBudgetExceeded = true ∧ 0 ≤ diff ∧
      |shown.actualSpendingYer - (shown.targetBudget + diff)| ≤ 1 / 100
  | .within diff => shown.isBudgetExceeded = false ∧ 0 ≤ diff ∧
      |shown.actualSpendingYer - (shown.targetBudget - diff)| ≤ 1 / 100

/-- The entry of a row. -/
def DeviceRow.entry (row : DeviceRow) : DeviceEntry :=
  ⟨row.deviceId, row.deviceName, row.overrideStatus, row.deviceType⟩

/-- **A sound page**, after these requests: the forms decide on the budget and the eco badge, the
panel's requests on the devices, and the figures fit each other. -/
structure SoundPage (devices : DevicesStatus) (panel : List (PanelRequest × Option PanelFault))
    (forms : List FormRequest) (shown : DashboardContext) : Prop where
  preferences : ∀ form, LastSaved forms form →
    shown.targetBudget = form.targetMonthlyBudgetUsd ∧ shown.ecoMode = form.ecoModeEnabled
  spending : 0 ≤ shown.actualSpendingYer
  status : StatusFits shown
  order : (shown.devices.map (·.deviceId)).Pairwise (· < ·)
  devices : ∀ entry ∈ shown.devices, ∃ row, StandsAfter devices (storedRequests panel) row ∧
    row.entry = entry
  live : (shown.violatedDevices.map (·.deviceName)).Nodup
  costs : ∀ v ∈ shown.violatedDevices, ∃ d c, v.deviceName = some d ∧
    v.current10minCost = some c ∧ 0 ≤ c ∧ c ≤ liveCap d / 20

section Page

variable {D : Type} {fails : DashboardQuery → Bool} {t : DashboardTables D} {toChar : D → String}
  {lower : String → String} {yearMonth : String} {hour : ℕ} {metabaseUrl : Option String}
  {shown : DashboardContext}

/-- A page that is rendered has a budget. -/
theorem exists_boundBudget
    (h : getDashboardPage fails t toChar lower yearMonth hour metabaseUrl = some shown) :
    ∃ target, boundBudget fails t = some target := by
  obtain ⟨target, htarget, -⟩ := Option.map_eq_some_iff.mp h
  exact ⟨target, targetBudgetYer_dashboardVariables.symm.trans htarget⟩

/-- What is spent is not negative when no cost is. -/
theorem totalSpent_nonneg (h : ∀ row ∈ t.dwhEnergyAnalytics, ∀ c ∈ row.estimatedCostYer, 0 ≤ c) :
    0 ≤ t.totalSpent toChar yearMonth := by
  rw [DashboardTables.totalSpent, getD_nullSum]
  refine List.sum_nonneg (List.forall_mem_map.mpr (List.forall_mem_map.mpr fun row hrow => ?_))
  cases hc : row.estimatedCostYer with
  | none => exact le_rfl
  | some c => exact h row (List.mem_of_mem_filter hrow) c hc

/-- **The message fits**, whatever the tables hold. -/
theorem statusFits_of_rendered
    (h : getDashboardPage fails t toChar lower yearMonth hour metabaseUrl = some shown) :
    StatusFits shown := by
  obtain ⟨target, htarget⟩ := exists_boundBudget h
  rw [getDashboardPage_eq metabaseUrl htarget] at h
  obtain rfl := Option.some.inj h
  set spent := t.totalSpent toChar yearMonth with hspent
  have hround : ∀ x : ℚ, |roundTo halfEven 2 x - x| ≤ 1 / 200 := fun x =>
    (abs_roundTo_sub_le nearest_halfEven 2 x).trans_eq (by norm_num)
  have hactual := abs_le.mp (hround spent)
  cases hfails : fails .spending with
  | true => simp [StatusFits, shownStatus, shownSpending, hfails, roundTo_zero nearest_halfEven]
  | false =>
    by_cases hlt : target < spent
    · have hdiff := abs_le.mp (hround (spent - target))
      have hfits : |roundTo halfEven 2 spent -
          (target + roundTo halfEven 2 (spent - target))| ≤ 1 / 100 :=
        abs_le.mpr ⟨by linarith [hdiff.2, hactual.1], by linarith [hdiff.1, hactual.2]⟩
      simp only [StatusFits, shownStatus, shownSpending, hfails, ← hspent, hlt, if_true, if_false,
        Bool.false_eq_true, and_self, decide_true]
      exact ⟨trivial, roundTo_nonneg nearest_halfEven (sub_nonneg.mpr hlt.le), hfits⟩
    · have hdiff := abs_le.mp (hround (target - spent))
      have hfits : |roundTo halfEven 2 spent -
          (target - roundTo halfEven 2 (target - spent))| ≤ 1 / 100 :=
        abs_le.mpr ⟨by linarith [hdiff.1, hactual.1], by linarith [hdiff.2, hactual.2]⟩
      simp only [StatusFits, shownStatus, shownSpending, hfails, ← hspent, hlt, if_false,
        Bool.false_eq_true, and_false, decide_false]
      exact ⟨trivial, roundTo_nonneg nearest_halfEven (sub_nonneg.mpr (not_lt.mp hlt)), hfits⟩

/-- The devices that are shown, in the order of their ids. -/
theorem shownDevices_spec (fails : DashboardQuery → Bool) {devices : DevicesStatus}
    (ht : t.devicesStatus = devices.rows) :
    ((shownDevices fails t).map (·.deviceId)).Pairwise (· < ·) ∧
      ∀ entry ∈ shownDevices fails t, ∃ row ∈ devices.rows, row.entry = entry := by
  rw [shownDevices]
  split
  next => exact ⟨List.Pairwise.nil, fun entry he => absurd he List.not_mem_nil⟩
  next =>
    have hsorted := devicesPanelPage_sorted devices
    rw [devicesPanelPage, List.map_map] at hsorted
    rw [DashboardTables.deviceEntries, ht, List.map_map]
    refine ⟨hsorted, fun entry he => ?_⟩
    obtain ⟨row, hrow, rfl⟩ := List.mem_map.mp he
    exact ⟨row, (List.perm_insertionSort _ _).mem_iff.mp hrow, rfl⟩

/-- The live view of bounded rows, if its query does not raise. -/
theorem getViolatedDevices_spec {rows : List WindowedRow} (hrows : ∀ r ∈ rows, Bounded r)
    (lower : String → String) (raises : Bool) (thresholds : List LimitRow) :
    let seen := getViolatedDevices lower raises rows thresholds
    (seen.map (·.deviceName)).Nodup ∧ ∀ v ∈ seen, ∃ d c, v.deviceName = some d ∧
      v.current10minCost = some c ∧ 0 ≤ c ∧ c ≤ liveCap d / 20 := by
  cases raises with
  | true => exact ⟨List.nodup_nil, fun v hv => absurd hv List.not_mem_nil⟩
  | false =>
    obtain ⟨hnodup, hcosts, -⟩ := devicesSummary_spec lower thresholds hrows
    exact ⟨hnodup, hcosts⟩

/-- **A page is sound** when its tables are. -/
theorem soundPage_of_tables {devices before : DevicesStatus}
    {panel : List (PanelRequest × Option PanelFault)} {forms : List FormRequest}
    (h : getDashboardPage fails t toChar lower yearMonth hour metabaseUrl = some shown)
    {preferences : PreferenceDatabase} (hp : t.userPreferences = preferences.userPreferences)
    (hforms : ∀ form, LastSaved forms form → HoldsForm form preferences)
    (hcosts : ∀ row ∈ t.dwhEnergyAnalytics, ∀ c ∈ row.estimatedCostYer, 0 ≤ c)
    (ht : t.devicesStatus = devices.rows)
    (hdevices : ∀ row ∈ devices.rows, StandsAfter before (storedRequests panel) row)
    (hlive : ∀ r ∈ t.sparkWindowedEnergy, Bounded r) : SoundPage before panel forms shown := by
  have hstatus := statusFits_of_rendered h
  have hpreferences : fails .preferences = false :=
    ((getDashboardPage_isSome_iff fails t toChar lower yearMonth hour metabaseUrl).mp
      (by rw [h]; rfl)).1
  have hform : ∀ form, LastSaved forms form → shown.targetBudget = form.targetMonthlyBudgetUsd ∧
      shown.ecoMode = form.ecoModeEnabled := fun form hlast => by
    obtain ⟨shown', hshown', hbudget, heco, -⟩ := (hforms form hlast).seenEverywhere.dashboard fails
      t toChar lower yearMonth hour metabaseUrl hpreferences (List.Perm.of_eq hp)
    obtain rfl := Option.some.inj (h.symm.trans hshown')
    exact ⟨hbudget, heco⟩
  obtain ⟨target, htarget⟩ := exists_boundBudget h
  rw [getDashboardPage_eq metabaseUrl htarget] at h
  obtain rfl := Option.some.inj h
  obtain ⟨horder, hentries⟩ := shownDevices_spec fails ht
  obtain ⟨hnodup, hbounds⟩ := getViolatedDevices_spec hlive lower (fails .violatedDevices)
    t.deviceThresholds
  refine ⟨hform, roundTo_nonneg nearest_halfEven ?_, hstatus, horder, fun entry he => ?_, hnodup,
    hbounds⟩
  · rw [shownSpending]
    split
    · exact le_rfl
    · exact totalSpent_nonneg hcosts
  · obtain ⟨row, hrow, hentry⟩ := hentries entry he
    exact ⟨row, hdevices row hrow, hentry⟩

end Page

section Operation

variable {D : Type} [DecidableEq D] {constraints : List (List Column)} {time : SparkTime D}
  {fromJson : String → Reading String}

/-- The prices that the event reads are within the bounds. -/
def PlatformEvent.PricesWithin (lo hi : ℚ) : PlatformEvent D → Prop
  | .notebook e => e.PricesWithin lo hi
  | _ => True

/-- **No cost is negative** in the warehouse, in any run of the notebooks with prices that are
not. -/
theorem cost_nonneg_exec {hi : ℚ} {es : List (MedallionEvent D)}
    (hes : ∀ e ∈ es, e.PricesWithin 0 hi) :
    let s := exec (medallionStep constraints time fromJson) Medallion.start es
    ∀ row ∈ s.daily.sink.analytics, ∀ c ∈ row.estimatedCostYer, 0 ≤ c := by
  intro s row hrow c hc
  obtain ⟨hours, hours_spec⟩ := (billed_exec constraints time fromJson hes).exists_accountsFor
    (layered_exec constraints time fromJson es) le_rfl hrow
  have hlow := (hours_spec.cost c hc).1
  rwa [zero_mul, roundTo_zero nearest_halfUp] at hlow

/-- **The page of a running house is sound**, whatever the programs have done, in whatever order,
whatever fails in them and in the page itself; and it is rendered from the first saved form on,
when its query of the preferences does not raise. -/
theorem page_sound {hi : ℚ} (constraints : List (List Column)) (time : SparkTime D)
    (fromJson : String → Reading String) (hash : WindowedRow → Fin 4) (devices : DevicesStatus)
    (preferences : PreferenceDatabase) (hrow : ∃ row ∈ preferences.userPreferences, row.id = 1)
    (es : List (PlatformEvent D)) (hes : ∀ e ∈ es, e.PricesWithin 0 hi)
    (electricityPrices : List PriceRow) (fails : DashboardQuery → Bool) (toChar : D → String)
    (lower : String → String) (yearMonth : String) (hour : ℕ) (metabaseUrl : Option String) :
    let s := exec (platformStep constraints time fromJson hash) (.start devices preferences) es
    let page := getDashboardPage fails (s.tables electricityPrices) toChar lower yearMonth hour
      metabaseUrl
    let forms := es.filterMap PlatformEvent.form?
    (∀ form, LastSaved forms form → fails .preferences = false → page.isSome) ∧
      ∀ shown ∈ page, SoundPage devices (es.filterMap PlatformEvent.panel?) forms shown := by
  intro s page forms
  have hs : s = _ := tables_exec constraints time fromJson hash (.start devices preferences) es
  have hprices : ∀ e ∈ es.filterMap PlatformEvent.notebook?, e.PricesWithin 0 hi := by
    intro e he
    obtain ⟨e', he', hown⟩ := List.mem_filterMap.mp he
    cases e' with
    | notebook e'' => exact Option.some.inj hown ▸ hes _ he'
    | _ => exact absurd hown (by simp [PlatformEvent.notebook?])
  have hforms : ∀ form, LastSaved forms form → HoldsForm form s.preferences := fun form hlast => by
    rw [hs]
    exact holdsForm_of_lastSaved hrow hlast
  have hcosts : ∀ row ∈ (s.tables electricityPrices).dwhEnergyAnalytics,
      ∀ c ∈ row.estimatedCostYer, 0 ≤ c := by
    show ∀ row ∈ s.medallion.daily.sink.analytics, _
    rw [hs]
    exact cost_nonneg_exec hprices
  have hdevices : ∀ row ∈ s.devices.rows,
      StandsAfter devices (storedRequests (es.filterMap PlatformEvent.panel?)) row := by
    intro row hrow
    rw [hs] at hrow
    exact (mem_exec_panelStep devices _ row).mp hrow
  have hlive : ∀ r ∈ s.live.table.rows, Bounded r := fun r hr => by
    rw [hs] at hr
    exact ((runsFaulty_exec hash _).rows r hr).bounded
  refine ⟨fun form hlast hfails => ?_, fun shown hshown => ?_⟩
  · obtain ⟨shown, hshown, -⟩ := (hforms form hlast).seenEverywhere.dashboard fails
      (s.tables electricityPrices) toChar lower yearMonth hour metabaseUrl hfails (List.Perm.refl _)
    exact Option.isSome_iff_exists.mpr ⟨shown, hshown⟩
  · exact soundPage_of_tables hshown rfl hforms hcosts rfl hdevices hlive

end Operation

/-- The forms of which the second fails, a day of which the last batch is merged twice, a request
of the panel that is stored though the connection is not closed, and a micro-batch. -/
def oneMorning : List (PlatformEvent String) :=
  twoFailures.map .form ++ (twiceMerged.map .notebook ++
    [.panel (.control "KT_Fridge" "OFF", some .close),
      .stream (.batch ⟨minutes 60, [fridgeReading (minutes 59) 300]⟩ (fun _ => none) none)])

theorem page_sound_oneMorning :
    let s := exec (platformStep [analyticsTarget] isoTime fridgeAt fun _ => 0)
      (.start kitchen.table savedBudget) oneMorning
    let page := getDashboardPage (fun _ => false) (s.tables []) (fun _ => "2026-01") asciiLower
      "2026-01" 12 none
    page.map (fun shown => (shown.targetBudget, shown.actualSpendingYer, shown.budgetStatusMsg)) =
        some (80, 9 / 2, .within (151 / 2)) ∧
      ∀ shown ∈ page, SoundPage kitchen.table
        [(.control "KT_Fridge" "OFF", some .close)] twoFailures shown := by
  have hrow : ∃ row ∈ savedBudget.userPreferences, row.id = 1 := by simp [savedBudget]
  have hes : ∀ e ∈ oneMorning, e.PricesWithin 0 30 := by
    simp [oneMorning, twoFailures, twiceMerged, PlatformEvent.PricesWithin,
      MedallionEvent.PricesWithin, PricesWithin]
    norm_num
  exact ⟨by decide +kernel, (page_sound [analyticsTarget] isoTime fridgeAt (fun _ => 0)
    kitchen.table savedBudget hrow oneMorning hes [] (fun _ => false) (fun _ => "2026-01")
    asciiLower "2026-01" 12 none).2⟩

end SmartHomeEnergy
