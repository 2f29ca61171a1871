import SmartHomeEnergy.Dashboard.Devices
import SmartHomeEnergy.Dashboard.LiveView
import SmartHomeEnergy.Dashboard.Saving
import SmartHomeEnergy.Warehouse.Daily

/-!
# The dashboard page, section by section

`get_dashboard_page` collects what it shows in five sections, each a query and what is made of
its rows, and each in a `try` of its own whose handler prints the exception and rolls back. The
variables that the sections set are bound before the first of them, to what is shown when a
section comes to nothing: all but one. The target budget is bound by the section of the
preferences, and only when it has found a row with a budget.

Without that row the comparison with the budget raises inside its own section, where it is
caught; the template call reads the budget too, and there it is not. So the page is rendered
exactly when the preferences are there (`SmartHomeEnergy.getDashboardPage_isSome_iff`); the other
sections have no say, and each of them decides its own part of the page alone
(`SmartHomeEnergy.getDashboardPage_eq`).
-/

namespace SmartHomeEnergy

open Relational Numeric Transition

/-! ### The page -/

/-- The tables the page is made from. -/
structure DashboardTables (D : Type) where
  userPreferences : List PreferenceRow
  dwhEnergyAnalytics : List (DayRow D)
  electricityPrices : List PriceRow
  devicesStatus : List DeviceRow
  sparkWindowedEnergy : List WindowedRow
  deviceThresholds : List LimitRow

/-- The queries that may raise. -/
inductive DashboardQuery
  | preferences
  | spending
  | price
  | devices
  | violatedDevices
  deriving DecidableEq

/-- `budget_status_msg`, with the difference it names to two decimals. -/
inductive BudgetStatus
  | unknown
  | exceeded (diffYer : ℚ)
  | within (diffYer : ℚ)
  deriving DecidableEq

/-- An entry of the list of devices. -/
structure DeviceEntry where
  deviceId : String
  deviceName : Option String
  overrideStatus : Option String
  deviceType : Option String
  deriving DecidableEq

/-- The local variables of `get_dashboard_page`; `targetBudgetYer` is the one that may be
unbound. -/
structure DashboardVariables where
  currentPrice : Option ℚ
  devicesList : List DeviceEntry
  violatedDevices : List ViolatedDevice
  userPrefs : Option PreferenceRow
  targetBudgetYer : Option ℚ
  actualSpendingYer : ℚ
  isBudgetExceeded : Bool
  budgetStatusMsg : BudgetStatus

/-- What is bound before the first section. -/
def DashboardVariables.start : DashboardVariables where
  currentPrice := some 0
  devicesList := []
  violatedDevices := []
  userPrefs := none
  targetBudgetYer := none
  actualSpendingYer := 0
  isBudgetExceeded := false
  budgetStatusMsg := .unknown

/-- The context of the template call. -/
structure DashboardContext where
  iframeUrl : String
  targetBudget : ℚ
  actualSpendingYer : ℚ
  isBudgetExceeded : Bool
  budgetStatusMsg : BudgetStatus
  ecoMode : Bool
  currentPrice : Option ℚ
  devices : List DeviceEntry
  violatedDevices : List ViolatedDevice
  deriving DecidableEq

section Sections

variable {D : Type} (fails : DashboardQuery → Bool) (t : DashboardTables D)

/-- The row of the preferences that is fetched. -/
def DashboardTables.preferenceRow : Option PreferenceRow :=
  t.userPreferences.find? fun row => row.id = 1

/-- `COALESCE(SUM(estimated_cost_yer), 0)` over the rows of a month. -/
def DashboardTables.totalSpent (toChar : D → String) (yearMonth : String) : ℚ :=
  (nullSum ((t.dwhEnergyAnalytics.filter fun row =>
    row.key.reportDate.map toChar = some yearMonth).map (·.estimatedCostYer))).getD 0

/-- The row of the prices that is fetched. -/
def DashboardTables.priceRow (hour : ℕ) : Option PriceRow :=
  t.electricityPrices.find? fun row => row.hour = some hour

/-- The devices, in the order of their ids. -/
def DashboardTables.deviceEntries : List DeviceEntry :=
  (t.devicesStatus.insertionSort fun a b => a.deviceId ≤ b.deviceId).map fun row =>
    ⟨row.deviceId, row.deviceName, row.overrideStatus, row.deviceType⟩

/-- The preferences: a budget that is null raises, when the row is bound already. -/
def preferencesSection (v : DashboardVariables) : Attempt DashboardVariables :=
  if fails .preferences then .raise v
  else
    match t.preferenceRow with
    | none => .done { v with userPrefs := none }
    | some row =>
      match row.targetMonthlyBudgetUsd with
      | none => .raise { v with userPrefs := some row }
      | some budget => .done { v with userPrefs := some row, targetBudgetYer := some budget }

/-- The spending, and its comparison with the budget, which raises when the budget is not
bound. -/
def spendingSection (toChar : D → String) (yearMonth : String) (v : DashboardVariables) :
    Attempt DashboardVariables :=
  if fails .spending then .raise v
  else
    let spent := t.totalSpent toChar yearMonth
    match v.targetBudgetYer with
    | none => .raise { v with actualSpendingYer := spent }
    | some target =>
      if target < spent then
        .done { v with
          actualSpendingYer := spent
          isBudgetExceeded := true
          budgetStatusMsg := .exceeded (roundTo halfEven 2 (spent - target)) }
      else
        .done { v with
          actualSpendingYer := spent
          budgetStatusMsg := .within (roundTo halfEven 2 (target - spent)) }

/-- The price of the hour. -/
def priceSection (hour : ℕ) (v : DashboardVariables) : Attempt DashboardVariables :=
  if fails .price then .raise v
  else
    match t.priceRow hour with
    | none => .done v
    | some row => .done { v with currentPrice := row.pricePerKwh }

/-- The list of devices. -/
def devicesSection (v : DashboardVariables) : Attempt DashboardVariables :=
  if fails .devices then .raise v else .done { v with devicesList := t.deviceEntries }

/-- The live view, which catches what its query raises. -/
def violatedSection (lower : String → String) (v : DashboardVariables) :
    Attempt DashboardVariables :=
  .done { v with
    violatedDevices := getViolatedDevices lower (fails .violatedDevices) t.sparkWindowedEnergy
      t.deviceThresholds }

/-- The sections, one after the other. -/
def dashboardVariables (toChar : D → String) (lower : String → String) (yearMonth : String)
    (hour : ℕ) : DashboardVariables :=
  let v := (preferencesSection fails t .start).caught.state
  let v := (spendingSection fails t toChar yearMonth v).caught.state
  let v := (priceSection fails t hour v).caught.state
  let v := (devicesSection fails t v).caught.state
  (violatedSection fails t lower v).caught.state

/-- `get_dashboard_page` up to the template call: its context, or nothing when an exception is
left. `metabaseUrl` is nothing when the token raises, and an empty address is shown then. -/
def getDashboardPage (toChar : D → String) (lower : String → String) (yearMonth : String)
    (hour : ℕ) (metabaseUrl : Option String) : Option DashboardContext :=
  let v := dashboardVariables fails t toChar lower yearMonth hour
  v.targetBudgetYer.map fun targetBudgetYer =>
    { iframeUrl := metabaseUrl.getD ""
      targetBudget := targetBudgetYer
      actualSpendingYer := roundTo halfEven 2 v.actualSpendingYer
      isBudgetExceeded := v.isBudgetExceeded
      budgetStatusMsg := v.budgetStatusMsg
      ecoMode := v.userPrefs.bind (·.ecoModeEnabled) = some true
      currentPrice := v.currentPrice
      devices := v.devicesList
      violatedDevices := v.violatedDevices }

end Sections

/-! ### What a section leaves alone -/

section Frame

variable {D : Type} {fails : DashboardQuery → Bool} {t : DashboardTables D}
  {toChar : D → String} {lower : String → String} {yearMonth : String} {hour : ℕ}
  {v : DashboardVariables}

/-- The budget that the section of the preferences binds. -/
def boundBudget (fails : DashboardQuery → Bool) (t : DashboardTables D) : Option ℚ :=
  if fails .preferences then none else t.preferenceRow.bind (·.targetMonthlyBudgetUsd)

/-- The section of the preferences binds the budget of its row, if it has one. -/
theorem targetBudgetYer_preferencesSection (hv : v.targetBudgetYer = none) :
    (preferencesSection fails t v).state.targetBudgetYer = boundBudget fails t := by
  rw [preferencesSection, boundBudget]
  split
  next => exact hv
  next =>
    cases hrow : t.preferenceRow with
    | none => exact hv
    | some row => cases hbudget : row.targetMonthlyBudgetUsd <;> simp [hbudget, hv]

@[simp] theorem targetBudgetYer_spendingSection :
    (spendingSection fails t toChar yearMonth v).state.targetBudgetYer = v.targetBudgetYer := by
  rw [spendingSection]
  split
  · rfl
  · cases hbudget : v.targetBudgetYer with
    | none => rfl
    | some target =>
      simp only
      split <;> rfl

@[simp] theorem targetBudgetYer_priceSection :
    (priceSection fails t hour v).state.targetBudgetYer = v.targetBudgetYer := by
  rw [priceSection]
  split
  · rfl
  · split <;> rfl

@[simp] theorem targetBudgetYer_devicesSection :
    (devicesSection fails t v).state.targetBudgetYer = v.targetBudgetYer := by
  rw [devicesSection]
  split <;> rfl

/-- **Only the preferences bind the budget.** -/
theorem targetBudgetYer_dashboardVariables :
    (dashboardVariables fails t toChar lower yearMonth hour).targetBudgetYer =
      boundBudget fails t := by
  rw [dashboardVariables]
  simp only [Attempt.caught_state]
  rw [violatedSection, Attempt.done_state]
  simp only [targetBudgetYer_devicesSection, targetBudgetYer_priceSection,
    targetBudgetYer_spendingSection]
  exact targetBudgetYer_preferencesSection rfl

end Frame

/-! ### What is rendered -/

section Rendered

variable {D : Type} (fails : DashboardQuery → Bool) (t : DashboardTables D) (toChar : D → String)
  (lower : String → String) (yearMonth : String) (hour : ℕ) (metabaseUrl : Option String)

/-- What is shown of the spending: nothing yet, when its query raises. -/
def shownSpending : ℚ := if fails .spending then 0 else t.totalSpent toChar yearMonth

/-- What is shown of the spending against the budget. -/
def shownStatus (target : ℚ) : BudgetStatus :=
  if fails .spending then .unknown
  else if target < t.totalSpent toChar yearMonth then
    .exceeded (roundTo halfEven 2 (t.totalSpent toChar yearMonth - target))
  else .within (roundTo halfEven 2 (target - t.totalSpent toChar yearMonth))

/-- What is shown as the price: zero, when its query raises or finds no row. -/
def shownPrice : Option ℚ :=
  if fails .price then some 0 else ((t.priceRow hour).map (·.pricePerKwh)).getD (some 0)

/-- What is shown of the devices. -/
def shownDevices : List DeviceEntry := if fails .devices then [] else t.deviceEntries

variable {fails t toChar lower yearMonth hour} {v : DashboardVariables}

theorem preferencesSection_state {target : ℚ} (h : boundBudget fails t = some target) :
    (preferencesSection fails t v).state =
      { v with userPrefs := t.preferenceRow, targetBudgetYer := some target } := by
  rw [boundBudget] at h
  split at h
  next => exact absurd h (by simp)
  next hfails =>
    obtain ⟨row, hrow, hbudget⟩ := Option.bind_eq_some_iff.mp h
    rw [preferencesSection, if_neg hfails]
    simp [hrow, hbudget]

/-- With a budget the section of the spending sets all its variables. -/
theorem spendingSection_state {target : ℚ} (hbudget : v.targetBudgetYer = some target)
    (hspending : v.actualSpendingYer = 0) (hexceeded : v.isBudgetExceeded = false)
    (hstatus : v.budgetStatusMsg = .unknown) :
    (spendingSection fails t toChar yearMonth v).state =
      { v with
        actualSpendingYer := shownSpending fails t toChar yearMonth
        isBudgetExceeded :=
          decide (fails .spending = false ∧ target < t.totalSpent toChar yearMonth)
        budgetStatusMsg := shownStatus fails t toChar yearMonth target } := by
  rw [spendingSection, shownSpending, shownStatus]
  split
  next hfails =>
    have hno : decide (fails .spending = false ∧ target < t.totalSpent toChar yearMonth) =
        v.isBudgetExceeded := by
      rw [hexceeded]
      simp [hfails]
    rw [hno, ← hspending, ← hstatus]
    rfl
  next hfails =>
    simp only [hbudget]
    split
    next hlt => simp [hfails, hlt]
    next hlt => simp [hfails, hlt, hexceeded]

theorem priceSection_state (hprice : v.currentPrice = some 0) :
    (priceSection fails t hour v).state =
      { v with currentPrice := shownPrice fails t hour } := by
  rw [priceSection, shownPrice]
  split
  next => rw [← hprice]; rfl
  next =>
    cases t.priceRow hour with
    | none => simp [← hprice]
    | some row => rfl

theorem devicesSection_state (hdevices : v.devicesList = []) :
    (devicesSection fails t v).state = { v with devicesList := shownDevices fails t } := by
  rw [devicesSection, shownDevices]
  split
  next => rw [← hdevices]; rfl
  next => rfl

/-- What the variables hold after the sections, once there is a budget. -/
theorem dashboardVariables_eq {target : ℚ} (h : boundBudget fails t = some target) :
    dashboardVariables fails t toChar lower yearMonth hour =
      { currentPrice := shownPrice fails t hour
        devicesList := shownDevices fails t
        violatedDevices := getViolatedDevices lower (fails .violatedDevices)
          t.sparkWindowedEnergy t.deviceThresholds
        userPrefs := t.preferenceRow
        targetBudgetYer := some target
        actualSpendingYer := shownSpending fails t toChar yearMonth
        isBudgetExceeded := decide (fails .spending = false ∧
          target < t.totalSpent toChar yearMonth)
        budgetStatusMsg := shownStatus fails t toChar yearMonth target } := by
  rw [dashboardVariables]
  simp only [Attempt.caught_state]
  rw [preferencesSection_state h, spendingSection_state rfl rfl rfl rfl, priceSection_state rfl,
    devicesSection_state rfl]
  rfl

/-- **Each section has its own part of the page**, once there is a budget: a section that
raises, or that finds nothing, leaves the others as they are. -/
theorem getDashboardPage_eq {target : ℚ} (h : boundBudget fails t = some target) :
    getDashboardPage fails t toChar lower yearMonth hour metabaseUrl =
      some {
        iframeUrl := metabaseUrl.getD ""
        targetBudget := target
        actualSpendingYer := roundTo halfEven 2 (shownSpending fails t toChar yearMonth)
        isBudgetExceeded := decide (fails .spending = false ∧
          target < t.totalSpent toChar yearMonth)
        budgetStatusMsg := shownStatus fails t toChar yearMonth target
        ecoMode := t.preferenceRow.bind (·.ecoModeEnabled) = some true
        currentPrice := shownPrice fails t hour
        devices := shownDevices fails t
        violatedDevices := getViolatedDevices lower (fails .violatedDevices)
          t.sparkWindowedEnergy t.deviceThresholds } := by
  simp only [getDashboardPage, dashboardVariables_eq h, Option.map_some]

variable (fails t toChar lower yearMonth hour)

/-- **When the page is rendered**: exactly when the query of the preferences does not raise, and
the row it fetches has a budget. -/
theorem getDashboardPage_isSome_iff :
    (getDashboardPage fails t toChar lower yearMonth hour metabaseUrl).isSome ↔
      fails .preferences = false ∧
        ∃ row ∈ t.preferenceRow, row.targetMonthlyBudgetUsd ≠ none := by
  rw [getDashboardPage, Option.isSome_map, targetBudgetYer_dashboardVariables, boundBudget,
    Option.isSome_iff_exists]
  split
  next hfails => simp [hfails]
  next hfails =>
    simp only [Option.bind_eq_some_iff, Bool.eq_false_iff.mpr hfails, true_and, Option.mem_def,
      Option.ne_none_iff_exists']
    constructor
    · rintro ⟨budget, row, hrow, hbudget⟩
      exact ⟨row, hrow, budget, hbudget⟩
    · rintro ⟨row, hrow, budget, hbudget⟩
      exact ⟨budget, row, hrow, hbudget⟩

end Rendered

/-! ### A new database -/

/-- Tables without a row. -/
def emptyTables : DashboardTables ℤ := ⟨[], [], [], [], [], []⟩

/-- **The page is not rendered** from tables without a row, though no query raises. -/
theorem not_getDashboardPage_emptyTables :
    ¬∀ (fails : DashboardQuery → Bool) (t : DashboardTables ℤ) (toChar : ℤ → String)
      (lower : String → String) (yearMonth : String) (hour : ℕ) (metabaseUrl : Option String),
      (getDashboardPage fails t toChar lower yearMonth hour metabaseUrl).isSome := by
  intro h
  have hempty := h (fun _ => false) emptyTables (fun _ => "2026-05") asciiLower "2026-05" 12
    (some "http://localhost:3000/embed/dashboard/token")
  exact absurd hempty (by decide +kernel)

end SmartHomeEnergy
