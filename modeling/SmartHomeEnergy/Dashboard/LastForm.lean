import SmartHomeEnergy.Dashboard.Page
import SmartHomeEnergy.Simulator.CacheRefresh

/-!
# The last saved form

The preferences are written in one place and read in three: the page of the preferences shows
them, the dashboard takes its target budget and its eco badge from them, and the simulator the
eco mode. Any request that writes them may fail at any of its calls, and may raise after its
commit.

Whatever the requests were, all the readers see the same form, the last one that was saved: the
earlier ones and those that failed have left no trace, and nothing but the rows of user 1 has
changed (`SmartHomeEnergy.lastForm_everywhere`). The pages need no agreement on which of several
rows `id = 1` they fetch, since a form is written to all of them.
-/

namespace SmartHomeEnergy

open Relational Numeric Transition

/-! ### A request, failing or not -/

/-- A request with the calls that fail. -/
abbrev FormRequest := PreferencesForm × (SavingCall → Bool)

/-- A request is saved. -/
def Saves (r : FormRequest) : Prop :=
  ¬(r.2 .connect ∨ r.2 .cursor) ∧ ¬StatementFails r.2 r.1

/-- One request after the other. -/
def preferenceStep (d : PreferenceDatabase) (r : FormRequest) : PreferenceDatabase :=
  (updatePreferences r.2 r.1 d).state

section Step

variable {d : PreferenceDatabase} {r : FormRequest}

/-- **A request that is saved** leaves its form, even if it raises after the commit. -/
theorem preferenceStep_of_saves (h : Saves r) : preferenceStep d r = savedDatabase r.1 d := by
  obtain ⟨hconnect, hfails⟩ := h
  obtain ⟨hraised, hsaved⟩ := saveForm_spec r.2 r.1 d
  have hdone : (saveForm r.2 r.1 d).raised = false := Bool.eq_false_iff.mpr (hraised.not.mpr hfails)
  rw [preferenceStep, updatePreferences, if_neg hconnect]
  simp only [hdone, Bool.false_eq_true, if_false]
  split
  · exact hsaved hdone
  · exact hsaved hdone

/-- **A request that is not saved** leaves everything as it was, whatever it answers. -/
theorem preferenceStep_of_not_saves (h : ¬Saves r) : preferenceStep d r = d := by
  rw [preferenceStep, updatePreferences]
  split
  next => rfl
  next hconnect =>
    have hfails : StatementFails r.2 r.1 := not_not.mp fun hfails => h ⟨hconnect, hfails⟩
    have hraised := (saveForm_spec r.2 r.1 d).1.mpr hfails
    simp only [hraised, if_true]
    split <;> rfl

end Step

/-! ### A form in the tables -/

/-- The rows that are not those of user 1. -/
def foreignRows (d : PreferenceDatabase) : List PreferenceRow × List ThresholdRow :=
  (d.userPreferences.filter fun row => row.id ≠ 1,
    d.deviceThresholds.filter fun row => row.userId ≠ some 1)

/-- **The form is in the tables**: every row `id = 1` has its budget and its mode, there is one,
and the thresholds of user 1 are its entries. -/
structure HoldsForm (form : PreferencesForm) (d : PreferenceDatabase) : Prop where
  exists_row : ∃ row ∈ d.userPreferences, row.id = 1
  rows : ∀ row ∈ d.userPreferences, row.id = 1 →
    row.targetMonthlyBudgetUsd = some form.targetMonthlyBudgetUsd ∧
      row.ecoModeEnabled = some form.ecoModeEnabled
  thresholds : (d.deviceThresholds.filter fun row => row.userId = some 1) =
    (submitted form).map thresholdRow

/-- The form that was saved last. -/
def LastSaved (rs : List FormRequest) (form : PreferencesForm) : Prop :=
  ∃ before r after, rs = before ++ r :: after ∧ Saves r ∧ r.1 = form ∧ ∀ r' ∈ after, ¬Saves r'

section Saved

variable {d : PreferenceDatabase} {form : PreferencesForm}

theorem exists_row_savedDatabase (h : ∃ row ∈ d.userPreferences, row.id = 1) :
    ∃ row ∈ (savedDatabase form d).userPreferences, row.id = 1 := by
  obtain ⟨row, hmem, hid⟩ := h
  refine ⟨_, List.mem_map.mpr ⟨row, hmem, rfl⟩, ?_⟩
  rw [if_pos hid]
  exact hid

theorem holdsForm_savedDatabase (h : ∃ row ∈ d.userPreferences, row.id = 1) :
    HoldsForm form (savedDatabase form d) where
  exists_row := exists_row_savedDatabase h
  rows row hrow hid := by
    obtain ⟨old, -, rfl⟩ := List.mem_map.mp hrow
    by_cases hold : old.id = 1
    · simp [hold]
    · simp [hold] at hid
  thresholds := by
    have hnew : ((submitted form).map thresholdRow).filter (fun row => row.userId = some 1) =
        (submitted form).map thresholdRow := by
      refine List.filter_eq_self.mpr fun row hrow => ?_
      obtain ⟨entry, -, rfl⟩ := List.mem_map.mp hrow
      rfl
    have hold : (d.deviceThresholds.filter fun row => row.userId ≠ some 1).filter
        (fun row => row.userId = some 1) = [] := by
      refine List.filter_eq_nil_iff.mpr fun row hrow => ?_
      simpa using (List.mem_filter.mp hrow).2
    rw [savedDatabase, List.filter_append, hnew]
    exact congrArg (· ++ _) hold

/-- A form changes no row of anybody else. -/
theorem foreignRows_savedDatabase : foreignRows (savedDatabase form d) = foreignRows d := by
  refine Prod.ext ?_ ?_
  · have hid : ∀ row : PreferenceRow, (if row.id = 1 then
        { row with
          targetMonthlyBudgetUsd := some form.targetMonthlyBudgetUsd
          ecoModeEnabled := some form.ecoModeEnabled } else row).id = row.id := by
      intro row
      split <;> rfl
    rw [foreignRows, foreignRows, savedDatabase, PreferenceDatabase.delete,
      PreferenceDatabase.update, List.filter_map]
    simp only [Function.comp_def, hid]
    refine (List.map_congr_left fun row hrow => ?_).trans (List.map_id _)
    exact if_neg (of_decide_eq_true (List.mem_filter.mp hrow).2)
  · have hnew : ((submitted form).map thresholdRow).filter (fun row => row.userId ≠ some 1) =
        [] := by
      refine List.filter_eq_nil_iff.mpr fun row hrow => ?_
      obtain ⟨entry, -, rfl⟩ := List.mem_map.mp hrow
      simp [thresholdRow]
    show (((d.deviceThresholds.filter fun row => row.userId ≠ some 1) ++ _).filter _) = _
    rw [List.filter_append, hnew, List.append_nil, List.filter_filter]
    simp only [Bool.and_self, foreignRows]

end Saved

/-! ### Histories -/

section History

variable {d : PreferenceDatabase} {rs : List FormRequest}

/-- Requests that are not saved leave everything as it was. -/
theorem exec_preferenceStep_of_not_saves (h : ∀ r ∈ rs, ¬Saves r) :
    exec preferenceStep d rs = d := by
  induction rs with
  | nil => rfl
  | cons r rs ih =>
    rw [exec_cons, preferenceStep_of_not_saves (h r List.mem_cons_self)]
    exact ih fun r' hr' => h r' (List.mem_cons_of_mem _ hr')

/-- The row of the preferences stays, and so do the rows of everybody else. -/
theorem exec_preferenceStep_frame (hrow : ∃ row ∈ d.userPreferences, row.id = 1)
    (rs : List FormRequest) :
    (∃ row ∈ (exec preferenceStep d rs).userPreferences, row.id = 1) ∧
      foreignRows (exec preferenceStep d rs) = foreignRows d := by
  refine exec_induction preferenceStep
    (fun _ s => (∃ row ∈ s.userPreferences, row.id = 1) ∧ foreignRows s = foreignRows d)
    ⟨hrow, rfl⟩ (fun before r ih => ?_) rs
  by_cases hr : Saves r
  · rw [preferenceStep_of_saves hr]
    exact ⟨exists_row_savedDatabase ih.1, foreignRows_savedDatabase.trans ih.2⟩
  · rwa [preferenceStep_of_not_saves hr]

/-- Either no request was saved, or one was the last. -/
theorem not_saves_or_lastSaved (rs : List FormRequest) :
    (∀ r ∈ rs, ¬Saves r) ∨ ∃ form, LastSaved rs form := by
  induction rs using List.reverseRecOn with
  | nil => exact Or.inl (by simp)
  | append_singleton rs r ih =>
    by_cases hr : Saves r
    · exact Or.inr ⟨r.1, rs, r, [], rfl, hr, rfl, by simp⟩
    rcases ih with hnone | ⟨form, before, r', after, rfl, hr', hform, hafter⟩
    · refine Or.inl fun x hx => ?_
      rcases List.mem_append.mp hx with hx | hx
      · exact hnone x hx
      · rwa [List.mem_singleton.mp hx]
    · refine Or.inr ⟨form, before, r', after ++ [r], by simp, hr', hform, fun x hx => ?_⟩
      rcases List.mem_append.mp hx with hx | hx
      · exact hafter x hx
      · rwa [List.mem_singleton.mp hx]

/-- **The last saved form** is in the tables. -/
theorem holdsForm_of_lastSaved (hrow : ∃ row ∈ d.userPreferences, row.id = 1)
    {form : PreferencesForm} (h : LastSaved rs form) :
    HoldsForm form (exec preferenceStep d rs) := by
  obtain ⟨before, r, after, rfl, hr, rfl, hafter⟩ := h
  rw [exec_append, exec_cons, exec_preferenceStep_of_not_saves hafter, preferenceStep_of_saves hr]
  exact holdsForm_savedDatabase (exec_preferenceStep_frame hrow before).1

end History

/-! ### The readers -/

/-- **What the readers see of a form**, whichever row `id = 1` they fetch: the page of the
preferences, the dashboard when its query of the preferences does not raise, and the simulator
when its cache is read again in full. -/
structure SeenEverywhere (form : PreferencesForm) (d : PreferenceDatabase) : Prop where
  page : ∀ read : PreferenceDatabase, read.userPreferences.Perm d.userPreferences →
    read.deviceThresholds.Perm d.deviceThresholds →
      (getPreferences read).userPref =
          some (some form.targetMonthlyBudgetUsd, some form.ecoModeEnabled) ∧
        (getPreferences read).devicePrefs.Perm
          ((submitted form).map fun entry => (some entry.1, some entry.2))
  dashboard : ∀ {D : Type} (fails : DashboardQuery → Bool) (t : DashboardTables D)
    (toChar : D → String) (lower : String → String) (yearMonth : String) (hour : ℕ)
    (metabaseUrl : Option String), fails .preferences = false →
      t.userPreferences.Perm d.userPreferences →
        ∃ shown, getDashboardPage fails t toChar lower yearMonth hour metabaseUrl = some shown ∧
          shown.targetBudget = form.targetMonthlyBudgetUsd ∧ shown.ecoMode = form.ecoModeEnabled ∧
            (shown.isBudgetExceeded ↔ fails .spending = false ∧
              form.targetMonthlyBudgetUsd < t.totalSpent toChar yearMonth)
  simulator : ∀ (c : CachedData) (call : CacheCall) (rows : List PreferenceRow),
    rows.Perm d.userPreferences →
      call.prefRow = (rows.find? fun row => row.id = 1).map (·.ecoModeEnabled) →
        ReadInFull c call →
          (getAllDevices c call).pair = (call.devices, some form.ecoModeEnabled)

section Readers

variable {d : PreferenceDatabase} {form : PreferencesForm}

/-- Whichever row `id = 1` is fetched, it has the budget and the mode of the form. -/
theorem HoldsForm.fetched (h : HoldsForm form d) {rows : List PreferenceRow}
    (hperm : rows.Perm d.userPreferences) :
    ∃ row, rows.find? (fun row => row.id = 1) = some row ∧
      row.targetMonthlyBudgetUsd = some form.targetMonthlyBudgetUsd ∧
        row.ecoModeEnabled = some form.ecoModeEnabled := by
  obtain ⟨row₀, hmem₀, hid₀⟩ := h.exists_row
  obtain ⟨row, hrow⟩ : ∃ row, rows.find? (fun row => row.id = 1) = some row :=
    Option.isSome_iff_exists.mp
      (List.find?_isSome.mpr ⟨row₀, hperm.mem_iff.mpr hmem₀, decide_eq_true hid₀⟩)
  have hid : row.id = 1 := by simpa using List.find?_some hrow
  exact ⟨row, hrow, h.rows row (hperm.mem_iff.mp (List.mem_of_find?_eq_some hrow)) hid⟩

/-- **A form that is in the tables** is seen by all the readers. -/
theorem HoldsForm.seenEverywhere (h : HoldsForm form d) : SeenEverywhere form d where
  page read hrows hthresholds := by
    obtain ⟨row, hrow, hbudget, heco⟩ := h.fetched hrows
    have hentries := hthresholds.filter fun row => row.userId = some 1
    rw [h.thresholds] at hentries
    refine ⟨by simp [getPreferences, hrow, hbudget, heco], ?_⟩
    have hshown := hentries.map fun row => (row.deviceName, row.maxPriceLimitUsd)
    rw [List.map_map] at hshown
    exact hshown
  dashboard fails t toChar lower yearMonth hour metabaseUrl hfails hperm := by
    obtain ⟨row, hrow, hbudget, heco⟩ := h.fetched hperm
    have hrow' : t.preferenceRow = some row := hrow
    have hbound : boundBudget fails t = some form.targetMonthlyBudgetUsd := by
      rw [boundBudget, if_neg (by simp [hfails]), hrow']
      exact hbudget
    refine ⟨_, getDashboardPage_eq metabaseUrl hbound, rfl, ?_, by simp⟩
    simp [hrow', heco]
  simulator c call rows hperm hread hfull := by
    obtain ⟨row, hrow, -, heco⟩ := h.fetched hperm
    have hmode : call.ecoMode = some form.ecoModeEnabled := by
      rw [CacheCall.ecoMode, hread, hrow, Option.map_some, Option.getD_some, heco]
    rcases pair_getAllDevices c call with ⟨-, hpair⟩ | ⟨-, hbetween, -⟩ | ⟨hnot, -⟩
    · rw [hpair, CacheCall.pair, hmode]
    · exact absurd hbetween hfull.2.2
    · exact absurd hfull hnot

end Readers

/-- **The last saved form is what everybody sees**, after any requests, whichever of them fail
and wherever: the tables are as they were when none was saved, and otherwise all the readers see
the last form that was; the rows of everybody else are untouched. -/
theorem lastForm_everywhere {d : PreferenceDatabase}
    (hrow : ∃ row ∈ d.userPreferences, row.id = 1) (rs : List FormRequest) :
    foreignRows (exec preferenceStep d rs) = foreignRows d ∧
      ((∀ r ∈ rs, ¬Saves r) ∧ exec preferenceStep d rs = d ∨
        ∃ form, LastSaved rs form ∧ SeenEverywhere form (exec preferenceStep d rs)) := by
  refine ⟨(exec_preferenceStep_frame hrow rs).2, ?_⟩
  rcases not_saves_or_lastSaved rs with hnone | ⟨form, hlast⟩
  · exact Or.inl ⟨hnone, exec_preferenceStep_of_not_saves hnone⟩
  · exact Or.inr ⟨form, hlast, (holdsForm_of_lastSaved hrow hlast).seenEverywhere⟩

/-- A budget, and the threshold of another user. -/
def savedBudget : PreferenceDatabase :=
  ⟨[⟨1, some 50, some false⟩], [⟨some 2, some "Lamp", some 4⟩]⟩

/-- A form that raises after its commit, and one whose commit fails. -/
def twoFailures : List FormRequest :=
  [(⟨80, true, ["Fridge"], [5]⟩, fun c => c = .closeCursor),
    (⟨20, false, [], []⟩, fun c => c = .commit)]

/-- The first of the two is what everybody sees. -/
theorem lastForm_everywhere_twoFailures :
    ∃ form, LastSaved twoFailures form ∧
      SeenEverywhere form (exec preferenceStep savedBudget twoFailures) := by
  have hrow : ∃ row ∈ savedBudget.userPreferences, row.id = 1 := by simp [savedBudget]
  rcases (lastForm_everywhere hrow twoFailures).2 with ⟨hnone, -⟩ | hlast
  · refine absurd (hnone _ List.mem_cons_self) (not_not.mpr ⟨by simp, ?_⟩)
    rintro (h | h | ⟨k, entry, -, -, h⟩ | h) <;> simp at h
  · exact hlast

end SmartHomeEnergy
