import Mathlib.Data.Int.Notation
import Mathlib.Data.List.Nodup
import SmartHomeEnergy.Dashboard.Preferences
import SmartHomeEnergy.Transition.Attempt

/-!
# What a saved form reads back as

`SmartHomeEnergy.Dashboard.Preferences` is about requests that run at the same time, and takes
the row `id = 1` for granted. Here one request runs alone, against any contents of the two
tables, and any of its calls to the database may raise: `SmartHomeEnergy.updatePreferences`.
What it has committed without a failure is what the other module commits
(`SmartHomeEnergy.database_commitTables`).

The user is redirected to the page that shows the preferences when a statement has failed, and
everything is as it was; and also when none has. In the second case the page shows the form only
if there is a row for the `UPDATE` to find, and a limit for every name of the form: the names and
the limits are two lists, and what is left over of one of them is passed over
(`SmartHomeEnergy.allOrNothing_iff`).
-/

namespace SmartHomeEnergy

open Transition

/-! ### The tables -/

/-- A row of `user_preferences`. -/
structure PreferenceRow where
  id : ℤ
  targetMonthlyBudgetUsd : Option ℚ
  ecoModeEnabled : Option Bool
  deriving DecidableEq

/-- A row of `device_thresholds`. -/
structure ThresholdRow where
  userId : Option ℤ
  deviceName : Option String
  maxPriceLimitUsd : Option ℚ
  deriving DecidableEq

/-- The two tables. -/
structure PreferenceDatabase where
  userPreferences : List PreferenceRow
  deviceThresholds : List ThresholdRow
  deriving DecidableEq

/-- The `UPDATE`. -/
def PreferenceDatabase.update (form : PreferencesForm) (d : PreferenceDatabase) :
    PreferenceDatabase :=
  { d with
    userPreferences := d.userPreferences.map fun row =>
      if row.id = 1 then
        { row with
          targetMonthlyBudgetUsd := some form.targetMonthlyBudgetUsd
          ecoModeEnabled := some form.ecoModeEnabled }
      else row }

/-- The `DELETE`. -/
def PreferenceDatabase.delete (d : PreferenceDatabase) : PreferenceDatabase :=
  { d with deviceThresholds := d.deviceThresholds.filter fun row => row.userId ≠ some 1 }

/-- The row of an entry of the form. -/
def thresholdRow (entry : String × ℚ) : ThresholdRow := ⟨some 1, some entry.1, some entry.2⟩

/-- An `INSERT`. -/
def PreferenceDatabase.insert (entry : String × ℚ) (d : PreferenceDatabase) :
    PreferenceDatabase :=
  { d with deviceThresholds := d.deviceThresholds ++ [thresholdRow entry] }

/-! ### The request -/

/-- The calls to the database that may raise; an `INSERT` has the number of its entry. -/
inductive SavingCall
  | connect
  | cursor
  | update
  | delete
  | insert (k : ℕ)
  | commit
  | rollback
  | closeCursor
  | closeConnection
  deriving DecidableEq

/-- `name.strip()` is not empty. -/
def notBlank (name : String) : Bool := name.toList.any fun c => !isSpace c

section Request

variable (fails : SavingCall → Bool)

/-- The loop over the entries of the form, the first of which has the number `k`. -/
def insertEntries : ℕ → List (String × ℚ) → PreferenceDatabase → Attempt PreferenceDatabase
  | _, [], d => .done d
  | k, entry :: entries, d =>
    if notBlank entry.1 then
      if fails (.insert k) then .raise d else insertEntries (k + 1) entries (d.insert entry)
    else insertEntries (k + 1) entries d

/-- The statements inside the `try`, up to the commit. -/
def saveForm (form : PreferencesForm) (d : PreferenceDatabase) : Attempt PreferenceDatabase :=
  if fails .update then .raise d
  else if fails .delete then .raise (d.update form)
  else
    (insertEntries fails 0 (form.deviceName.zip form.maxPriceLimitUsd) (d.update form).delete).bind
      (.check (fails .commit))

/-- `update_preferences`: what is committed, and whether the request raises instead of
redirecting. A statement that fails is rolled back, and what the rollback or the `finally` raises
is not caught. -/
def updatePreferences (form : PreferencesForm) (d : PreferenceDatabase) :
    Attempt PreferenceDatabase :=
  if fails .connect ∨ fails .cursor then .raise d
  else
    let saving := saveForm fails form d
    let handled := if saving.raised then .check (fails .rollback) d else saving
    if fails .closeCursor ∨ fails .closeConnection then .raise handled.state else handled

end Request

/-- What `get_preferences` shows of the preferences: the first row it fetches, and the thresholds
of user 1. -/
structure PreferencesPage where
  userPref : Option (Option ℚ × Option Bool)
  devicePrefs : List (Option String × Option ℚ)
  deriving DecidableEq

/-- The two queries of `get_preferences` that read the preferences. -/
def getPreferences (d : PreferenceDatabase) : PreferencesPage where
  userPref := (d.userPreferences.find? fun row => row.id = 1).map fun row =>
    (row.targetMonthlyBudgetUsd, row.ecoModeEnabled)
  devicePrefs := (d.deviceThresholds.filter fun row => row.userId = some 1).map fun row =>
    (row.deviceName, row.maxPriceLimitUsd)

/-! ### What is committed -/

section Commit

variable {fails : SavingCall → Bool} {form : PreferencesForm} {d d' : PreferenceDatabase}

/-- What the statements make of the tables, when none raises. -/
def savedDatabase (form : PreferencesForm) (d : PreferenceDatabase) : PreferenceDatabase :=
  { (d.update form).delete with
    deviceThresholds := (d.update form).delete.deviceThresholds ++
      (submitted form).map thresholdRow }

/-- A statement of the transaction raises. -/
def StatementFails (fails : SavingCall → Bool) (form : PreferencesForm) : Prop :=
  fails .update ∨ fails .delete ∨
    (∃ k entry, (form.deviceName.zip form.maxPriceLimitUsd)[k]? = some entry ∧
      notBlank entry.1 ∧ fails (.insert k)) ∨
    fails .commit

/-- The loop raises when one of its statements does. -/
theorem raised_insertEntries (fails : SavingCall → Bool) :
    ∀ (k : ℕ) (entries : List (String × ℚ)) (d : PreferenceDatabase),
      (insertEntries fails k entries d).raised ↔
        ∃ j entry, entries[j]? = some entry ∧ notBlank entry.1 ∧ fails (.insert (k + j))
  | k, [], d => by simp [insertEntries]
  | k, entry :: entries, d => by
    -- either the first entry raises, or one of the others
    have hsplit : (∃ j e, (entry :: entries)[j]? = some e ∧ notBlank e.1 ∧
          fails (.insert (k + j))) ↔
        (notBlank entry.1 ∧ fails (.insert k)) ∨
          ∃ j e, entries[j]? = some e ∧ notBlank e.1 ∧ fails (.insert (k + 1 + j)) := by
      constructor
      · rintro ⟨j, e, he, hblank, hfails⟩
        cases j with
        | zero =>
          obtain rfl := Option.some.inj he
          exact Or.inl ⟨hblank, hfails⟩
        | succ j => exact Or.inr ⟨j, e, he, hblank, by rwa [Nat.add_right_comm]⟩
      · rintro (⟨hblank, hfails⟩ | ⟨j, e, he, hblank, hfails⟩)
        · exact ⟨0, entry, rfl, hblank, hfails⟩
        · exact ⟨j + 1, e, he, hblank, by rwa [Nat.add_right_comm] at hfails⟩
    rw [hsplit, insertEntries]
    by_cases hblank : notBlank entry.1
    · by_cases hfails : fails (.insert k)
      · simp [hblank, hfails]
      · rw [if_pos hblank, if_neg hfails, raised_insertEntries]
        simp [hfails]
    · rw [if_neg hblank, raised_insertEntries]
      simp [hblank]

/-- A loop that does not raise inserts the entries that are not blank. -/
theorem state_insertEntries : ∀ {k : ℕ} {entries : List (String × ℚ)} {d : PreferenceDatabase},
    (insertEntries fails k entries d).raised = false →
      (insertEntries fails k entries d).state =
        { d with deviceThresholds := d.deviceThresholds ++
            (entries.filter fun entry => notBlank entry.1).map thresholdRow }
  | k, [], d, _ => by simp [insertEntries]
  | k, entry :: entries, d, h => by
    rw [insertEntries] at h ⊢
    by_cases hblank : notBlank entry.1
    · rw [if_pos hblank] at h ⊢
      split at h
      next => exact absurd h (by simp)
      next hfails =>
        rw [if_neg hfails, state_insertEntries h, PreferenceDatabase.insert]
        simp [hblank]
    · rw [if_neg hblank] at h ⊢
      rw [state_insertEntries h]
      simp [hblank]

/-- **The transaction** raises when a statement does, and commits the form otherwise. -/
theorem saveForm_spec (fails : SavingCall → Bool) (form : PreferencesForm)
    (d : PreferenceDatabase) :
    ((saveForm fails form d).raised ↔ StatementFails fails form) ∧
      ((saveForm fails form d).raised = false →
        (saveForm fails form d).state = savedDatabase form d) := by
  rw [saveForm, StatementFails]
  split
  next hupdate => simp [hupdate]
  next hupdate =>
    split
    next hdelete => simp [hdelete]
    next hdelete =>
      have hraised := raised_insertEntries fails 0 (form.deviceName.zip form.maxPriceLimitUsd)
        (d.update form).delete
      simp only [Nat.zero_add] at hraised
      rw [← hraised, Attempt.bind]
      simp only [hupdate, hdelete]
      split
      next hloop => simp [hloop]
      next hloop =>
        have hstate := state_insertEntries (Bool.eq_false_iff.mpr hloop)
        simp [hloop, Attempt.check, hstate, savedDatabase, submitted, notBlank]

/-- **A request that redirects** has left everything as it was, if a statement has failed, and
has committed the form otherwise. -/
theorem updatePreferences_state (h : (updatePreferences fails form d).raised = false) :
    (StatementFails fails form → (updatePreferences fails form d).state = d) ∧
      (¬StatementFails fails form →
        (updatePreferences fails form d).state = savedDatabase form d) := by
  obtain ⟨hraised, hsaved⟩ := saveForm_spec fails form d
  rw [updatePreferences] at h ⊢
  split at h
  next => exact absurd h (by simp)
  next hconnect =>
    simp only at h
    split at h
    next => exact absurd h (by simp)
    next hclose =>
      rw [if_neg hconnect]
      simp only [if_neg hclose]
      refine ⟨fun hfails => ?_, fun hfails => ?_⟩
      · rw [if_pos (hraised.mpr hfails)]
        rfl
      · have hdone := hraised.not.mpr hfails
        rw [if_neg hdone]
        exact hsaved (Bool.eq_false_iff.mpr hdone)

/-- The budget of a form that is committed is shown if there is a row for it. -/
theorem userPref_savedDatabase :
    (getPreferences (savedDatabase form d)).userPref =
      if ∃ row ∈ d.userPreferences, row.id = 1 then
        some (some form.targetMonthlyBudgetUsd, some form.ecoModeEnabled) else none := by
  have hid : (fun row : PreferenceRow => decide (row.id = 1)) ∘
      (fun row => if row.id = 1 then
        { row with
          targetMonthlyBudgetUsd := some form.targetMonthlyBudgetUsd
          ecoModeEnabled := some form.ecoModeEnabled } else row) =
        fun row => decide (row.id = 1) := by
    funext row
    by_cases hrow : row.id = 1 <;> simp [hrow]
  rw [getPreferences, savedDatabase, PreferenceDatabase.delete, PreferenceDatabase.update,
    List.find?_map, hid]
  split
  next hrow =>
    obtain ⟨row, hmem, hone⟩ := hrow
    obtain ⟨first, hfirst⟩ : ∃ first, d.userPreferences.find? (fun row => row.id = 1) =
        some first :=
      Option.isSome_iff_exists.mp (List.find?_isSome.mpr ⟨row, hmem, decide_eq_true hone⟩)
    have hone' : first.id = 1 := by simpa using List.find?_some hfirst
    simp [hfirst, hone']
  next hrow =>
    have hnone : d.userPreferences.find? (fun row => row.id = 1) = none :=
      List.find?_eq_none.mpr fun row hmem hone => hrow ⟨row, hmem, of_decide_eq_true hone⟩
    rw [hnone]
    rfl

/-- The thresholds of a form that is committed are all that is shown for user 1. -/
theorem devicePrefs_savedDatabase :
    (getPreferences (savedDatabase form d)).devicePrefs =
      (submitted form).map fun entry => (some entry.1, some entry.2) := by
  have hold : (d.deviceThresholds.filter fun row => row.userId ≠ some 1).filter
      (fun row => row.userId = some 1) = [] := by
    refine List.filter_eq_nil_iff.mpr fun row hrow => ?_
    simpa using (List.mem_filter.mp hrow).2
  have hnew : ((submitted form).map thresholdRow).filter (fun row => row.userId = some 1) =
      (submitted form).map thresholdRow := by
    refine List.filter_eq_self.mpr fun row hrow => ?_
    obtain ⟨entry, -, rfl⟩ := List.mem_map.mp hrow
    rfl
  have hthresholds : (savedDatabase form d).deviceThresholds.filter
      (fun row => row.userId = some 1) = (submitted form).map thresholdRow := by
    rw [savedDatabase, List.filter_append, hnew]
    exact congrArg (· ++ _) hold
  rw [getPreferences, hthresholds, List.map_map]
  rfl

end Commit

/-! ### All or nothing -/

section AllOrNothing

variable {fails : SavingCall → Bool} {form : PreferencesForm} {d d' : PreferenceDatabase}

/-- No limit is without a name, and no name that is not blank is without a limit. -/
def NothingDiscarded (form : PreferencesForm) : Prop :=
  form.maxPriceLimitUsd.length ≤ form.deviceName.length ∧
    ∀ name ∈ form.deviceName.drop form.maxPriceLimitUsd.length, notBlank name = false

/-- **The form reads back**: the page shows the budget and the flag, and for user 1 the entries
that are not blank, and the form has nothing besides. -/
structure ReadsBack (form : PreferencesForm) (d : PreferenceDatabase) : Prop where
  userPref : (getPreferences d).userPref =
    some (some form.targetMonthlyBudgetUsd, some form.ecoModeEnabled)
  devicePrefs : (getPreferences d).devicePrefs.Perm
    ((submitted form).map fun entry => (some entry.1, some entry.2))
  complete : NothingDiscarded form

/-- Either a statement has failed, and nothing has changed, or the form reads back. -/
def AllOrNothing (fails : SavingCall → Bool) (form : PreferencesForm)
    (d d' : PreferenceDatabase) : Prop :=
  StatementFails fails form ∧ d' = d ∨ ReadsBack form d'

/-- A form that is committed reads back when there is a row for it, and it has nothing left
over. -/
theorem readsBack_savedDatabase :
    ReadsBack form (savedDatabase form d) ↔
      (∃ row ∈ d.userPreferences, row.id = 1) ∧ NothingDiscarded form := by
  constructor
  · rintro ⟨hprefs, -, hcomplete⟩
    refine ⟨?_, hcomplete⟩
    by_contra hrow
    rw [userPref_savedDatabase, if_neg hrow] at hprefs
    exact absurd hprefs (by simp)
  · rintro ⟨hrow, hcomplete⟩
    refine ⟨?_, ?_, hcomplete⟩
    · rw [userPref_savedDatabase, if_pos hrow]
    · rw [devicePrefs_savedDatabase]

/-- **Saving is all or nothing**, for a request that redirects, exactly when a statement fails,
or there is a row `id = 1`, and every limit has a name and every name that is not blank a
limit. -/
theorem allOrNothing_iff (h : (updatePreferences fails form d).raised = false) :
    AllOrNothing fails form d (updatePreferences fails form d).state ↔
      StatementFails fails form ∨
        (∃ row ∈ d.userPreferences, row.id = 1) ∧ NothingDiscarded form := by
  obtain ⟨hrolled, hsaved⟩ := updatePreferences_state h
  by_cases hfails : StatementFails fails form
  · rw [hrolled hfails]
    exact iff_of_true (Or.inl ⟨hfails, rfl⟩) (Or.inl hfails)
  · rw [hsaved hfails, AllOrNothing, or_iff_right fun hleft => hfails hleft.1,
      or_iff_right hfails, readsBack_savedDatabase]

end AllOrNothing

/-! ### Requests at the same time -/

section Concurrent

variable {form : PreferencesForm} {t : PreferenceTables}

/-- The tables of the server, with their columns. -/
def PreferenceTables.database (t : PreferenceTables) : PreferenceDatabase where
  userPreferences := t.userPreference.toList.map fun row =>
    ⟨1, some row.targetMonthlyBudgetUsd, some row.ecoModeEnabled⟩
  deviceThresholds := t.deviceThresholds.map fun row =>
    ⟨some row.userId, some row.deviceName, some row.maxPriceLimitUsd⟩

/-- A threshold with its columns. -/
def Threshold.row (t : Threshold) : ThresholdRow :=
  ⟨some t.userId, some t.deviceName, some t.maxPriceLimitUsd⟩

theorem database_deviceThresholds (t : PreferenceTables) :
    t.database.deviceThresholds = t.deviceThresholds.map Threshold.row := rfl

/-- Deleting the rows that were seen of user 1 keeps those of the other users. -/
theorem filter_rowId_eq (hids : (t.deviceThresholds.map (·.rowId)).Nodup) :
    (t.deviceThresholds.filter fun row =>
      row.rowId ∉ (t.deviceThresholds.filter fun row => row.userId = 1).map (·.rowId)) =
        t.deviceThresholds.filter fun row => row.userId ≠ 1 := by
  refine List.filter_congr fun row hrow => decide_eq_decide.mpr (not_congr ?_)
  constructor
  · intro hid
    obtain ⟨other, hother, he⟩ := List.mem_map.mp hid
    obtain ⟨hmem, hone⟩ := List.mem_filter.mp hother
    rw [← List.inj_on_of_nodup_map hids hmem hrow he]
    exact of_decide_eq_true hone
  · intro hone
    exact List.mem_map.mpr ⟨row, List.mem_filter.mpr ⟨hrow, decide_eq_true hone⟩, rfl⟩

/-- The `DELETE` of a request alone, on the rows of the server. -/
theorem filter_userId_map_row (rows : List Threshold) :
    (rows.map Threshold.row).filter (fun row => row.userId ≠ some 1) =
      (rows.filter fun row => row.userId ≠ 1).map Threshold.row := by
  rw [List.filter_map]
  refine congrArg _ (List.filter_congr fun row _ => decide_eq_decide.mpr (not_congr ?_))
  rw [Threshold.row, Option.some_inj]
  omega

/-- The rows of the entries of a form. -/
theorem map_row_eq {inserted : List Threshold} (huser : ∀ row ∈ inserted, row.userId = 1)
    (hentries : inserted.map Threshold.entry = submitted form) :
    inserted.map Threshold.row = (submitted form).map thresholdRow := by
  rw [← hentries, List.map_map]
  refine List.map_congr_left fun row hrow => ?_
  rw [Threshold.row, huser row hrow]
  rfl

/-- **A transaction that commits alone** commits what the statements of the request make of the
tables. -/
theorem database_commitTables (hids : (t.deviceThresholds.map (·.rowId)).Nodup)
    {inserted : List Threshold} (huser : ∀ row ∈ inserted, row.userId = 1)
    (hentries : inserted.map Threshold.entry = submitted form) :
    (commitTables form ((t.deviceThresholds.filter fun row => row.userId = 1).map (·.rowId))
      inserted t).database = savedDatabase form t.database := by
  rw [savedDatabase, PreferenceDatabase.delete, PreferenceDatabase.update,
    database_deviceThresholds, filter_userId_map_row, ← map_row_eq huser hentries,
    ← filter_rowId_eq hids, ← List.map_append]
  rw [commitTables, PreferenceTables.database]
  congr 1
  cases htable : t.userPreference <;> simp [PreferenceTables.database, htable]

end Concurrent

/-! ### A form that does not read back -/

/-- Nothing fails. -/
def noFailure (_ : SavingCall) : Bool := false

/-- Two devices, and one limit. -/
def shortForm : PreferencesForm := ⟨100, true, ["Fridge", "Lamp"], [5]⟩

/-- Two devices, and their limits. -/
def fullForm : PreferencesForm := ⟨100, true, ["Fridge", "Lamp", " "], [5, 3, 1]⟩

/-- The preferences of the user, and an old threshold. -/
def oldPreferences : PreferenceDatabase :=
  ⟨[⟨1, some 50, some false⟩], [⟨some 1, some "Heater", some 9⟩, ⟨some 2, some "Lamp", some 4⟩]⟩

/-- **Saving is not all or nothing**: without a row the budget is lost while the thresholds are
saved, and the lamp that has no limit is lost even with a row. -/
theorem not_allOrNothing :
    ((updatePreferences noFailure fullForm ⟨[], []⟩).raised = false ∧
        ¬AllOrNothing noFailure fullForm ⟨[], []⟩
          (updatePreferences noFailure fullForm ⟨[], []⟩).state) ∧
      (updatePreferences noFailure shortForm oldPreferences).raised = false ∧
        ¬AllOrNothing noFailure shortForm oldPreferences
          (updatePreferences noFailure shortForm oldPreferences).state := by
  refine ⟨⟨by decide +kernel, ?_⟩, by decide +kernel, ?_⟩
  · rintro (⟨hfails, -⟩ | ⟨hprefs, -, -⟩)
    · simp [StatementFails, noFailure] at hfails
    · exact absurd hprefs (by decide +kernel)
  · rintro (⟨hfails, -⟩ | ⟨-, -, -, hnames⟩)
    · simp [StatementFails, noFailure] at hfails
    · exact absurd (hnames "Lamp" (by decide +kernel)) (by decide +kernel)

/-- With a row, and a limit for each device, the form reads back. -/
theorem allOrNothing_iff_fullForm :
    AllOrNothing noFailure fullForm oldPreferences
      (updatePreferences noFailure fullForm oldPreferences).state := by
  refine (allOrNothing_iff (by decide +kernel)).mpr (Or.inr ⟨?_, ?_, ?_⟩)
  · exact ⟨_, List.mem_singleton_self _, rfl⟩
  · decide +kernel
  · decide +kernel

end SmartHomeEnergy
