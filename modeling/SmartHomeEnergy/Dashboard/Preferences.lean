import Mathlib.Data.Rat.Init
import Mathlib.Logic.Function.Basic
import SmartHomeEnergy.Transition.Run

/-!
# Saving the preferences

`update_preferences` is one transaction of several statements: an `UPDATE` of the row
`id = 1` of `user_preferences`, a `DELETE` of the thresholds of user 1, an `INSERT` for each
threshold of the form, and the commit; whatever fails on the way leads to a rollback. The
transactions run at the level READ COMMITTED, where a `DELETE` does not see the rows that a
concurrent transaction has inserted, so that two such transactions could leave the thresholds
of both behind.

They do not, since the `UPDATE` comes first and the row it writes stays locked to the end:
no other transaction gets past its own `UPDATE` (`SmartHomeEnergy.Locked`), so the rows a
`DELETE` has seen are still the committed ones when its transaction commits. The server
simulates one that saves each form at once, when it commits
(`SmartHomeEnergy.simulates_saveAtOnce`), and what is saved is the last form that was committed
(`SmartHomeEnergy.preferences_serializable`).
-/

namespace SmartHomeEnergy

open Transition

/-! ### The form and the tables -/

/-- The form of `POST /preferences`. -/
structure PreferencesForm where
  targetMonthlyBudgetUsd : ℚ
  ecoModeEnabled : Bool
  deviceName : List String
  maxPriceLimitUsd : List ℚ

/-- The row of `user_preferences`. -/
structure UserPreference where
  targetMonthlyBudgetUsd : ℚ
  ecoModeEnabled : Bool
  deriving DecidableEq

/-- A row of `device_thresholds`; `rowId` tells apart rows with the same columns. -/
structure Threshold where
  rowId : ℕ
  userId : ℕ
  deviceName : String
  maxPriceLimitUsd : ℚ
  deriving DecidableEq

/-- The committed rows: the row `id = 1` of `user_preferences`, if there is one, and
`device_thresholds`. -/
structure PreferenceTables where
  userPreference : Option UserPreference
  deviceThresholds : List Threshold

/-- The characters that `strip` removes. -/
def isSpace (c : Char) : Bool :=
  let n := c.toNat
  (9 ≤ n && n ≤ 13) || (28 ≤ n && n ≤ 32) || n = 0x85 || n = 0xA0 || n = 0x1680 ||
    (0x2000 ≤ n && n ≤ 0x200A) || n = 0x2028 || n = 0x2029 || n = 0x202F || n = 0x205F ||
    n = 0x3000

/-- The thresholds that are inserted: a name that is blank is passed over. -/
def submitted (form : PreferencesForm) : List (String × ℚ) :=
  (form.deviceName.zip form.maxPriceLimitUsd).filter fun entry =>
    entry.1.toList.any fun c => !isSpace c

/-! ### The transactions -/

/-- How far a request has come. -/
inductive SavingPhase
  /-- The `UPDATE` has not been executed; it may be waiting for the row. -/
  | waiting
  /-- The row is written. -/
  | updated
  /-- The `DELETE` has started, with the rows that were committed then. -/
  | deleting (snapshot : List Threshold)
  /-- The rows with these ids are deleted, these rows are inserted, and the rest of the form is
  not. -/
  | inserting (deleted : List ℕ) (inserted : List Threshold) (rest : List (String × ℚ))
  | committed
  | rolledBack

/-- What a request does. -/
inductive SavingAction
  | update
  | startDelete
  | finishDelete
  | insert
  | commit
  | rollback
  deriving DecidableEq

/-- The committed rows, the request that has locked the row of `user_preferences`, the next id
of a threshold, and the requests. -/
structure PreferenceServer (ι : Type*) where
  tables : PreferenceTables
  rowLock : Option ι
  nextRowId : ℕ
  phase : ι → SavingPhase

variable {ι : Type*}

section Statements

variable [DecidableEq ι]

/-- A request moves on. -/
def PreferenceServer.withPhase (s : PreferenceServer ι) (i : ι) (p : SavingPhase) :
    PreferenceServer ι :=
  { s with phase := Function.update s.phase i p }

/-- The lock is released, if the request has it. -/
def PreferenceServer.release (s : PreferenceServer ι) (i : ι) : PreferenceServer ι :=
  { s with rowLock := if s.rowLock = some i then none else s.rowLock }

section Fields

variable {s : PreferenceServer ι} {i j : ι} {p : SavingPhase}

@[simp] theorem tables_withPhase : (s.withPhase i p).tables = s.tables := rfl

@[simp] theorem rowLock_withPhase : (s.withPhase i p).rowLock = s.rowLock := rfl

@[simp] theorem phase_withPhase_self : (s.withPhase i p).phase i = p := Function.update_self ..

theorem phase_withPhase_of_ne (h : j ≠ i) : (s.withPhase i p).phase j = s.phase j :=
  Function.update_of_ne h ..

@[simp] theorem tables_release : (s.release i).tables = s.tables := rfl

@[simp] theorem phase_release : (s.release i).phase = s.phase := rfl

/-- Releasing the lock takes it from nobody else. -/
theorem rowLock_release_of_ne (h : s.rowLock = some j) (hne : j ≠ i) :
    (s.release i).rowLock = some j := by
  rw [PreferenceServer.release, if_neg (by simpa [h] using hne), h]

theorem rowLock_release_self (h : s.rowLock = some i) : (s.release i).rowLock = none := if_pos h

end Fields

/-- The tables after the commit of a transaction. -/
def commitTables (form : PreferencesForm) (deleted : List ℕ) (inserted : List Threshold)
    (t : PreferenceTables) : PreferenceTables where
  userPreference := t.userPreference.map fun _ =>
    ⟨form.targetMonthlyBudgetUsd, form.ecoModeEnabled⟩
  deviceThresholds := (t.deviceThresholds.filter fun row => row.rowId ∉ deleted) ++ inserted

/-- **The statements of `update_preferences`**, each at once or, where it reads other rows, in
two steps. -/
inductive SavingStep (form : ι → PreferencesForm) :
    PreferenceServer ι → ι × SavingAction → PreferenceServer ι → Prop
  /-- The `UPDATE` finds the row and locks it; it waits as long as another request has it. -/
  | update {s : PreferenceServer ι} {i : ι} {old : UserPreference} :
      s.phase i = .waiting → s.tables.userPreference = some old → s.rowLock = none →
      SavingStep form s (i, .update) { s.withPhase i .updated with rowLock := some i }
  /-- The `UPDATE` finds no row, and locks none. -/
  | updateNothing {s : PreferenceServer ι} {i : ι} :
      s.phase i = .waiting → s.tables.userPreference = none →
      SavingStep form s (i, .update) (s.withPhase i .updated)
  /-- The `DELETE` sees what is committed when it starts. -/
  | startDelete {s : PreferenceServer ι} {i : ι} :
      s.phase i = .updated →
      SavingStep form s (i, .startDelete)
        (s.withPhase i (.deleting s.tables.deviceThresholds))
  | finishDelete {s : PreferenceServer ι} {i : ι} {snapshot : List Threshold} :
      s.phase i = .deleting snapshot →
      SavingStep form s (i, .finishDelete)
        (s.withPhase i (.inserting ((snapshot.filter fun row => row.userId = 1).map (·.rowId)) []
          (submitted (form i))))
  | insert {s : PreferenceServer ι} {i : ι} {deleted : List ℕ} {inserted : List Threshold}
      {name : String} {limit : ℚ} {rest : List (String × ℚ)} :
      s.phase i = .inserting deleted inserted ((name, limit) :: rest) →
      SavingStep form s (i, .insert)
        { s.withPhase i (.inserting deleted (inserted ++ [⟨s.nextRowId, 1, name, limit⟩]) rest) with
          nextRowId := s.nextRowId + 1 }
  | commit {s : PreferenceServer ι} {i : ι} {deleted : List ℕ} {inserted : List Threshold} :
      s.phase i = .inserting deleted inserted [] →
      SavingStep form s (i, .commit)
        { (s.withPhase i .committed).release i with
          tables := commitTables (form i) deleted inserted s.tables }
  /-- A statement fails, or the commit does. -/
  | rollback {s : PreferenceServer ι} {i : ι} :
      s.phase i ≠ .committed → s.phase i ≠ .rolledBack →
      SavingStep form s (i, .rollback) ((s.withPhase i .rolledBack).release i)

end Statements

/-- The id that comes after those of some rows. -/
def nextRowIdOf (rows : List Threshold) : ℕ := (rows.map (·.rowId)).foldr max 0 + 1

/-- No request has been sent yet. -/
def PreferenceServer.start (ι : Type*) (tables : PreferenceTables) : PreferenceServer ι where
  tables := tables
  rowLock := none
  nextRowId := nextRowIdOf tables.deviceThresholds
  phase := fun _ => .waiting

/-! ### What is saved -/

/-- The preferences of user 1. -/
@[ext]
structure SavedPreferences where
  userPreference : Option UserPreference
  thresholds : List (String × ℚ)
  deriving DecidableEq

/-- The columns of a threshold that a form fills in. -/
def Threshold.entry (row : Threshold) : String × ℚ := (row.deviceName, row.maxPriceLimitUsd)

/-- What is committed for user 1. -/
def saved (t : PreferenceTables) : SavedPreferences where
  userPreference := t.userPreference
  thresholds := (t.deviceThresholds.filter fun row => row.userId = 1).map Threshold.entry

/-- What one form asks for. -/
def savedForm (form : PreferencesForm) : SavedPreferences where
  userPreference := some ⟨form.targetMonthlyBudgetUsd, form.ecoModeEnabled⟩
  thresholds := submitted form

/-- The request that committed last. -/
def lastCommitted (ls : List (ι × SavingAction)) : Option ι :=
  ((ls.filter fun l => l.2 = .commit).getLast?).map (·.1)

/-- A server without concurrency: a form is saved at once, when its request commits. -/
def saveAtOnce (form : ι → PreferencesForm) (v : SavedPreferences) (l : ι × SavingAction) :
    SavedPreferences :=
  if l.2 = .commit then savedForm (form l.1) else v

/-- Nothing but a commit saves. -/
theorem eq_saveAtOnce {form : ι → PreferencesForm} {v : SavedPreferences} {i : ι}
    {a : SavingAction} (h : a ≠ .commit) : v = saveAtOnce form v (i, a) := (if_neg h).symm

theorem exec_saveAtOnce (form : ι → PreferencesForm) (v : SavedPreferences)
    (ls : List (ι × SavingAction)) :
    exec (saveAtOnce form) v ls =
      match lastCommitted ls with
      | none => v
      | some i => savedForm (form i) := by
  induction ls using List.reverseRecOn with
  | nil => rfl
  | append_singleton ls l ih =>
    rw [exec_append, ih, exec_cons, exec_nil, saveAtOnce, lastCommitted, lastCommitted,
      List.filter_append]
    by_cases hl : l.2 = .commit <;> simp [hl]

/-! ### The lock -/

/-- A transaction that has written the row, and has not ended. -/
def InTransaction : SavingPhase → Prop
  | .updated | .deleting _ | .inserting .. => True
  | .waiting | .committed | .rolledBack => False

/-- What a transaction has read is what is committed. -/
def Consistent (form : PreferencesForm) (t : PreferenceTables) : SavingPhase → Prop
  | .deleting snapshot => snapshot = t.deviceThresholds
  | .inserting deleted inserted rest =>
    (∀ row ∈ t.deviceThresholds, row.userId = 1 → row.rowId ∈ deleted) ∧
      (∀ row ∈ inserted, row.userId = 1) ∧ inserted.map Threshold.entry ++ rest = submitted form
  | _ => True

/-- **The lock**: only the request that has it is in its transaction, and what it has read is
still what is committed. -/
structure Locked (form : ι → PreferencesForm) (s : PreferenceServer ι) : Prop where
  row : s.tables.userPreference ≠ none
  exclusive : ∀ i, InTransaction (s.phase i) → s.rowLock = some i
  consistent : ∀ i, Consistent (form i) s.tables (s.phase i)

section Lock

variable [DecidableEq ι] {form : ι → PreferencesForm} {s s' : PreferenceServer ι} {i : ι}
  {p : SavingPhase} {t : PreferenceTables}

theorem consistent_of_not_inTransaction {f : PreferencesForm} (hp : ¬InTransaction p) :
    Consistent f t p := by
  cases p with
  | deleting snapshot => exact absurd trivial hp
  | inserting deleted inserted rest => exact absurd trivial hp
  | _ => trivial

omit [DecidableEq ι] in
theorem locked_start (h : t.userPreference ≠ none) : Locked form (.start ι t) :=
  ⟨h, fun _ hi => hi.elim, fun _ => trivial⟩

/-- The request that has the lock goes on. -/
theorem Locked.withPhase (h : Locked form s) (hlock : s.rowLock = some i)
    (hp : Consistent (form i) s.tables p) : Locked form (s.withPhase i p) := by
  refine ⟨h.row, fun j hj => ?_, fun j => ?_⟩
  · rcases eq_or_ne j i with rfl | hne
    · exact hlock
    · rw [phase_withPhase_of_ne hne] at hj
      exact h.exclusive j hj
  · rcases eq_or_ne j i with rfl | hne
    · rwa [phase_withPhase_self]
    · rw [phase_withPhase_of_ne hne]
      exact h.consistent j

/-- A request takes the lock. -/
theorem Locked.take (h : Locked form s) (hlock : s.rowLock = none) :
    Locked form { s.withPhase i .updated with rowLock := some i } := by
  refine ⟨h.row, fun j hj => ?_, fun j => ?_⟩
  · rcases eq_or_ne j i with rfl | hne
    · rfl
    · rw [phase_withPhase_of_ne hne] at hj
      exact absurd (hlock.symm.trans (h.exclusive j hj)) (by simp)
  · rcases eq_or_ne j i with rfl | hne
    · rw [phase_withPhase_self]
      trivial
    · rw [phase_withPhase_of_ne hne]
      exact h.consistent j

/-- A request ends, and leaves the lock to the others. -/
theorem Locked.leave (h : Locked form s) (i : ι) (hp : ¬InTransaction p) :
    Locked form ((s.withPhase i p).release i) := by
  refine ⟨h.row, fun j hj => ?_, fun j => ?_⟩
  · rw [phase_release] at hj
    rcases eq_or_ne j i with rfl | hne
    · rw [phase_withPhase_self] at hj
      exact absurd hj hp
    · rw [phase_withPhase_of_ne hne] at hj
      exact rowLock_release_of_ne (h.exclusive j hj) hne
  · rw [phase_release]
    rcases eq_or_ne j i with rfl | hne
    · rw [phase_withPhase_self]
      exact consistent_of_not_inTransaction hp
    · rw [phase_withPhase_of_ne hne]
      exact h.consistent j

omit [DecidableEq ι] in
/-- While nobody has the lock, the tables may change. -/
theorem Locked.withTables (h : Locked form s) (hlock : s.rowLock = none)
    (ht : t.userPreference ≠ none) : Locked form { s with tables := t } := by
  have hout : ∀ j, ¬InTransaction (s.phase j) := fun j hj =>
    absurd (hlock.symm.trans (h.exclusive j hj)) (by simp)
  exact ⟨ht, fun j hj => absurd hj (hout j), fun j => consistent_of_not_inTransaction (hout j)⟩

/-- The `DELETE` reaches every committed threshold of user 1. -/
theorem consistent_finishDelete {f : PreferencesForm} {snapshot : List Threshold}
    (h : Consistent f t (.deleting snapshot)) :
    Consistent f t (.inserting ((snapshot.filter fun row => row.userId = 1).map (·.rowId)) []
      (submitted f)) := by
  refine ⟨fun row hmem hone => ?_, by simp, rfl⟩
  have hmem' : row ∈ snapshot.filter fun row => row.userId = 1 :=
    List.mem_filter.mpr ⟨Eq.symm h ▸ hmem, decide_eq_true hone⟩
  exact List.mem_map.mpr ⟨row, hmem', rfl⟩

/-- An `INSERT` takes the next entry of the form. -/
theorem consistent_insert {f : PreferencesForm} {deleted : List ℕ} {inserted : List Threshold}
    {name : String} {limit : ℚ} {rest : List (String × ℚ)} (rowId : ℕ)
    (h : Consistent f t (.inserting deleted inserted ((name, limit) :: rest))) :
    Consistent f t (.inserting deleted (inserted ++ [⟨rowId, 1, name, limit⟩]) rest) := by
  obtain ⟨hdeleted, huser, hinserted⟩ := h
  refine ⟨hdeleted, fun row hmem => ?_, ?_⟩
  · rcases List.mem_append.mp hmem with hmem | hmem
    · exact huser row hmem
    · rw [List.mem_singleton.mp hmem]
  · rw [← hinserted, List.map_append, List.append_assoc]
    rfl

/-- **A commit saves the form**, and nothing else is left for user 1. -/
theorem saved_commitTables {f : PreferencesForm} {deleted : List ℕ} {inserted : List Threshold}
    (hrow : t.userPreference ≠ none) (h : Consistent f t (.inserting deleted inserted [])) :
    saved (commitTables f deleted inserted t) = savedForm f := by
  obtain ⟨hdeleted, huser, hinserted⟩ := h
  obtain ⟨old, hold⟩ := Option.ne_none_iff_exists'.mp hrow
  have hkept : (t.deviceThresholds.filter fun row => row.rowId ∉ deleted).filter
      (fun row => row.userId = 1) = [] := by
    refine List.filter_eq_nil_iff.mpr fun row hmem => ?_
    obtain ⟨hmem, hid⟩ := List.mem_filter.mp hmem
    rw [decide_eq_true_eq] at hid ⊢
    exact fun hone => hid (hdeleted row hmem hone)
  have hnew : inserted.filter (fun row => row.userId = 1) = inserted :=
    List.filter_eq_self.mpr fun row hmem => decide_eq_true (huser row hmem)
  ext1
  · simp [saved, savedForm, commitTables, hold]
  · rw [saved, commitTables, List.filter_append, hkept, hnew, List.nil_append, savedForm]
    simpa using hinserted

/-- **One statement** keeps the lock, and saves what the server without concurrency saves. -/
theorem Locked.step {l : ι × SavingAction} (h : Locked form s) (hstep : SavingStep form s l s') :
    Locked form s' ∧ saved s'.tables = saveAtOnce form (saved s.tables) l := by
  have hread : ∀ {i : ι} {p : SavingPhase}, s.phase i = p → InTransaction p →
      s.rowLock = some i ∧ Consistent (form i) s.tables p := by
    rintro i _ rfl hin
    exact ⟨h.exclusive i hin, h.consistent i⟩
  cases hstep with
  | update hphase hrow hlock => exact ⟨h.take hlock, eq_saveAtOnce nofun⟩
  | updateNothing hphase hrow => exact absurd hrow h.row
  | startDelete hphase =>
    obtain ⟨hlock, -⟩ := hread hphase trivial
    exact ⟨h.withPhase hlock rfl, eq_saveAtOnce nofun⟩
  | finishDelete hphase =>
    obtain ⟨hlock, hsnapshot⟩ := hread hphase trivial
    exact ⟨h.withPhase hlock (consistent_finishDelete hsnapshot), eq_saveAtOnce nofun⟩
  | insert hphase =>
    obtain ⟨hlock, hconsistent⟩ := hread hphase trivial
    obtain ⟨hrow, hexclusive, hconsistent⟩ :=
      h.withPhase hlock (consistent_insert s.nextRowId hconsistent)
    exact ⟨⟨hrow, hexclusive, hconsistent⟩, eq_saveAtOnce nofun⟩
  | @commit i deleted inserted hphase =>
    obtain ⟨hlock, hconsistent⟩ := hread hphase trivial
    refine ⟨(h.leave i (p := .committed) id).withTables (rowLock_release_self hlock) ?_, ?_⟩
    · simpa [commitTables] using h.row
    · rw [saveAtOnce, if_pos rfl]
      exact saved_commitTables h.row hconsistent
  | @rollback i hcommitted hrolled => exact ⟨h.leave i id, eq_saveAtOnce nofun⟩

/-- **The server simulates one that saves each form at once**, when it commits. -/
theorem simulates_saveAtOnce {ls : List (ι × SavingAction)} (hrow : t.userPreference ≠ none)
    (hrun : Run (SavingStep form) (.start ι t) ls s) :
    Locked form s ∧ saved s.tables = exec (saveAtOnce form) (saved t) ls :=
  hrun.simulates (Locked form) (fun s => saved s.tables) (saveAtOnce form) (locked_start hrow)
    fun _ _ _ h hstep => h.step hstep

/-- What a statement does to the requests: one moves on, and it is committed by a commit. -/
theorem phase_of_step {l : ι × SavingAction} (hstep : SavingStep form s l s') :
    ∃ p, s'.phase = Function.update s.phase l.1 p ∧ s.phase l.1 ≠ .committed ∧
      (p = .committed ↔ l.2 = .commit) := by
  cases hstep with
  | update hphase => exact ⟨_, rfl, by simp [hphase], by simp⟩
  | updateNothing hphase => exact ⟨_, rfl, by simp [hphase], by simp⟩
  | startDelete hphase => exact ⟨_, rfl, by simp [hphase], by simp⟩
  | finishDelete hphase => exact ⟨_, rfl, by simp [hphase], by simp⟩
  | insert hphase => exact ⟨_, rfl, by simp [hphase], by simp⟩
  | commit hphase => exact ⟨_, rfl, by simp [hphase], by simp⟩
  | rollback hcommitted => exact ⟨_, rfl, hcommitted, by simp⟩

/-- The requests that succeeded are those that committed. -/
theorem committed_iff {ls : List (ι × SavingAction)}
    (hrun : Run (SavingStep form) (.start ι t) ls s) (i : ι) :
    s.phase i = .committed ↔ (i, SavingAction.commit) ∈ ls := by
  induction hrun with
  | start => simp [PreferenceServer.start]
  | @snoc ls s₁ l s₂ _ hstep ih =>
    obtain ⟨p, hphase, hopen, hp⟩ := phase_of_step hstep
    rw [List.mem_append, List.mem_singleton, ← ih, hphase]
    rcases eq_or_ne i l.1 with rfl | hne
    · rw [Function.update_self, hp]
      simp [hopen, Prod.ext_iff, eq_comm]
    · rw [Function.update_of_ne hne]
      simp [Prod.ext_iff, hne]

/-- **Concurrent saves are serializable**: whatever the interleaving, and whatever fails, what
is committed for user 1 is the form of the request that committed last, or what it was. -/
theorem preferences_serializable (form : ι → PreferencesForm) {t : PreferenceTables}
    (hrow : t.userPreference ≠ none) {ls : List (ι × SavingAction)} {s : PreferenceServer ι}
    (hrun : Run (SavingStep form) (.start ι t) ls s) :
    match lastCommitted ls with
    | none => (∀ i, s.phase i ≠ .committed) ∧ saved s.tables = saved t
    | some i => s.phase i = .committed ∧ saved s.tables = savedForm (form i) := by
  have hsaved := (simulates_saveAtOnce hrow hrun).2
  rw [exec_saveAtOnce] at hsaved
  cases hlast : lastCommitted ls with
  | none =>
    rw [hlast] at hsaved
    refine ⟨fun i hi => ?_, hsaved⟩
    have hmem : (i, SavingAction.commit) ∈ ls.filter fun l => l.2 = .commit :=
      List.mem_filter.mpr ⟨(committed_iff hrun i).mp hi, rfl⟩
    rw [lastCommitted, Option.map_eq_none_iff, List.getLast?_eq_none_iff] at hlast
    exact absurd (hlast ▸ hmem) List.not_mem_nil
  | some i =>
    rw [hlast] at hsaved
    refine ⟨(committed_iff hrun i).mpr ?_, hsaved⟩
    obtain ⟨l, hl, rfl⟩ := Option.map_eq_some_iff.mp hlast
    obtain ⟨hmem, hcommit⟩ := List.mem_filter.mp (List.mem_of_getLast? hl)
    rw [← of_decide_eq_true hcommit]
    exact hmem

end Lock

/-! ### Three requests -/

/-- A request for a fridge, and two for a lamp and a blank name. -/
def threeForms : Fin 3 → PreferencesForm
  | 0 => ⟨100, true, ["Fridge"], [5]⟩
  | _ => ⟨80, false, ["Lamp", " "], [2, 3]⟩

/-- A heater of user 1, and one of another user. -/
def heaters : PreferenceTables := ⟨some ⟨50, false⟩, [⟨1, 1, "Heater", 9⟩, ⟨2, 2, "Heater", 4⟩]⟩

/-- While the first request is at its `DELETE`, the second one gives up waiting for the row; the
first is saved, and the third fails after it has deleted the thresholds. -/
def threeRequests : List (Fin 3 × SavingAction) :=
  [(0, .update), (0, .startDelete), (1, .rollback), (0, .finishDelete), (0, .insert),
    (0, .commit), (2, .update), (2, .startDelete), (2, .finishDelete), (2, .rollback)]

theorem exists_run_threeRequests :
    ∃ s, Run (SavingStep threeForms) (.start (Fin 3) heaters) threeRequests s := by
  have hstart : Run (SavingStep threeForms) (.start (Fin 3) heaters) [] (.start (Fin 3) heaters) :=
    .start
  have hupdate := hstart.snoc (.update (i := 0) rfl rfl rfl)
  have hdelete := ((hupdate.snoc (.startDelete (i := 0) rfl)).snoc
    (.rollback (i := 1) nofun nofun)).snoc (.finishDelete (i := 0) rfl)
  have hcommit := (hdelete.snoc (.insert (i := 0) rfl)).snoc (.commit (i := 0) rfl)
  have hupdate' := hcommit.snoc (.update (i := 2) rfl rfl rfl)
  have hdelete' := (hupdate'.snoc (.startDelete (i := 2) rfl)).snoc (.finishDelete (i := 2) rfl)
  exact ⟨_, hdelete'.snoc (.rollback (i := 2) nofun nofun)⟩

/-- The fridge is what is left of the three requests. -/
theorem preferences_serializable_threeRequests :
    ∃ s, Run (SavingStep threeForms) (.start (Fin 3) heaters) threeRequests s ∧
      saved s.tables = ⟨some ⟨100, true⟩, [("Fridge", 5)]⟩ := by
  obtain ⟨s, hrun⟩ := exists_run_threeRequests
  have hsaved := preferences_serializable threeForms (by simp [heaters]) hrun
  rw [show lastCommitted threeRequests = some 0 by decide] at hsaved
  exact ⟨s, hrun, hsaved.2.trans (by decide +kernel)⟩

end SmartHomeEnergy
