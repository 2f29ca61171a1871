import SmartHomeEnergy.Dashboard.LiveView
import SmartHomeEnergy.Live.Sink
import SmartHomeEnergy.Relational.Retention

/-!
# The purge and the live view

The sink of the live layer deletes the windows that ended more than ten minutes before the
newest one, and the live view of the dashboard shows the windows that ended at most ten minutes
before the newest one. So the view does not see a purge, and it does not see later that there
has been one, however upserts and purges follow each other: the live table and the view are the
two sides of `SmartHomeEnergy.Relational.Retention`, with `SmartHomeEnergy.cutoff` as the
bound (`SmartHomeEnergy.purge_invisible`).

For the callback of the sink this says that the view shows what has been committed, as if all
of it were still there (`SmartHomeEnergy.perm_devices_callbacks`).
-/

namespace SmartHomeEnergy

open Relational Transition

/-! ### The bound -/

/-- Ten minutes before the newest window. -/
def cutoff (newest : ℤ) : ℤ := newest - minutes 10

theorem cutoff_le (m : ℤ) : cutoff m ≤ m := by
  rw [cutoff, minutes]
  omega

theorem monotone_cutoff : Monotone cutoff := fun m m' h => by
  rw [cutoff, cutoff]
  omega

/-- The view shows what is not before the bound. -/
theorem recentRows_eq (rows : List WindowedRow) :
    recentRows rows = rows.filter fun r => Kept WindowedRow.windowEnd cutoff rows r := by
  refine List.filter_congr fun r _ => decide_eq_decide.mpr ?_
  have hnewest : newestEnd rows = newest WindowedRow.windowEnd rows := rfl
  rw [inLastTenMinutes, hnewest, Kept]
  cases newest WindowedRow.windowEnd rows with
  | none => simp [Tri.Holds]
  | some m => simp [cutoff]

/-! ### Upserts and purges -/

/-- What a statement of the sink makes of the live table: a row without a key is not among the
data to insert. -/
def liveTableStep (t : LiveTable) : RetentionOp WindowedRow → LiveTable
  | .upsert r => t.upsertAll windowedUpsert (keyed [r])
  | .purge => t.deleteWhere (Outdated t)

theorem liveTableStep_eq :
    liveTableStep = retentionStep windowedUpsert WindowedRow.windowEnd cutoff := by
  funext t op
  cases op with
  | purge => rfl
  | upsert r =>
    rw [liveTableStep, retentionStep, keyed]
    by_cases hr : windowedKey r = none <;> simp [hr]

/-- The key of a row has the end of its window. -/
theorem windowEnd_of_windowedKey (r : WindowedRow) (k : String × String × ℤ)
    (h : windowedKey r = some k) : r.windowEnd = some k.2.2 :=
  (windowedKey_eq_some.mp h).2.2

/-- The rows of the last ten minutes are the same without the purges. -/
theorem perm_recentRows_exec (ops : List (RetentionOp WindowedRow)) :
    (recentRows (exec liveTableStep .empty ops).rows).Perm
      (recentRows (exec liveTableStep .empty (upsertsOf ops)).rows) := by
  rw [recentRows_eq, recentRows_eq, liveTableStep_eq]
  exact perm_kept_exec windowedUpsert_overwrites monotone_cutoff cutoff_le
    windowEnd_of_windowedKey ops

/-- **The live view does not see the purge**, neither when it happens nor later on: what is
shown after any upserts and purges is what is shown when nothing has been purged. -/
theorem purge_invisible (lower : String → String) (thresholds : List LimitRow) :
    (∀ (fault : Option Fault) (t : LiveTable),
      (getViolatedDevices lower false (purge fault t).state.rows thresholds).Perm
        (getViolatedDevices lower false t.rows thresholds)) ∧
      ∀ ops : List (RetentionOp WindowedRow),
        (getViolatedDevices lower false (exec liveTableStep .empty ops).rows thresholds).Perm
          (getViolatedDevices lower false (exec liveTableStep .empty (upsertsOf ops)).rows
            thresholds) := by
  refine ⟨fun fault t => ?_, fun ops => ?_⟩
  · refine devicesSummary_perm_of_recentRows lower (List.Perm.of_eq ?_) thresholds
    rw [purge]
    split
    next => rfl
    next =>
      rw [recentRows_eq, recentRows_eq]
      exact filter_kept_purged cutoff_le
  · exact devicesSummary_perm_of_recentRows lower (perm_recentRows_exec ops) thresholds

/-! ### The callback -/

/-- Upserts, one after the other. -/
theorem exec_upserts {rows : List WindowedRow} (hkeyed : ∀ r ∈ rows, windowedKey r ≠ none)
    (t : LiveTable) :
    exec liveTableStep t (rows.map .upsert) = t.upsertAll windowedUpsert rows := by
  induction rows generalizing t with
  | nil => rfl
  | cons r rows ih =>
    have hone : keyed [r] = [r] :=
      List.filter_eq_self.mpr (by simpa using hkeyed r List.mem_cons_self)
    rw [List.map_cons, exec_cons, ih fun x hx => hkeyed x (List.mem_cons_of_mem _ hx),
      liveTableStep, hone]
    rfl

theorem windowedKey_ne_none_of_committed {partitions : Partitions} {r : WindowedRow}
    (h : r ∈ committed partitions) : windowedKey r ≠ none := by
  obtain ⟨p, -, hr⟩ := List.mem_flatMap.mp h
  split at hr
  · exact of_decide_eq_true (List.mem_filter.mp hr).2
  · exact absurd hr List.not_mem_nil

/-- A call of the callback: its number, its partitions, and the statement of the purge that
raises. -/
abbrev Callback := ℕ × Partitions × Option Fault

/-- What a call makes of the live table. -/
def callbackStep (t : LiveTable) (c : Callback) : LiveTable :=
  (writeToPostgresOnly c.1 c.2.1 c.2.2 t).state

/-- **A call is upserts of what it commits**, and perhaps a purge. -/
theorem exists_ops_callbackStep (t : LiveTable) (c : Callback) :
    ∃ ops, callbackStep t c = exec liveTableStep t ops ∧
      upsertsOf ops = (committed c.2.1).map .upsert := by
  obtain ⟨batchId, partitions, fault⟩ := c
  have hupserts : exec liveTableStep t ((committed partitions).map .upsert) =
      t.upsertAll windowedUpsert (committed partitions) :=
    exec_upserts (fun r hr => windowedKey_ne_none_of_committed hr) t
  have hself : upsertsOf ((committed partitions).map .upsert) =
      (committed partitions).map RetentionOp.upsert :=
    List.filter_eq_self.mpr (by simp)
  rw [callbackStep, writeToPostgresOnly]
  split
  next hempty =>
    have hnil : committed partitions = [] := by
      refine List.flatMap_eq_nil_iff.mpr fun p hp => ?_
      simp [keyed, hempty p hp]
    exact ⟨[], rfl, by rw [hnil]; rfl⟩
  next =>
    rw [foreachPartition_eq, Attempt.done_bind, ← hupserts]
    split
    · rw [Attempt.caught_state, purge]
      split
      · exact ⟨_, rfl, hself⟩
      · refine ⟨(committed partitions).map .upsert ++ [.purge], ?_, ?_⟩
        · rw [exec_append]
          rfl
        · rw [upsertsOf, List.filter_append, ← upsertsOf, hself]
          exact List.append_nil _
    · exact ⟨_, rfl, hself⟩

/-- **The view shows what has been committed**, as if it were all still there. -/
theorem perm_devices_callbacks (lower : String → String) (thresholds : List LimitRow)
    (calls : List Callback) :
    (getViolatedDevices lower false (exec callbackStep .empty calls).rows thresholds).Perm
      (getViolatedDevices lower false
        ((Table.empty : LiveTable).upsertAll windowedUpsert
          (calls.flatMap fun c => committed c.2.1)).rows thresholds) := by
  have hops : ∃ ops, exec callbackStep .empty calls = exec liveTableStep .empty ops ∧
      upsertsOf ops = (calls.flatMap fun c => committed c.2.1).map .upsert := by
    refine exec_induction callbackStep (s := Table.empty) (fun calls t => ∃ ops,
      t = exec liveTableStep .empty ops ∧
        upsertsOf ops = (calls.flatMap fun c => committed c.2.1).map .upsert)
      ⟨[], rfl, rfl⟩ ?_ calls
    rintro calls c ⟨ops, ht, hupserts⟩
    obtain ⟨ops', ht', hupserts'⟩ := exists_ops_callbackStep (exec callbackStep .empty calls) c
    refine ⟨ops ++ ops', by rw [ht', ht, exec_append], ?_⟩
    rw [upsertsOf, List.filter_append, ← upsertsOf, ← upsertsOf, hupserts, hupserts']
    simp
  obtain ⟨ops, ht, hupserts⟩ := hops
  have hkeyed : ∀ r ∈ calls.flatMap fun c => committed c.2.1, windowedKey r ≠ none := by
    intro r hr
    obtain ⟨c, -, hc⟩ := List.mem_flatMap.mp hr
    exact windowedKey_ne_none_of_committed hc
  rw [ht, ← exec_upserts hkeyed, ← hupserts]
  exact devicesSummary_perm_of_recentRows lower (perm_recentRows_exec ops) thresholds

end SmartHomeEnergy
