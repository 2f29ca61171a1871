import SmartHomeEnergy.Live.Sink
import SmartHomeEnergy.Warehouse.Daily

/-!
# The sink of the daily warehouse

`write_to_postgres` first writes the rows of a batch to a staging table of its own, and
then, in one transaction, merges that table into `dwh_energy_analytics` and drops it.
Only the transaction stands in a `try`, whose handler prints the exception: a staging
write that fails makes the callback raise, and a merge that fails does not.

The merge has an `ON CONFLICT` clause, which the database refuses to execute unless the
table has a unique constraint on exactly the columns the clause names
(`SmartHomeEnergy.HasArbiter`). So the constraints of the table are a parameter here. With
the constraint in place and nothing failing, a batch is a batch of upserts
(`SmartHomeEnergy.writeToPostgres_analytics`); without it the merge never happens
(`SmartHomeEnergy.writeToPostgres_unmerged`), and `schema.sql` declares none
(`SmartHomeEnergy.analyticsConstraints`).
-/

namespace SmartHomeEnergy

open Relational Transition

/-! ### Unique constraints -/

/-- The columns that occur in a unique constraint or in an `ON CONFLICT` clause. -/
inductive Column
  | windowEnd
  | reportDate
  | zone
  | deviceType
  | isRoomOccupied
  | isPeakHours
  deriving DecidableEq

/-- The unique constraints of `spark_windowed_energy`: `unique_zone_device_window`. -/
def windowedConstraints : List (List Column) := [[.zone, .deviceType, .windowEnd]]

/-- The unique constraints of `dwh_energy_analytics`; its two indexes are not unique. -/
def analyticsConstraints : List (List Column) := []

/-- The `ON CONFLICT` clause of `db_upsert_partition`. -/
def windowedTarget : List Column := [.zone, .deviceType, .windowEnd]

/-- The `ON CONFLICT` clause of `upsert_query`. -/
def analyticsTarget : List Column :=
  [.reportDate, .zone, .deviceType, .isRoomOccupied, .isPeakHours]

/-- A unique constraint on the columns of an `ON CONFLICT` clause, in any order. -/
def HasArbiter (constraints : List (List Column)) (target : List Column) : Prop :=
  ∃ c ∈ constraints, c.Perm target

instance (constraints : List (List Column)) (target : List Column) :
    Decidable (HasArbiter constraints target) :=
  inferInstanceAs (Decidable (∃ c ∈ constraints, c.Perm target))

example : HasArbiter windowedConstraints windowedTarget := by decide

theorem not_hasArbiter_analytics : ¬HasArbiter analyticsConstraints analyticsTarget := by decide

/-! ### The database -/

/-- What the callback works on: the rows of `dwh_energy_analytics` and the staging tables,
by the id of their batch. -/
structure Warehouse (D : Type) where
  analytics : List (DayRow D)
  staging : List (ℕ × List (DayRow D))
  deriving DecidableEq

namespace Warehouse

variable {D : Type}

/-- The staging table of a batch, overwritten. -/
def stage (batchId : ℕ) (rows : List (DayRow D)) (w : Warehouse D) : Warehouse D :=
  { w with staging := (batchId, rows) :: w.staging.filter fun s => s.1 ≠ batchId }

/-- The rows of the staging table of a batch. -/
def staged (batchId : ℕ) (w : Warehouse D) : List (DayRow D) :=
  (w.staging.filter fun s => s.1 = batchId).flatMap (·.2)

@[simp] theorem stage_analytics (batchId : ℕ) (rows : List (DayRow D)) (w : Warehouse D) :
    (w.stage batchId rows).analytics = w.analytics := rfl

@[simp] theorem staged_stage (batchId : ℕ) (rows : List (DayRow D)) (w : Warehouse D) :
    (w.stage batchId rows).staged batchId = rows := by
  have hold : (w.staging.filter fun s => s.1 ≠ batchId).filter (fun s => s.1 = batchId) = [] := by
    simp [List.filter_filter]
  rw [staged, stage, List.filter_cons_of_pos (by simp), hold]
  simp

end Warehouse

/-! ### The callback -/

section Callback

variable {D : Type} [DecidableEq D]

/-- The staging write: some of the rows may have been written before it raises. -/
def writeStaging (stagingFault : Option (List (DayRow D))) (batchId : ℕ)
    (rows : List (DayRow D)) (w : Warehouse D) : Attempt (Warehouse D) :=
  match stagingFault with
  | some written => .raise (w.stage batchId written)
  | none => .done (w.stage batchId rows)

/-- The statements inside the `try`: the merge and the drop of the staging table, which
are rolled back together. -/
def mergeStaging (constraints : List (List Column)) (fault : Option Fault) (batchId : ℕ)
    (w : Warehouse D) : Attempt (Warehouse D) :=
  if fault = some .connect then .raise w
  else if ¬HasArbiter constraints analyticsTarget then .raise w
  else if fault = some .execute ∨ fault = some .commit then .raise w
  else .check (fault = some .close)
    { analytics := (w.staged batchId).foldl
        (fun rows r => Table.upsertRows conflictKey dayUpsert.merge r rows) w.analytics
      staging := w.staging.filter fun s => s.1 ≠ batchId }

variable (constraints : List (List Column)) (time : SparkTime D) (prices : List PriceRow)

/-- `write_to_postgres`. -/
def writeToPostgres (stagingFault : Option (List (DayRow D))) (fault : Option Fault)
    (batchId : ℕ) (batch : List (Reading String)) (w : Warehouse D) : Attempt (Warehouse D) :=
  if batch = [] then .done w
  else
    (writeStaging stagingFault batchId (finalAnalyticsDf time prices batch) w).bind fun staged =>
      (mergeStaging constraints fault batchId staged).caught

variable {constraints}

/-- **Without the constraint nothing is merged**: the callback raises exactly when the
staging write does, and the table stays as it was. -/
theorem writeToPostgres_unmerged (hc : ¬HasArbiter constraints analyticsTarget)
    (stagingFault : Option (List (DayRow D))) (fault : Option Fault) (batchId : ℕ)
    {batch : List (Reading String)} (hb : batch ≠ []) (w : Warehouse D) :
    let a := writeToPostgres constraints time prices stagingFault fault batchId batch w
    a.raised = stagingFault.isSome ∧ a.state.analytics = w.analytics := by
  have hmerge : ∀ v : Warehouse D, mergeStaging constraints fault batchId v = .raise v := by
    intro v
    rw [mergeStaging, if_pos hc, ite_self]
  cases stagingFault <;> simp [writeToPostgres, hb, writeStaging, hmerge]

/-- **With the constraint and without a fault**, a batch is a batch of upserts. -/
theorem writeToPostgres_analytics (hc : HasArbiter constraints analyticsTarget) (batchId : ℕ)
    (batch : List (Reading String)) {w : Warehouse D} {t : Analytics D}
    (ht : w.analytics = t.rows) :
    (writeToPostgres constraints time prices none none batchId batch w).state.analytics =
      (t.upsertAll dayUpsert (finalAnalyticsDf time prices batch)).rows := by
  by_cases hb : batch = []
  · simp [writeToPostgres, hb, ht]
  · simp [writeToPostgres, hb, writeStaging, mergeStaging, hc, ht, Table.rows_upsertAll]

/-- `dwh_energy_analytics` after a list of micro-batches: from an empty table that has the
constraint the `ON CONFLICT` clause names, and without a fault. -/
def dailyTable (batches : List (List (Reading String))) : List (DayRow D) :=
  (batches.zipIdx.foldl (fun w b =>
    (writeToPostgres [analyticsTarget] time prices none none b.2 b.1 w).state) ⟨[], []⟩).analytics

/-- A list of micro-batches is a batch of upserts. -/
theorem dailyTable_eq (batches : List (List (Reading String))) :
    dailyTable time prices batches =
      ((Table.empty : Analytics D).upsertAll dayUpsert
        (batches.flatMap (finalAnalyticsDf time prices))).rows := by
  have hrun : ∀ (bs : List (List (Reading String))) (n : ℕ) (w : Warehouse D) (t : Analytics D),
      w.analytics = t.rows →
      ((bs.zipIdx n).foldl (fun w b => (writeToPostgres [analyticsTarget] time prices none none
        b.2 b.1 w).state) w).analytics =
        (t.upsertAll dayUpsert (bs.flatMap (finalAnalyticsDf time prices))).rows := by
    intro bs
    induction bs with
    | nil => exact fun n w t hw => hw
    | cons b bs ih =>
      intro n w t hw
      rw [List.zipIdx_cons, List.foldl_cons, List.flatMap_cons, Table.upsertAll_append]
      exact ih _ _ _ (writeToPostgres_analytics time prices (by decide) n b hw)
  exact hrun batches 0 _ _ rfl

end Callback

end SmartHomeEnergy
