import SmartHomeEnergy.Warehouse.DeviceHours
import SmartHomeEnergy.Warehouse.Sink

/-!
# A batch that is replayed

`foreachBatch` runs a batch again when the notebook stops between the commit in the
database and the commit of the checkpoint, and the merge is written to be safe against that:
a row that is there already conflicts with its copy and is overwritten by it.

A row with a null among the five columns of the `ON CONFLICT` clause conflicts with nothing,
though, and is inserted by every run. So a batch may be replayed exactly when none of its
days has a null there, and these columns come from the first reading of a device-hour
(`SmartHomeEnergy.replay_iff_named`).
-/

namespace SmartHomeEnergy

open Relational Transition

section Replay

variable {D : Type} [DecidableEq D] (time : SparkTime D) (prices : List PriceRow)

/-- `write_to_postgres` on a table that has the constraint the `ON CONFLICT` clause names,
without a fault. -/
def runBatch (batchId : ℕ) (batch : List (Reading String)) (w : Warehouse D) : Warehouse D :=
  (writeToPostgres [analyticsTarget] time prices none none batchId batch w).state

/-- **The replay is harmless**: after it the table has the rows it had before it. -/
def Replayable (batchId : ℕ) (batch : List (Reading String)) (w : Warehouse D) : Prop :=
  (runBatch time prices batchId batch (runBatch time prices batchId batch w)).analytics.Perm
    (runBatch time prices batchId batch w).analytics

/-- The first reading of every device-hour has a date, a zone, a type and an occupancy. -/
def Named (batch : List (Reading String)) : Prop :=
  ∀ h r, firstReading time batch h = some r → reportDate time r ≠ none ∧ r.zone ≠ none ∧
    r.deviceType ≠ none ∧ r.isRoomOccupied ≠ none

variable {time prices} {batch : List (Reading String)}

omit [DecidableEq D] in
/-- A day has a key when none of its four nullable columns is null. -/
theorem conflictKey_ne_none {r : DayRow D} : conflictKey r ≠ none ↔
    r.key.reportDate ≠ none ∧ r.key.zone ≠ none ∧ r.key.deviceType ≠ none ∧
      r.key.isRoomOccupied ≠ none := by
  obtain ⟨⟨d, z, t, o, p⟩, -⟩ := r
  cases d <;> cases z <;> cases t <;> cases o <;> simp [conflictKey]

/-- The days of a batch have keys when its device-hours are named. -/
theorem named_iff (prices : List PriceRow) :
    Named time batch ↔ ∀ r ∈ finalAnalyticsDf time prices batch, conflictKey r ≠ none := by
  constructor
  · intro hnamed r hr
    obtain ⟨K, hK, rfl⟩ := mem_groupBy.mp hr
    obtain ⟨h, hh, rfl⟩ := mem_dayKeys.mp hK
    obtain ⟨f, hf⟩ := exists_firstReading hh
    rw [conflictKey_ne_none, dayRow, dayKey_hourOf hf]
    exact hnamed h f hf
  · intro hkeys h f hf
    obtain ⟨hmem, hkey⟩ := mem_of_firstReading hf
    have hh : h ∈ groupKeys (hourKey time) batch := mem_groupKeys.mpr ⟨f, hmem, hkey⟩
    have hday := hkeys _ (mem_groupBy.mpr ⟨_, mem_dayKeys.mpr ⟨h, hh, rfl⟩, rfl⟩)
    rwa [conflictKey_ne_none, dayRow, dayKey_hourOf hf] at hday

/-- **Exactly when a batch may be replayed**: when every device-hour is named. -/
theorem replay_iff_named (time : SparkTime D) (prices : List PriceRow) (batchId : ℕ)
    (batch : List (Reading String)) (t : Analytics D) (staging : List (ℕ × List (DayRow D))) :
    Replayable time prices batchId batch ⟨t.rows, staging⟩ ↔ Named time batch := by
  have hc : HasArbiter [analyticsTarget] analyticsTarget := by decide
  have hfirst : (runBatch time prices batchId batch ⟨t.rows, staging⟩).analytics =
      (t.upsertAll dayUpsert (finalAnalyticsDf time prices batch)).rows :=
    writeToPostgres_analytics time prices hc batchId batch rfl
  have hsecond := writeToPostgres_analytics time prices hc batchId batch hfirst
  rw [Replayable, runBatch, hsecond, hfirst, named_iff prices]
  exact Table.upsertAll_upsertAll_perm_iff dayUpsert_overwrites t
    (nodup_conflictKey time prices batch)

end Replay

/-- A reading of the refrigerator without its zone: the day is inserted by both runs. -/
theorem not_replayable :
    let r := { fridgeAt "2026-01-01 12:00:00" with zone := none }
    ¬Replayable isoTime [⟨some 12, some 20⟩] 0 [r] ⟨(Table.empty : Analytics String).rows, []⟩ := by
  intro r h
  exact absurd h (by unfold Replayable; decide +kernel)

end SmartHomeEnergy
