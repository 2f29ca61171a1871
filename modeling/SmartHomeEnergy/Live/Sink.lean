import SmartHomeEnergy.Live.Pipeline
import SmartHomeEnergy.Relational.Table
import SmartHomeEnergy.Transition.Attempt

/-!
# The sink of the live layer

`write_to_postgres_only` takes the rows of one micro-batch, spread over partitions,
and upserts each partition in a transaction of its own; after every fifth batch it
also deletes the windows that ended more than ten minutes before the newest one.

Any statement against the database may raise. Both places where that can happen
stand in a `try` whose handler prints the exception and goes on, so the callback
itself always returns (`SmartHomeEnergy.writeToPostgresOnly_returns`), whatever it has
stored by then.
-/

namespace SmartHomeEnergy

open Relational Transition

/-- The statement at which a sequence of statements against the database raises. -/
inductive Fault
  | connect
  | execute
  | commit
  | close
  deriving DecidableEq

/-! ### `spark_windowed_energy` -/

/-- The columns of `unique_zone_device_window`; a row with a null in one of them
conflicts with no other. -/
def windowedKey (r : WindowedRow) : Option (String × String × ℤ) :=
  match r.zone, r.deviceType, r.windowEnd with
  | some z, some d, some e => some (z, d, e)
  | _, _, _ => none

theorem windowedKey_eq_some {r : WindowedRow} {k : String × String × ℤ} :
    windowedKey r = some k ↔
      r.zone = some k.1 ∧ r.deviceType = some k.2.1 ∧ r.windowEnd = some k.2.2 := by
  obtain ⟨z, d, e⟩ := k
  unfold windowedKey
  split
  next h1 h2 h3 => simp [h1, h2, h3]
  next h =>
    refine iff_of_false (by simp) ?_
    rintro ⟨h1, h2, h3⟩
    exact h z d e h1 h2 h3

/-- `DO UPDATE SET`: both powers and the start of the window are taken from the new
row. -/
def windowedUpsert : ConflictUpdate windowedKey where
  merge old new :=
    { old with
      avgPowerWatts := new.avgPowerWatts
      totalPowerWatts := new.totalPowerWatts
      windowStart := new.windowStart }
  key_merge _ _ := rfl

/-- Nothing of the old row is left. -/
theorem windowedUpsert_overwrites : windowedUpsert.Overwrites := by
  intro old new k hold hnew
  obtain ⟨hz, hd, he⟩ := windowedKey_eq_some.mp hold
  obtain ⟨hz', hd', he'⟩ := windowedKey_eq_some.mp hnew
  obtain ⟨ws, we, z, d, avg, total⟩ := new
  simp only at hz' hd' he'
  simp [windowedUpsert, hz, hd, he, hz', hd', he']

/-- The live table. -/
abbrev LiveTable := Table windowedKey

/-! ### One partition -/

/-- `data_to_insert`: the rows whose key columns are not null; `float` raises on a
power that is missing. -/
def dataToInsert (partition : List WindowedRow) : Option (List WindowedRow) :=
  let data := partition.filter fun r => windowedKey r ≠ none
  if ∀ r ∈ data, r.avgPowerWatts ≠ none ∧ r.totalPowerWatts ≠ none then some data else none

/-- The statements inside the `try` of `db_upsert_partition`. What is executed before
a commit that does not happen is rolled back. -/
def upsertPartition (fault : Option Fault) (partition : List WindowedRow) (t : LiveTable) :
    Attempt LiveTable :=
  if fault = some .connect then .raise t
  else
    match dataToInsert partition with
    | none => .raise t
    | some [] => .check (fault = some .close) t
    | some data =>
      if fault = some .execute ∨ fault = some .commit then .raise t
      else .check (fault = some .close) (t.upsertAll windowedUpsert data)

/-- `db_upsert_partition`: an exception is printed. -/
def dbUpsertPartition (fault : Option Fault) (partition : List WindowedRow) (t : LiveTable) :
    Attempt LiveTable := (upsertPartition fault partition t).caught

/-! ### The callback -/

/-- The rows of a micro-batch, spread over partitions, with the statement at which
each partition's transaction raises, if it does. -/
abbrev Partitions := List (Option Fault × List WindowedRow)

/-- `foreachPartition(db_upsert_partition)`. -/
def foreachPartition (partitions : Partitions) (t : LiveTable) : Attempt LiveTable :=
  partitions.foldl (fun a p => a.bind (dbUpsertPartition p.1 p.2)) (.done t)

/-- What the purge deletes: a window that ended more than ten minutes before the
newest one. -/
def Outdated (t : LiveTable) (r : WindowedRow) : Prop :=
  ∃ newest ∈ (t.rows.filterMap (·.windowEnd)).max?, ∃ e ∈ r.windowEnd, e < newest - minutes 10

instance (t : LiveTable) (r : WindowedRow) : Decidable (Outdated t r) := by
  unfold Outdated
  infer_instance

/-- The statements of the purge. -/
def purge (fault : Option Fault) (t : LiveTable) : Attempt LiveTable :=
  if fault = some .connect ∨ fault = some .execute ∨ fault = some .commit then .raise t
  else .check (fault = some .close) (t.deleteWhere (Outdated t))

/-- `write_to_postgres_only`: nothing for an empty micro-batch; otherwise the partitions,
and after every fifth micro-batch the purge, whose exceptions are printed. -/
def writeToPostgresOnly (batchId : ℕ) (partitions : Partitions) (purgeFault : Option Fault)
    (t : LiveTable) : Attempt LiveTable :=
  if ∀ p ∈ partitions, p.2 = [] then .done t
  else
    (foreachPartition partitions t).bind fun merged =>
      if batchId % 5 = 0 then (purge purgeFault merged).caught else .done merged

/-! ### What the sink stores -/

/-- When the transaction of a partition commits: no statement up to the commit
raises, and every row to be inserted has its powers. -/
def Commits (p : Option Fault × List WindowedRow) : Prop :=
  (p.1 = none ∨ p.1 = some .close) ∧ (dataToInsert p.2).isSome

instance (p : Option Fault × List WindowedRow) : Decidable (Commits p) :=
  inferInstanceAs (Decidable (_ ∧ _))

/-- The rows with a key. -/
def keyed (rows : List WindowedRow) : List WindowedRow := rows.filter fun r => windowedKey r ≠ none

theorem dataToInsert_eq_some {rows data : List WindowedRow} (h : dataToInsert rows = some data) :
    data = keyed rows := by
  unfold dataToInsert at h
  dsimp only at h
  split at h
  · exact (Option.some.inj h).symm
  · exact absurd h (by simp)

/-- **What one partition stores**: its rows with a key if it commits, and nothing
otherwise. -/
theorem dbUpsertPartition_state (p : Option Fault × List WindowedRow) (t : LiveTable) :
    (dbUpsertPartition p.1 p.2 t).state =
      t.upsertAll windowedUpsert (if Commits p then keyed p.2 else []) := by
  obtain ⟨fault, rows⟩ := p
  rw [dbUpsertPartition, Attempt.caught_state, upsertPartition]
  by_cases hcom : Commits (fault, rows)
  · rw [if_pos hcom]
    obtain ⟨hfault, hdata⟩ := hcom
    obtain ⟨data, hdata⟩ := Option.isSome_iff_exists.mp hdata
    rw [← dataToInsert_eq_some hdata, hdata]
    rcases hfault with rfl | rfl <;> cases data <;> simp [Attempt.check]
  · rw [if_neg hcom, Table.upsertAll_nil]
    cases hdata : dataToInsert rows with
    | none => split <;> rfl
    | some data =>
      have hfault : fault = some .connect ∨ fault = some .execute ∨ fault = some .commit := by
        rcases fault with _ | _ | _ | _ | _ <;> simp_all [Commits]
      cases data <;> rcases hfault with rfl | rfl | rfl <;> simp [Attempt.check]

/-- The rows the partitions commit. -/
def committed (partitions : Partitions) : List WindowedRow :=
  partitions.flatMap fun p => if Commits p then keyed p.2 else []

theorem foreachPartition_eq (partitions : Partitions) (t : LiveTable) :
    foreachPartition partitions t = .done (t.upsertAll windowedUpsert (committed partitions)) := by
  induction partitions using List.reverseRecOn with
  | nil => rfl
  | append_singleton ps p ih =>
    have hp := dbUpsertPartition_state p (t.upsertAll windowedUpsert (committed ps))
    have hsplit : committed (ps ++ [p]) = committed ps ++ if Commits p then keyed p.2 else [] := by
      simp [committed]
    rw [hsplit, Table.upsertAll_append, ← hp, foreachPartition, List.foldl_append,
      ← foreachPartition, ih]
    rfl

/-- **The callback always returns**, whatever raised on the way. -/
theorem writeToPostgresOnly_returns (batchId : ℕ) (partitions : Partitions)
    (purgeFault : Option Fault) (t : LiveTable) :
    (writeToPostgresOnly batchId partitions purgeFault t).raised = false := by
  rw [writeToPostgresOnly]
  split
  · rfl
  · rw [foreachPartition_eq, Attempt.done_bind]
    split <;> rfl

/-- After the callback there is nothing in the table that was not there once the
partitions were merged. -/
theorem mem_writeToPostgresOnly {batchId : ℕ} {partitions : Partitions}
    {purgeFault : Option Fault} {t : LiveTable} {r : WindowedRow}
    (h : r ∈ (writeToPostgresOnly batchId partitions purgeFault t).state.rows) :
    r ∈ (foreachPartition partitions t).state.rows := by
  rw [writeToPostgresOnly] at h
  split at h
  next hempty =>
    have hnil : committed partitions = [] := by
      refine List.flatMap_eq_nil_iff.mpr fun p hp => ?_
      simp [keyed, hempty p hp]
    simpa [foreachPartition_eq, hnil] using h
  next =>
    rw [foreachPartition_eq, Attempt.done_bind] at h
    rw [foreachPartition_eq]
    split at h
    · rw [Attempt.caught_state, purge] at h
      split at h
      · exact h
      · exact ((Table.mem_deleteWhere _).mp h).1
    · exact h

/-! ### A micro-batch that meets no fault -/

/-- The rows of a micro-batch, spread over the four partitions of the shuffle. -/
def spread (hash : WindowedRow → Fin 4) (rows : List WindowedRow) : Partitions :=
  (List.finRange 4).map fun i => (none, rows.filter fun r => hash r = i)

/-- Every power to be inserted is there. -/
def Numeric (rows : List WindowedRow) : Prop :=
  ∀ r ∈ rows, r.avgPowerWatts ≠ none ∧ r.totalPowerWatts ≠ none

/-- **Without a fault everything with a key is committed**, partition by partition. -/
theorem perm_committed_spread {hash : WindowedRow → Fin 4} {rows : List WindowedRow}
    (hn : Numeric rows) : (committed (spread hash rows)).Perm (keyed rows) := by
  have hc : ∀ i, Commits (none, rows.filter fun r => hash r = i) := by
    intro i
    refine ⟨Or.inl rfl, Option.isSome_iff_exists.mpr ⟨_, if_pos fun r hr => ?_⟩⟩
    exact hn r (List.mem_filter.mp (List.mem_filter.mp hr).1).1
  have he : committed (spread hash rows) =
      (List.finRange 4).flatMap (groupRows hash (keyed rows)) := by
    rw [committed, spread, List.flatMap_map]
    refine List.flatMap_congr fun i _ => ?_
    rw [if_pos (hc i), keyed, keyed, groupRows, List.filter_filter, List.filter_filter]
    exact List.filter_congr fun r _ => Bool.and_comm _ _
  rw [he]
  exact perm_flatMap_groupRows (List.nodup_finRange 4) fun r _ => List.mem_finRange _

theorem mem_committed_spread {hash : WindowedRow → Fin 4} {rows : List WindowedRow}
    (hn : Numeric rows) {r : WindowedRow} :
    r ∈ committed (spread hash rows) ↔ r ∈ rows ∧ windowedKey r ≠ none := by
  rw [(perm_committed_spread hn).mem_iff, keyed, List.mem_filter, decide_eq_true_eq]

end SmartHomeEnergy
