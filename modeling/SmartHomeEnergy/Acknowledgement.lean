import SmartHomeEnergy.Live.Session
import SmartHomeEnergy.Warehouse.Sink

/-!
# What a sink acknowledges

When the callback of a `foreachBatch` sink returns, the offsets of the micro-batch are
committed and the batch is never replayed. So returning is an acknowledgement, and it
should mean that every row of the batch with a key is in the target table.

Neither sink keeps to that. The live sink always returns, whatever its transactions met,
so a row is in the table only if the transaction of its partition committed or the same
row was there before (`SmartHomeEnergy.liveAcknowledged_iff`). The warehouse sink returns
unless the staging write fails, and under the declared schema it merges nothing at all
(`SmartHomeEnergy.warehouseAcknowledged_iff`).
-/

namespace SmartHomeEnergy

open Relational Streaming Transition

/-! ### The live sink -/

section Live

variable {batchId : ℕ} {partitions : Partitions} {purgeFault : Option Fault} {t : LiveTable}

/-- If `write_to_postgres_only` returns, the rows with a key are in the table once the
partitions are merged. -/
def LiveAcknowledged (batchId : ℕ) (partitions : Partitions) (purgeFault : Option Fault)
    (t : LiveTable) : Prop :=
  (writeToPostgresOnly batchId partitions purgeFault t).raised = false →
    ∀ p ∈ partitions, ∀ r ∈ keyed p.2, r ∈ (foreachPartition partitions t).state.rows

/-- The rows of a micro-batch have pairwise different keys: they are the rows of a
grouped aggregation, one for each window, zone and device type. -/
def DistinctKeys (partitions : Partitions) : Prop :=
  ((partitions.flatMap (·.2)).filterMap windowedKey).Nodup

instance (partitions : Partitions) : Decidable (DistinctKeys partitions) :=
  inferInstanceAs (Decidable (List.Nodup _))

/-- **The micro-batches of the live query have distinct keys**, however their rows are
spread over partitions. -/
theorem distinctKeys_microBatch {s : StreamState} {b : MicroBatch}
    (h : (partitions.flatMap (·.2)).Perm (microBatch s b).2) : DistinctKeys partitions := by
  refine ((h.filterMap windowedKey).nodup_iff).mpr ?_
  have hn : ((aggregateBatch WindowKey.time s.marks s.store (contributed s b)).2.map
      Prod.fst).Nodup := nodup_emitted_keys s.marks s.store (contributed s b)
  rw [microBatch, List.filterMap_map]
  exact nodup_filterMap_key hn fun x y k hx hy =>
    (windowedKey_windowedRow.mp hx).trans (windowedKey_windowedRow.mp hy).symm

/-- The keys that are committed are among those of the micro-batch. -/
theorem committed_sublist (partitions : Partitions) :
    (committed partitions).Sublist (partitions.flatMap (·.2)) := by
  induction partitions with
  | nil => exact List.Sublist.refl _
  | cons p ps ih =>
    rw [committed, List.flatMap_cons, List.flatMap_cons]
    refine List.Sublist.append ?_ ih
    split
    · exact List.filter_sublist
    · exact List.nil_sublist _

/-- **Only its own partition commits a row.** -/
theorem mem_committed_iff (hkeys : DistinctKeys partitions)
    {p : Option Fault × List WindowedRow} (hp : p ∈ partitions) {r x : WindowedRow}
    {k : String × String × ℤ} (hr : r ∈ p.2) (hk : windowedKey r = some k)
    (hxk : windowedKey x = some k) : x ∈ committed partitions ↔ x = r ∧ Commits p := by
  have hkeyed : r ∈ keyed p.2 := List.mem_filter.mpr ⟨hr, by simp [hk]⟩
  constructor
  · intro hx
    obtain ⟨q, hq, hxq⟩ := List.mem_flatMap.mp hx
    have hcom : Commits q := by
      by_contra hc
      simp [hc] at hxq
    rw [if_pos hcom] at hxq
    have hxq' : x ∈ q.2 := (List.mem_filter.mp hxq).1
    rw [DistinctKeys, List.filterMap_flatMap, List.nodup_flatMap] at hkeys
    have hpq : p = q := by
      by_contra hne
      have hsymm : Std.Symm (Function.onFun List.Disjoint
          fun q : Option Fault × List WindowedRow => q.2.filterMap windowedKey) :=
        ⟨fun _ _ h => List.Disjoint.symm h⟩
      have hdisjoint := hkeys.2.forall hp hq hne
      exact hdisjoint (List.mem_filterMap.mpr ⟨r, hr, hk⟩) (List.mem_filterMap.mpr ⟨x, hxq', hxk⟩)
    subst hpq
    exact ⟨Table.eq_of_key (hkeys.1 p hp) hxq' hxk hr hk, hcom⟩
  · rintro ⟨rfl, hcom⟩
    exact List.mem_flatMap.mpr ⟨p, hp, by rwa [if_pos hcom]⟩

/-- **What is in the table after the merge**, of the rows of the micro-batch: those whose
partition commits, and those that were there. -/
theorem mem_foreachPartition_iff (hkeys : DistinctKeys partitions)
    {p : Option Fault × List WindowedRow} (hp : p ∈ partitions) {r : WindowedRow}
    (hr : r ∈ keyed p.2) :
    r ∈ (foreachPartition partitions t).state.rows ↔ Commits p ∨ r ∈ t.rows := by
  obtain ⟨hrp, hk⟩ := List.mem_filter.mp hr
  obtain ⟨k, hk⟩ := Option.ne_none_iff_exists'.mp (of_decide_eq_true hk)
  rw [foreachPartition_eq, Attempt.done_state]
  by_cases hcom : Commits p
  · refine iff_of_true ?_ (Or.inl hcom)
    have hmem := (mem_committed_iff hkeys hp hrp hk hk).mpr ⟨rfl, hcom⟩
    have hn : ((committed partitions).filterMap windowedKey).Nodup :=
      hkeys.sublist ((committed_sublist partitions).filterMap windowedKey)
    exact (Table.mem_iff_find hk).mpr
      (Table.find_upsertAll_of_mem windowedUpsert_overwrites t hn hmem hk)
  · have hnot : ∀ x ∈ committed partitions, windowedKey x ≠ some k := fun x hx hxk =>
      hcom ((mem_committed_iff hkeys hp hrp hk hxk).mp hx).2
    rw [Table.mem_iff_find hk, Table.mem_iff_find hk, Table.find_upsertAll_of_not_mem _ _ hnot]
    exact ⟨Or.inr, fun h => h.resolve_left hcom⟩

/-- **When the live sink's acknowledgement is right.** -/
theorem liveAcknowledged_iff (hkeys : DistinctKeys partitions) :
    LiveAcknowledged batchId partitions purgeFault t ↔
      ∀ p ∈ partitions, Commits p ∨ ∀ r ∈ keyed p.2, r ∈ t.rows := by
  simp only [LiveAcknowledged, writeToPostgresOnly_returns, forall_true_left]
  refine forall₂_congr fun p hp => ?_
  constructor
  · intro h
    refine or_iff_not_imp_left.mpr fun hcom r hr => ?_
    exact ((mem_foreachPartition_iff hkeys hp hr).mp (h r hr)).resolve_left hcom
  · intro h r hr
    exact (mem_foreachPartition_iff hkeys hp hr).mpr (h.imp_right fun hall => hall r hr)

end Live

/-! ### The warehouse sink -/

section Warehouse

variable {D : Type} [DecidableEq D]

/-- If `write_to_postgres` returns, the aggregated rows with a key are in the table. -/
def WarehouseAcknowledged (time : SparkTime D) (prices : List PriceRow)
    (stagingFault : Option (List (DayRow D))) (fault : Option Fault) (batchId : ℕ)
    (batch : List (Reading String)) (w : Warehouse D) : Prop :=
  let a := writeToPostgres analyticsConstraints time prices stagingFault fault batchId batch w
  a.raised = false →
    ∀ r ∈ finalAnalyticsDf time prices batch, conflictKey r ≠ none → r ∈ a.state.analytics

/-- **When the warehouse sink's acknowledgement is right**: when it is not given, or when
there was nothing to store. -/
theorem warehouseAcknowledged_iff {time : SparkTime D} {prices : List PriceRow}
    {stagingFault : Option (List (DayRow D))} {fault : Option Fault} {batchId : ℕ}
    {batch : List (Reading String)} {w : Warehouse D} :
    WarehouseAcknowledged time prices stagingFault fault batchId batch w ↔
      stagingFault ≠ none ∨
        ∀ r ∈ finalAnalyticsDf time prices batch, conflictKey r ≠ none → r ∈ w.analytics := by
  by_cases hb : batch = []
  · simp [WarehouseAcknowledged, hb]
  · obtain ⟨hraised, hstate⟩ := writeToPostgres_unmerged time prices not_hasArbiter_analytics
      stagingFault fault batchId hb w
    simp only [WarehouseAcknowledged, hraised, hstate]
    cases stagingFault <;> simp

end Warehouse

/-! ### Both sinks -/

/-- **When an acknowledgement is right, for both sinks**: in the live sink, when every
partition commits or stores what was there already; in the warehouse sink, when the
staging write fails or every aggregated row was there already. -/
theorem acknowledged_iff {D : Type} [DecidableEq D] (batchId : ℕ) (partitions : Partitions)
    (purgeFault : Option Fault) (t : LiveTable) (time : SparkTime D) (prices : List PriceRow)
    (stagingFault : Option (List (DayRow D))) (fault : Option Fault)
    (batch : List (Reading String)) (w : Warehouse D) (hkeys : DistinctKeys partitions) :
    (LiveAcknowledged batchId partitions purgeFault t ↔
      ∀ p ∈ partitions, Commits p ∨ ∀ r ∈ keyed p.2, r ∈ t.rows) ∧
    (WarehouseAcknowledged time prices stagingFault fault batchId batch w ↔
      stagingFault ≠ none ∨
        ∀ r ∈ finalAnalyticsDf time prices batch, conflictKey r ≠ none → r ∈ w.analytics) :=
  ⟨liveAcknowledged_iff hkeys, warehouseAcknowledged_iff⟩

/-- The row of one window of the kitchen. -/
def kitchenWindow : WindowedRow where
  windowStart := some (minutes 0)
  windowEnd := some (minutes 5)
  zone := some "Kitchen"
  deviceType := some "Critical_Appliance"
  avgPowerWatts := some 150
  totalPowerWatts := some 150

/-- A commit that fails loses the partition; the warehouse loses its batch without any
failure. -/
theorem not_acknowledged :
    ¬LiveAcknowledged 1 [(some .commit, [kitchenWindow])] none Table.empty ∧
    ¬WarehouseAcknowledged isoTime [⟨some 12, some 20⟩] none none 1
      [fridgeAt "2026-01-01 12:00:00"] ⟨[], []⟩ := by
  constructor
  · intro h
    exact absurd (h (by decide) _ List.mem_cons_self kitchenWindow (by decide)) (by decide)
  · intro h
    exact absurd (h (by decide +kernel)) (by decide +kernel)

/-- Where the partition commits, its row is stored. -/
theorem acknowledged_iff_kitchen :
    LiveAcknowledged 1 [(none, [kitchenWindow])] none Table.empty ∧
    ¬WarehouseAcknowledged isoTime [⟨some 12, some 20⟩] none none 1
      [fridgeAt "2026-01-01 12:00:00"] ⟨[], []⟩ := by
  obtain ⟨hlive, hwarehouse⟩ := acknowledged_iff 1 [(none, [kitchenWindow])] none Table.empty
    isoTime [⟨some 12, some 20⟩] none none [fridgeAt "2026-01-01 12:00:00"] ⟨[], []⟩ (by decide)
  exact ⟨hlive.mpr (by decide), fun h => absurd (hwarehouse.mp h) (by decide +kernel)⟩

end SmartHomeEnergy
