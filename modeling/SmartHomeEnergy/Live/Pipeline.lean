import Mathlib.Algebra.Order.BigOperators.Group.List
import SmartHomeEnergy.Cleaning.Filters
import SmartHomeEnergy.Relational.Aggregate
import SmartHomeEnergy.Streaming.Aggregation
import SmartHomeEnergy.Streaming.Dedup

/-!
# The streaming query of the live layer

`spark_stream.py` reads the events as they come, keeps those of the last ten minutes
and of a plausible status and power, drops duplicates of a timestamp and a device,
and keeps a running sum and mean of the power for every zone, device type and
sliding window of five minutes, one minute apart.

One micro-batch of that query is `SmartHomeEnergy.microBatch`: it goes from the state
the query keeps to the next one, and returns the rows handed to the sink, in update
mode. The query is built from the stateful operators of
`SmartHomeEnergy.Streaming.Dedup` and `SmartHomeEnergy.Streaming.Aggregation`, and what
they guarantee adds up to one invariant (`SmartHomeEnergy.Tracks`).

Points in time are integers, counted in microseconds.
-/

namespace SmartHomeEnergy

open Relational Streaming

/-- A number of minutes. -/
def minutes (n : ℤ) : ℤ := n * 60000000

/-! ### The rows of the query -/

/-- What duplicates share: `dropDuplicates(["timestamp", "device_id"])`. -/
abbrev EventKey := Option ℤ × Option String

/-- The key of an event. -/
def eventKey (r : Reading ℤ) : EventKey := (r.timestamp, r.deviceId)

/-- The group an event is aggregated in; the start of the window goes with its end. -/
structure WindowKey where
  windowEnd : ℤ
  zone : Option String
  deviceType : Option String
  deriving DecidableEq

/-- The point in time at which a group is late: the end of its window. -/
def WindowKey.time (k : WindowKey) : Option ℤ := some k.windowEnd

/-- A row of `advanced_processed_df`, and of `spark_windowed_energy`. -/
structure WindowedRow where
  windowStart : Option ℤ
  windowEnd : Option ℤ
  zone : Option String
  deviceType : Option String
  avgPowerWatts : Option ℚ
  totalPowerWatts : Option ℚ
  deriving DecidableEq

/-- The groups of an event: one for each window it lies in. -/
def windowKeys (r : Reading ℤ) : List WindowKey :=
  match r.timestamp with
  | none => []
  | some t => (windowEnds (minutes 5) (minutes 1) t).map fun e => ⟨e, r.zone, r.deviceType⟩

/-- The accumulator of a group: the sum of its powers, and how many there are. -/
abbrev PowerSum := ℚ × ℕ

/-- What an event adds to its groups; a missing power adds nothing. -/
def powerSum (r : Reading ℤ) : PowerSum :=
  match r.powerConsumptionWatts with
  | none => (0, 0)
  | some p => (p, 1)

/-- The row of a group, read off its accumulator. -/
def windowedRow (k : WindowKey) (a : PowerSum) : WindowedRow where
  windowStart := some (k.windowEnd - minutes 5)
  windowEnd := some k.windowEnd
  zone := k.zone
  deviceType := k.deviceType
  avgPowerWatts := if a.2 = 0 then none else some (a.1 / a.2)
  totalPowerWatts := if a.2 = 0 then none else some a.1

/-! ### One micro-batch -/

/-- A micro-batch: the events read since the last one, and `current_timestamp`. -/
structure MicroBatch where
  currentTimestamp : ℤ
  rows : List (Reading ℤ)
  deriving DecidableEq

/-- `filtered_time_df`: the events of the last ten minutes. -/
def filteredTimeDf (b : MicroBatch) : List (Reading ℤ) :=
  b.rows.filter fun r => (test (b.currentTimestamp - minutes 10 ≤ ·) r.timestamp).Holds

/-- The events that pass the ten-minute filter and the cleaning filter. -/
def accepted (b : MicroBatch) : List (Reading ℤ) :=
  (filteredTimeDf b).filter fun r => (contextCleanDf r).Holds

/-- The state the query keeps between micro-batches, all of it in the checkpoint. -/
structure StreamState where
  marks : Watermarks
  seen : List EventKey
  store : Store WindowKey PowerSum

/-- The state of a query that starts without a checkpoint. -/
def StreamState.start : StreamState := ⟨Watermarks.start, [], fun _ => none⟩

/-- The events of a micro-batch that are left after `dropDuplicates`. -/
def freshEvents (s : StreamState) (b : MicroBatch) : List (Reading ℤ) :=
  (dedupBatch eventKey Prod.fst s.marks s.seen (accepted b)).2

/-- What a micro-batch adds to the groups. -/
def contributed (s : StreamState) (b : MicroBatch) : List (WindowKey × PowerSum) :=
  contributions windowKeys powerSum (freshEvents s b)

/-- **One micro-batch** of the streaming query: the next state, and the rows handed to
the sink. -/
def microBatch (s : StreamState) (b : MicroBatch) : StreamState × List WindowedRow :=
  let aggregated := aggregateBatch WindowKey.time s.marks s.store (contributed s b)
  ({ marks := s.marks.next (minutes 15) ((filteredTimeDf b).map (·.timestamp))
     seen := (dedupBatch eventKey Prod.fst s.marks s.seen (accepted b)).1
     store := aggregated.1 },
    aggregated.2.map fun p => windowedRow p.1 p.2)

/-! ### What the state of the query covers -/

theorem minutes_pos {n : ℤ} (h : 0 < n) : 0 < minutes n := by
  unfold minutes
  omega

/-- An event lies in the windows that start at or before it and end after it. -/
theorem mem_windowKeys {r : Reading ℤ} {k : WindowKey} :
    k ∈ windowKeys r ↔ ∃ t, r.timestamp = some t ∧ k.zone = r.zone ∧ k.deviceType = r.deviceType ∧
      minutes 1 ∣ k.windowEnd - minutes 5 ∧ k.windowEnd - minutes 5 ≤ t ∧ t < k.windowEnd := by
  cases ht : r.timestamp with
  | none => simp [windowKeys, ht]
  | some t =>
    simp only [windowKeys, ht, List.mem_map, mem_windowEnds (minutes_pos one_pos)]
    constructor
    · rintro ⟨e, he, rfl⟩
      exact ⟨t, rfl, rfl, rfl, he⟩
    · rintro ⟨t', ⟨⟩, hz, hd, he⟩
      exact ⟨k.windowEnd, he, by rw [← hz, ← hd]⟩

theorem nodup_windowKeys (r : Reading ℤ) : (windowKeys r).Nodup := by
  unfold windowKeys
  split
  · exact List.nodup_nil
  · exact (nodup_windowEnds (minutes_pos one_pos) _).map fun a b h => (WindowKey.mk.inj h).1

/-- An accepted event has a timestamp within the last ten minutes, a device type, and
a power that is not negative. -/
theorem accepted_spec {b : MicroBatch} {r : Reading ℤ} (h : r ∈ accepted b) :
    r ∈ b.rows ∧ (∃ t, r.timestamp = some t ∧ b.currentTimestamp - minutes 10 ≤ t) ∧
      ∃ p, r.powerConsumptionWatts = some p ∧ 0 ≤ p := by
  obtain ⟨ht, hc⟩ := List.mem_filter.mp h
  obtain ⟨hr, ht⟩ := List.mem_filter.mp ht
  obtain ⟨p, -, -, hp, -, -, -, h0, -⟩ := holds_contextCleanDf.mp (of_decide_eq_true hc)
  exact ⟨hr, (holds_test _ _).mp (of_decide_eq_true ht), p, hp, h0⟩

theorem freshEvents_subset {s : StreamState} {b : MicroBatch} {r : Reading ℤ}
    (h : r ∈ freshEvents s b) : r ∈ accepted b := by
  have h' := (dropDuplicates_subset _ _ r h).1
  exact (List.mem_filter.mp h').1

/-- What an accepted event adds is a power, counted once. -/
theorem powerSum_of_accepted {b : MicroBatch} {r : Reading ℤ} (h : r ∈ accepted b) :
    0 ≤ (powerSum r).1 ∧ (powerSum r).2 = 1 := by
  obtain ⟨-, -, p, hp, h0⟩ := accepted_spec h
  simp [powerSum, hp, h0]

/-- **What the state of the query covers**: the events that were on time so far, and
what they gave to the groups that were not late – powers, each counted once. -/
structure Tracks (s : StreamState) (past : List (Reading ℤ)) (given : List (WindowKey × PowerSum)) :
    Prop where
  seen : DedupCovers eventKey Prod.fst s.marks s.seen past
  store : StoreCovers WindowKey.time s.marks s.store given
  powers : ∀ p ∈ given, 0 ≤ p.2.1 ∧ p.2.2 = 1

theorem tracks_start : Tracks StreamState.start [] [] :=
  ⟨dedupCovers_start _, storeCovers_start, by simp⟩

/-- What a micro-batch gives to the groups that are not late. -/
def givenBy (s : StreamState) (b : MicroBatch) : List (WindowKey × PowerSum) :=
  onTimePairs WindowKey.time s.marks (contributed s b)

section Tracks

variable {s : StreamState} {past : List (Reading ℤ)} {given : List (WindowKey × PowerSum)}

theorem powers_givenBy (s : StreamState) (b : MicroBatch) :
    ∀ p ∈ givenBy s b, 0 ≤ p.2.1 ∧ p.2.2 = 1 := by
  intro p hp
  obtain ⟨r, hr, -, hv⟩ := mem_contributions.mp (List.mem_filter.mp hp).1
  exact hv ▸ powerSum_of_accepted (freshEvents_subset hr)

/-- **One micro-batch keeps track.** -/
theorem Tracks.microBatch (h : Tracks s past given) (b : MicroBatch) :
    Tracks (microBatch s b).1 (past ++ onTime eventKey Prod.fst s.marks (accepted b))
      (given ++ givenBy s b) where
  seen := h.seen.batch _ _ _
  store := h.store.batch _ _ _
  powers p hp := (List.mem_append.mp hp).elim (h.powers p) (powers_givenBy s b p)

theorem sum_powerSum (l : List PowerSum) :
    l.sum = ((l.map Prod.fst).sum, (l.map Prod.snd).sum) := by
  induction l with
  | nil => rfl
  | cons x l ih => simp only [List.sum_cons, List.map_cons, ih, Prod.ext_iff, Prod.fst_add,
      Prod.snd_add, and_self]

/-- Sums of powers, each counted once, are not negative and count something. -/
theorem total_spec (h : ∀ p ∈ given, 0 ≤ p.2.1 ∧ p.2.2 = 1) {k : WindowKey} {a : PowerSum}
    (ha : totalFor given k = some a) : 0 ≤ a.1 ∧ a.2 ≠ 0 := by
  have hv : ∀ x ∈ givenTo given k, 0 ≤ x.1 ∧ x.2 = 1 := by
    intro x hx
    obtain ⟨p, hp, rfl⟩ := List.mem_map.mp hx
    exact h p (mem_groupRows.mp hp).1
  unfold totalFor at ha
  split at ha
  · exact absurd ha (by simp)
  next hne =>
    obtain rfl := Option.some.inj ha
    obtain ⟨x, hx⟩ := List.exists_mem_of_ne_nil _ hne
    rw [sum_powerSum]
    constructor
    · refine List.sum_nonneg fun y hy => ?_
      obtain ⟨z, hz, rfl⟩ := List.mem_map.mp hy
      exact (hv z hz).1
    · have hle := List.single_le_sum (fun y _ => Nat.zero_le y) _
        (List.mem_map_of_mem (f := Prod.snd) hx)
      simp only [(hv x hx).2] at hle
      omega

/-- **What a micro-batch hands to the sink**: for each group it touched, the row of
everything that was on time for it so far. -/
theorem Tracks.emits (h : Tracks s past given) {b : MicroBatch} {r : WindowedRow}
    (hr : r ∈ (SmartHomeEnergy.microBatch s b).2) :
    ∃ k a, totalFor (given ++ givenBy s b) k = some a ∧ r = windowedRow k a := by
  obtain ⟨⟨k, a⟩, hp, rfl⟩ := List.mem_map.mp hr
  exact ⟨k, a, h.store.emits hp, rfl⟩

/-- A group a micro-batch hands nothing over for keeps its total. -/
theorem totalFor_of_not_handed {b : MicroBatch} {k : WindowKey}
    (hk : ∀ a, windowedRow k a ∉ (microBatch s b).2) :
    totalFor (given ++ givenBy s b) k = totalFor given k := by
  refine totalFor_of_not_emitted s.store (fun hc => ?_) given
  obtain ⟨⟨j, a⟩, hp, rfl⟩ := List.mem_map.mp hc
  exact hk a (List.mem_map.mpr ⟨(j, a), hp, rfl⟩)

end Tracks

end SmartHomeEnergy
