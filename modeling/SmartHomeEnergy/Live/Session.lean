import SmartHomeEnergy.Live.Sink
import SmartHomeEnergy.Transition.Run

/-!
# The live layer: the streaming query and its table

A session of the live layer runs the streaming query of
`SmartHomeEnergy.Live.Pipeline` into the sink of `SmartHomeEnergy.Live.Sink`, one
micro-batch after the other and without a fault (`SmartHomeEnergy.onBatch`). It may
start over a table that an earlier session has left behind.

What a session does to the table is one invariant, `SmartHomeEnergy.Follows`: a row
under a key the session was given something for shows exactly the total of what it
was given, and every other row is still the one the session found. Nothing is assumed
about the times of the events.
-/

namespace SmartHomeEnergy

open Relational Streaming Transition

/-- The live layer between two micro-batches. -/
structure LiveState where
  stream : StreamState
  table : LiveTable
  batchId : ℕ

/-- A session that starts without a checkpoint, over the table as it stands. -/
def LiveState.start (t : LiveTable) : LiveState := ⟨StreamState.start, t, 0⟩

/-- **One micro-batch of a session**; `hash` is the partitioner of the shuffle. -/
def onBatch (hash : WindowedRow → Fin 4) (s : LiveState) (b : MicroBatch) : LiveState where
  stream := (microBatch s.stream b).1
  table :=
    (writeToPostgresOnly s.batchId (spread hash (microBatch s.stream b).2) none s.table).state
  batchId := s.batchId + 1

/-! ### Keys of the table and keys of the query -/

/-- The group whose row is stored under a key. -/
def tableKey (k : String × String × ℤ) : WindowKey := ⟨k.2.2, some k.1, some k.2.1⟩

theorem windowedKey_windowedRow {w : WindowKey} {a : PowerSum} {k : String × String × ℤ} :
    windowedKey (windowedRow w a) = some k ↔ w = tableKey k := by
  obtain ⟨e, z, d⟩ := w
  rw [windowedKey_eq_some]
  simp only [windowedRow, tableKey, Option.some.injEq, WindowKey.mk.injEq]
  tauto

/-! ### What a session does to the table -/

/-- The row under a key, in a session that started over a table and was given
something since. -/
def sessionRow (t₀ : LiveTable) (given : List (WindowKey × PowerSum)) (k : String × String × ℤ) :
    Option WindowedRow :=
  match totalFor given (tableKey k) with
  | some a => some (windowedRow (tableKey k) a)
  | none => t₀.find k

/-- **The invariant of a session**: a row of the table is the one the session shows
under its key. -/
def Follows (t₀ : LiveTable) (given : List (WindowKey × PowerSum)) (t : LiveTable) : Prop :=
  ∀ k row, t.find k = some row → sessionRow t₀ given k = some row

section Session

variable {hash : WindowedRow → Fin 4} {s : LiveState} {past : List (Reading ℤ)}
  {given : List (WindowKey × PowerSum)} {t₀ : LiveTable}

theorem follows_start (t₀ : LiveTable) : Follows t₀ [] t₀ := fun _ _ h => h

/-- What a micro-batch hands to the sink has its powers. -/
theorem numeric_microBatch (h : Tracks s.stream past given) (b : MicroBatch) :
    Numeric (microBatch s.stream b).2 := by
  intro r hr
  obtain ⟨k, a, ha, rfl⟩ := h.emits hr
  have hcount := (total_spec (h.microBatch b).powers ha).2
  simp [windowedRow, hcount]

/-- The row under a key once the partitions of a micro-batch are merged: the one that
was handed over for it, or the old one. -/
theorem find_merged (h : Tracks s.stream past given) (b : MicroBatch) (k : String × String × ℤ) :
    ((foreachPartition (spread hash (microBatch s.stream b).2) s.table).state).find k =
      if ∃ r ∈ (microBatch s.stream b).2, windowedKey r = some k then
        sessionRow t₀ (given ++ givenBy s.stream b) k
      else s.table.find k := by
  rw [foreachPartition_eq, Attempt.done_state]
  have hmem := @mem_committed_spread hash _ (numeric_microBatch h b)
  -- whatever is handed over for the key is the row of its total
  have hrow : ∀ r ∈ (microBatch s.stream b).2, windowedKey r = some k →
      sessionRow t₀ (given ++ givenBy s.stream b) k = some r := by
    intro r hr hk
    obtain ⟨w, a, ha, rfl⟩ := h.emits hr
    obtain rfl := windowedKey_windowedRow.mp hk
    rw [sessionRow, ha]
  split
  next hex =>
    obtain ⟨r, hr, hk⟩ := hex
    rw [hrow r hr hk]
    refine Table.find_upsertAll_of_unique windowedUpsert_overwrites _
      (hmem.mpr ⟨hr, by simp [hk]⟩) hk fun x hx hxk => ?_
    exact Option.some.inj ((hrow x (hmem.mp hx).1 hxk).symm.trans (hrow r hr hk))
  next hnone =>
    refine Table.find_upsertAll_of_not_mem _ _ fun r hr hk => hnone ⟨r, (hmem.mp hr).1, hk⟩

/-- **A micro-batch keeps the invariant of the session**, purge or not. -/
theorem Follows.onBatch (hf : Follows t₀ given s.table) (h : Tracks s.stream past given)
    (b : MicroBatch) :
    Follows t₀ (given ++ givenBy s.stream b) (SmartHomeEnergy.onBatch hash s b).table := by
  intro k row hrow
  obtain ⟨hmem, hk⟩ := Table.mem_of_find hrow
  have hfind := Table.find_of_mem (mem_writeToPostgresOnly hmem) hk
  rw [find_merged h b k] at hfind
  split at hfind
  next => exact hfind
  next hnone =>
    have htotal : totalFor (given ++ givenBy s.stream b) (tableKey k) =
        totalFor given (tableKey k) := by
      refine totalFor_of_not_handed fun a ha => hnone ⟨_, ha, ?_⟩
      exact windowedKey_windowedRow.mpr rfl
    rw [sessionRow, htotal]
    exact hf k row hfind

/-- Every row a session stores has a key. -/
theorem keyed_onBatch (hkeyed : ∀ r ∈ s.table.rows, windowedKey r ≠ none)
    (h : Tracks s.stream past given) (b : MicroBatch) :
    ∀ r ∈ (onBatch hash s b).table.rows, windowedKey r ≠ none := by
  intro r hr
  have hr' := mem_writeToPostgresOnly hr
  rw [foreachPartition_eq, Attempt.done_state] at hr'
  obtain ⟨x, hx, hxk⟩ := Table.key_mem_upsertAll hr'
  rw [hxk]
  rcases List.mem_append.mp hx with hx | hx
  · exact hkeyed x hx
  · exact ((mem_committed_spread (numeric_microBatch h b)).mp hx).2

end Session

end SmartHomeEnergy
