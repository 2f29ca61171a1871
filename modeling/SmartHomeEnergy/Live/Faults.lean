import SmartHomeEnergy.Live.Exact

/-!
# The live table under faults and restarts

In the long run everything happens to the live layer: the transaction of a partition fails and
its rows are lost, a purge fails, the program is killed in the middle of a batch and starts
again without its state, and events arrive twice, late or not at all. The table is not exact
then. But it never shows too much: **every row it ever holds is the sum and the mean over
events that were accepted, no two of them of the same time and device, all of the zone, the
type and the window of the row** (`SmartHomeEnergy.standsFor_exec`).

So the mean lies under the cap of its type, and between zero and the sum, which is what the
report builds on (`SmartHomeEnergy.StandsFor.bounded`).
-/

namespace SmartHomeEnergy

open Relational Streaming Transition

/-! ### Runs with faults -/

/-- What happens to the live layer. A program that is killed in the middle of a batch is one
whose remaining partitions fail, and that starts again. -/
inductive LiveEvent
  /-- A micro-batch is processed; the transactions of some partitions fail, or the purge. -/
  | batch (b : MicroBatch) (faults : Fin 4 → Option Fault) (purgeFault : Option Fault)
  /-- The program starts again. -/
  | restart

/-- The rows of a micro-batch, spread over the four partitions of the shuffle, each with its
fault. -/
def spreadFaults (hash : WindowedRow → Fin 4) (faults : Fin 4 → Option Fault)
    (rows : List WindowedRow) : Partitions :=
  (List.finRange 4).map fun i => (faults i, rows.filter fun r => hash r = i)

/-- **One step of the live layer.** -/
def liveEventStep (hash : WindowedRow → Fin 4) (s : LiveState) : LiveEvent → LiveState
  | .batch b faults purgeFault =>
    { stream := (microBatch s.stream b).1
      table := (writeToPostgresOnly s.batchId (spreadFaults hash faults (microBatch s.stream b).2)
        purgeFault s.table).state
      batchId := s.batchId + 1 }
  | .restart => LiveState.start s.table

/-- The events that were accepted. -/
def acceptedIn (es : List LiveEvent) : List (Reading ℤ) :=
  es.flatMap fun e => match e with
    | .batch b _ _ => accepted b
    | .restart => []

/-- **What a row may stand for**: the sum and the mean of the power of some of the events, no two
of the same time and device, and all of the zone, the type and the window of the row. -/
def StandsFor (events : List (Reading ℤ)) (row : WindowedRow) : Prop :=
  ∃ z d e counted, row.zone = some z ∧ row.deviceType = some d ∧ row.windowEnd = some e ∧
    row.windowStart = some (e - minutes 5) ∧ minutes 1 ∣ e - minutes 5 ∧ counted ≠ [] ∧
    (∀ r ∈ counted, r ∈ events ∧ InWindow z d e r) ∧ (counted.map eventKey).Nodup ∧
    row.totalPowerWatts = some (counted.map power).sum ∧
    row.avgPowerWatts = some ((counted.map power).sum / counted.length)

theorem StandsFor.mono {events events' : List (Reading ℤ)} {row : WindowedRow}
    (h : StandsFor events row) (hsub : events ⊆ events') : StandsFor events' row := by
  obtain ⟨z, d, e, counted, hz, hd, he, hs, hgrid, hne, hin, hrest⟩ := h
  exact ⟨z, d, e, counted, hz, hd, he, hs, hgrid, hne,
    fun r hr => ⟨hsub (hin r hr).1, (hin r hr).2⟩, hrest⟩

/-! ### What a query hands over -/

section Query

variable {s : StreamState} {past : List (Reading ℤ)} {given : List (WindowKey × PowerSum)}

/-- **The invariant of a query**: what the groups were given comes from the distinct events, and
these from the accepted ones. -/
structure Counts (events : List (Reading ℤ)) (s : StreamState) (past : List (Reading ℤ))
    (given : List (WindowKey × PowerSum)) : Prop where
  tracks : Tracks s past given
  given : given.Sublist (contributions windowKeys powerSum (dropDuplicates eventKey [] past))
  past : past ⊆ events

theorem counts_start (events : List (Reading ℤ)) : Counts events StreamState.start [] [] :=
  ⟨tracks_start, List.Sublist.refl _, List.nil_subset _⟩

/-- **A micro-batch keeps the invariant.** -/
theorem Counts.microBatch {events : List (Reading ℤ)} (h : Counts events s past given)
    (b : MicroBatch) :
    Counts (events ++ accepted b) (microBatch s b).1
      (past ++ onTime eventKey Prod.fst s.marks (accepted b)) (given ++ givenBy s b) where
  tracks := h.tracks.microBatch b
  given := by
    rw [h.tracks.seen.append, contributions_append]
    exact h.given.append List.filter_sublist
  past := by
    refine List.append_subset.mpr ⟨?_, ?_⟩
    · exact List.subset_append_of_subset_left _ h.past
    · exact List.subset_append_of_subset_right _ (List.filter_sublist.subset)

/-- **A row that is handed over** stands for the events its group was given. -/
theorem Counts.standsFor {events : List (Reading ℤ)} (h : Counts events s past given)
    (hevents : ∀ r ∈ events, (powerSum r).2 = 1) {k : String × String × ℤ} {a : PowerSum}
    (ha : totalFor given (tableKey k) = some a) :
    StandsFor events (windowedRow (tableKey k) a) := by
  obtain ⟨z, d, e⟩ := k
  rw [totalFor] at ha
  split at ha
  · exact absurd ha (by simp)
  next hne =>
    -- the values of the group are those of some of the distinct events
    have hsub : (givenTo given (tableKey (z, d, e))).Sublist
        (((dropDuplicates eventKey [] past).filter
          fun r => tableKey (z, d, e) ∈ windowKeys r).map powerSum) := by
      rw [← givenTo_contributions nodup_windowKeys]
      exact (h.given.filter _).map Prod.snd
    obtain ⟨counted, hcounted, hvalues⟩ := List.sublist_map_iff.mp hsub
    have hin : ∀ r ∈ counted, r ∈ events ∧ tableKey (z, d, e) ∈ windowKeys r := by
      intro r hr
      obtain ⟨hdistinct, hkey⟩ := List.mem_filter.mp (hcounted.subset hr)
      exact ⟨h.past (dropDuplicates_subset _ _ r hdistinct).1, of_decide_eq_true hkey⟩
    rw [hvalues] at ha hne
    have hne' : counted ≠ [] := fun hnil => hne (by rw [hnil]; rfl)
    obtain ⟨r₀, hr₀⟩ := List.exists_mem_of_ne_nil _ hne'
    obtain ⟨-, -, -, -, hgrid, -⟩ := mem_windowKeys.mp (hin r₀ hr₀).2
    rw [sum_powerSum_accepted fun r hr => hevents r (hin r hr).1] at ha
    obtain rfl := Option.some.inj ha
    have hcount : counted.length ≠ 0 := by simpa using hne'
    refine ⟨z, d, e, counted, rfl, rfl, rfl, rfl, hgrid, hne', fun r hr => ?_, ?_,
      by simp [windowedRow, hcount], by simp [windowedRow, hcount]⟩
    · exact ⟨(hin r hr).1, (mem_windowKeys_tableKey hgrid r).mp (hin r hr).2⟩
    · exact (nodup_dropDuplicates past []).sublist
        ((hcounted.trans List.filter_sublist).map eventKey)

end Query

/-! ### What the table holds -/

/-- What partitions commit was handed over, and has a key. -/
theorem mem_of_committed_spreadFaults {hash : WindowedRow → Fin 4} {faults : Fin 4 → Option Fault}
    {rows : List WindowedRow} {r : WindowedRow}
    (h : r ∈ committed (spreadFaults hash faults rows)) : r ∈ rows ∧ windowedKey r ≠ none := by
  obtain ⟨p, hp, hr⟩ := List.mem_flatMap.mp h
  obtain ⟨i, -, rfl⟩ := List.mem_map.mp hp
  split at hr
  · obtain ⟨hmem, hkey⟩ := List.mem_filter.mp hr
    exact ⟨(List.mem_filter.mp hmem).1, of_decide_eq_true hkey⟩
  · exact absurd hr List.not_mem_nil

/-- **The invariant of a run**: the query counts events that were accepted, and every row stands
for some of them. -/
structure RunsFaulty (es : List LiveEvent) (s : LiveState) : Prop where
  query : ∃ past given, Counts (acceptedIn es) s.stream past given
  keyed : ∀ r ∈ s.table.rows, windowedKey r ≠ none
  rows : ∀ r ∈ s.table.rows, StandsFor (acceptedIn es) r

theorem runsFaulty_start : RunsFaulty [] (LiveState.start .empty) :=
  ⟨⟨[], [], counts_start _⟩, by simp [LiveState.start, Table.empty],
    by simp [LiveState.start, Table.empty]⟩

/-- Accepted events have a power. -/
theorem powerSum_of_acceptedIn {es : List LiveEvent} {r : Reading ℤ} (h : r ∈ acceptedIn es) :
    (powerSum r).2 = 1 := by
  obtain ⟨e, -, hr⟩ := List.mem_flatMap.mp h
  cases e with
  | batch b faults purgeFault => exact (powerSum_of_accepted hr).2
  | restart => exact absurd hr List.not_mem_nil

/-- **A step keeps the invariant.** -/
theorem RunsFaulty.step {hash : WindowedRow → Fin 4} {es : List LiveEvent} {s : LiveState}
    (h : RunsFaulty es s) (e : LiveEvent) :
    RunsFaulty (es ++ [e]) (liveEventStep hash s e) := by
  have hmore : acceptedIn es ⊆ acceptedIn (es ++ [e]) := by
    rw [acceptedIn, acceptedIn, List.flatMap_append]
    exact List.subset_append_left ..
  cases e with
  | restart =>
    exact ⟨⟨[], [], counts_start _⟩, h.keyed, fun r hr => (h.rows r hr).mono hmore⟩
  | batch b faults purgeFault =>
    obtain ⟨past, given, hcounts⟩ := h.query
    have haccepted : acceptedIn es ++ accepted b =
        acceptedIn (es ++ [.batch b faults purgeFault]) := by simp [acceptedIn]
    have hcounts' := haccepted ▸ hcounts.microBatch b
    -- a row of the table was there before, or a partition has committed it
    have hrows : ∀ r ∈ (liveEventStep hash s (.batch b faults purgeFault)).table.rows,
        r ∈ s.table.rows ∨ r ∈ (microBatch s.stream b).2 ∧ windowedKey r ≠ none := by
      intro r hr
      have hmerged := mem_writeToPostgresOnly hr
      rw [foreachPartition_eq, Attempt.done_state] at hmerged
      exact (Table.mem_upsertAll windowedUpsert_overwrites hmerged).symm.imp_right
        mem_of_committed_spreadFaults
    refine ⟨⟨_, _, hcounts'⟩, fun r hr => ?_, fun r hr => ?_⟩
    · exact (hrows r hr).elim (h.keyed r) And.right
    · rcases hrows r hr with hold | ⟨hnew, hkey⟩
      · exact (h.rows r hold).mono hmore
      · obtain ⟨w, a, ha, rfl⟩ := hcounts.tracks.emits hnew
        obtain ⟨k, hk⟩ := Option.ne_none_iff_exists'.mp hkey
        obtain rfl := windowedKey_windowedRow.mp hk
        exact hcounts'.standsFor (fun x hx => powerSum_of_acceptedIn hx) ha

/-! ### What follows for a row -/

/-- The power of an accepted event lies between zero and the cap of its type. -/
theorem power_of_acceptedIn {es : List LiveEvent} {r : Reading ℤ} (h : r ∈ acceptedIn es)
    {d : String} (hd : r.deviceType = some d) : 0 ≤ power r ∧ power r ≤ liveCap d := by
  obtain ⟨e, -, hr⟩ := List.mem_flatMap.mp h
  cases e with
  | restart => exact absurd hr List.not_mem_nil
  | batch b faults purgeFault =>
    obtain ⟨p, d', -, hp, hd', -, -, h0, hcap⟩ :=
      holds_contextCleanDf.mp (of_decide_eq_true (List.mem_filter.mp hr).2)
    obtain rfl : d = d' := Option.some.inj (hd.symm.trans hd')
    simpa [power, hp] using And.intro h0 hcap

/-- A row has a mean under the cap of its type, between zero and the sum. -/
def Bounded (row : WindowedRow) : Prop :=
  ∃ d mean total, row.deviceType = some d ∧ row.avgPowerWatts = some mean ∧
    row.totalPowerWatts = some total ∧ 0 ≤ mean ∧ mean ≤ total ∧ mean ≤ liveCap d

/-- **A row that stands for accepted events** is bounded. -/
theorem StandsFor.bounded {es : List LiveEvent} {row : WindowedRow}
    (h : StandsFor (acceptedIn es) row) : Bounded row := by
  obtain ⟨z, d, e, counted, -, hd, -, -, -, hne, hin, -, htotal, hmean⟩ := h
  have hpower : ∀ r ∈ counted, 0 ≤ power r ∧ power r ≤ liveCap d := fun r hr =>
    power_of_acceptedIn (hin r hr).1 (hin r hr).2.2.1
  have hsum : 0 ≤ (counted.map power).sum := List.sum_nonneg fun x hx => by
    obtain ⟨r, hr, rfl⟩ := List.mem_map.mp hx
    exact (hpower r hr).1
  have hcap : (counted.map power).sum ≤ counted.length * (liveCap d : ℚ) := by
    have hle := List.sum_le_card_nsmul (counted.map power) (liveCap d : ℚ) fun x hx => by
      obtain ⟨r, hr, rfl⟩ := List.mem_map.mp hx
      exact (hpower r hr).2
    simpa using hle
  have hcount : (1 : ℚ) ≤ counted.length := by
    exact_mod_cast List.length_pos_iff.mpr hne
  refine ⟨d, _, _, hd, hmean, htotal, ?_, ?_, ?_⟩
  · positivity
  · exact div_le_self hsum hcount
  · rw [div_le_iff₀ (by linarith)]
    linarith

/-- **The live table never shows too much**: in every run, whatever fails and however often the
program starts again, every row is the sum and the mean over accepted events of its window,
zone and type, each of which it counts once. -/
theorem standsFor_exec (hash : WindowedRow → Fin 4) (es : List LiveEvent) :
    ∀ row ∈ (exec (liveEventStep hash) (LiveState.start .empty) es).table.rows,
      StandsFor (acceptedIn es) row ∧ Bounded row := by
  intro row hrow
  have hstands : StandsFor (acceptedIn es) row :=
    (exec_induction _ RunsFaulty runsFaulty_start (fun _ e ih => ih.step e) es).rows row hrow
  exact ⟨hstands, hstands.bounded⟩

/-- A batch, the program killed and started again, the same event and another, whose windows are
lost in part, and a batch that is written. -/
def killedBetween : List LiveEvent :=
  [.batch ⟨minutes 60, [fridgeReading (minutes 59) 300]⟩ (fun _ => none) none, .restart,
    .batch ⟨minutes 60, [fridgeReading (minutes 59) 300, fridgeReading (minutes 60) 100]⟩
      (fun i => if i = 0 then some .commit else none) (some .execute),
    .batch ⟨minutes 61, [fridgeReading (minutes 61) 200]⟩ (fun _ => none) none]

theorem standsFor_exec_killedBetween :
    let hash := fun row : WindowedRow => if row.windowEnd = some (minutes 62) then 0 else 1
    let rows := (exec (liveEventStep hash) (LiveState.start .empty) killedBetween).table.rows
    rows.length = 7 ∧ ∀ row ∈ rows, StandsFor (acceptedIn killedBetween) row ∧ Bounded row :=
  ⟨by decide +kernel, standsFor_exec _ killedBetween⟩

end SmartHomeEnergy
