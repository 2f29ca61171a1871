import SmartHomeEnergy.Ingestion.RawBronze
import SmartHomeEnergy.Warehouse.Faults
import SmartHomeEnergy.Warehouse.Recovery

/-!
# From the topic to the warehouse

Three notebooks hand the readings on: `raw_bronze_parquet` from the topic to the bronze files,
`clean_silver_pipeline` from these to the silver files, and `spark_dwh_batch` from those to
`dwh_energy_analytics`. Each is a query of its own, is started again and again, and may be
stopped at any moment, and nothing keeps the three in step. The bronze notebook deletes its
checkpoint at the start of every run; the other two keep theirs.

Whatever the order of what happens, a message comes at most once to the bronze and to the
silver rows (`SmartHomeEnergy.atMostOnce_medallion`); the silver rows are exactly the clean
ones of the bronze rows that were read (`SmartHomeEnergy.silver_exactlyOnce`); and the
warehouse is what one merge of each batch of them makes of it
(`SmartHomeEnergy.daily_effectivelyOnce`).
-/

namespace SmartHomeEnergy

open Relational Streaming Transition

/-! ### The three notebooks -/

/-- The topic, and what the three notebooks keep. -/
structure Medallion (D : Type) where
  energyEvents : List String
  bronze : Execution (FileSink (Reading String))
  silver : Execution (FileSink (Reading String))
  daily : Execution (Warehouse D)

/-- An empty topic, before the first run of any of them. -/
def Medallion.start {D : Type} : Medallion D :=
  ⟨[], .start .start, .start .start, .start ⟨[], []⟩⟩

/-- What happens next. -/
inductive MedallionEvent (D : Type)
  /-- Messages arrive. -/
  | produce (messages : List String)
  /-- The bronze notebook is started, and cleans up. -/
  | cleanup (rmtreeFails : Bool)
  | bronze (e : ExecutionEvent (Option FileFault))
  | silver (e : ExecutionEvent (Option FileFault))
  | daily (e : ExecutionEvent (List PriceRow × CallbackFault D))

/-- A merge of the event does not fail before its commit. -/
def MedallionEvent.MergeCommits {D : Type} : MedallionEvent D → Prop
  | .daily (.write run) => run.2.MergeCommits
  | _ => True

section Steps

variable {D : Type} [DecidableEq D] (constraints : List (List Column)) (time : SparkTime D)
  (fromJson : String → Reading String)

/-- **One step of one of them.** -/
def medallionStep (s : Medallion D) : MedallionEvent D → Medallion D
  | .produce messages => { s with energyEvents := s.energyEvents ++ messages }
  | .cleanup rmtreeFails => { s with bronze := if rmtreeFails then s.bronze else s.bronze.forget }
  | .bronze e =>
    { s with bronze := s.bronze.step (FileSink.addBatch (List.map fromJson)) s.energyEvents e }
  | .silver e =>
    { s with silver := s.silver.step (FileSink.addBatch silverRows) s.bronze.sink.rows e }
  | .daily e =>
    { s with daily := s.daily.step (dailyBatch constraints time) s.silver.sink.rows e }

variable {time fromJson}

/-! ### The bronze and the silver files -/

/-- **The bronze and the silver query are in step** with what they read. -/
structure Layered (fromJson : String → Reading String) (s : Medallion D) : Prop where
  bronze : ∃ m, FileSink.Behind (List.map fromJson) s.energyEvents s.bronze m
  silver : ∃ bs, s.silver.Committed (FileSink.Holds silverRows)
    (fun bs b f => FileSink.Holds silverRows bs f ∨ FileSink.Holds silverRows (bs ++ [b]) f)
    s.bronze.sink.rows bs

variable {constraints} {s : Medallion D}

omit [DecidableEq D] in
theorem layered_start (fromJson : String → Reading String) :
    Layered fromJson (Medallion.start : Medallion D) :=
  ⟨⟨0, FileSink.behind_start⟩, ⟨[], Execution.committed_start FileSink.holds_start⟩⟩

/-- **A step keeps them in step**: what the bronze query writes is behind what the silver query
has read. -/
theorem Layered.step (h : Layered fromJson s) (e : MedallionEvent D) :
    Layered fromJson (medallionStep constraints time fromJson s e) := by
  obtain ⟨⟨m, hbronze⟩, ⟨bs, hsilver⟩⟩ := h
  cases e with
  | produce messages => exact ⟨⟨m, hbronze.append messages⟩, ⟨bs, hsilver⟩⟩
  | cleanup rmtreeFails =>
    cases rmtreeFails with
    | true => exact ⟨⟨m, hbronze⟩, ⟨bs, hsilver⟩⟩
    | false => exact ⟨⟨m, hbronze.forget⟩, ⟨bs, hsilver⟩⟩
  | bronze e =>
    refine ⟨hbronze.step (fun _ _ => List.map_append) e, ⟨bs, ?_⟩⟩
    obtain ⟨more, hmore⟩ :=
      FileSink.prefix_step (List.map fromJson) s.energyEvents s.bronze e
    have happend := hsilver.append more
    rwa [hmore] at happend
  | silver e =>
    obtain ⟨bs', -, hsilver'⟩ := hsilver.next (FileSink.recovers silverRows) (e := e)
      (by cases e <;> trivial)
    exact ⟨⟨m, hbronze⟩, ⟨bs', hsilver'⟩⟩
  | daily e => exact ⟨⟨m, hbronze⟩, ⟨bs, hsilver⟩⟩

theorem layered_exec (constraints : List (List Column)) (time : SparkTime D)
    (fromJson : String → Reading String) (es : List (MedallionEvent D)) :
    Layered fromJson (exec (medallionStep constraints time fromJson) Medallion.start es) :=
  exec_induction _ (fun _ s => Layered fromJson s) (layered_start fromJson)
    (fun _ e ih => ih.step e) es

theorem silverRows_append (a b : List (Reading String)) :
    silverRows (a ++ b) = silverRows a ++ silverRows b := List.filter_append ..

omit [DecidableEq D] in
/-- **At any moment** the silver rows are the clean ones of the bronze rows up to some offset. -/
theorem Layered.exists_silver (h : Layered fromJson s) :
    ∃ n, s.silver.startOffset ≤ n ∧ n ≤ s.bronze.sink.rows.length ∧
      s.silver.sink.rows = silverRows (s.bronze.sink.rows.take n) := by
  obtain ⟨bs, hsilver⟩ := h.silver
  obtain ⟨bs', n, hstart, hn, hcut, hheld⟩ := hsilver.exists_held fun _ _ _ => id
  exact ⟨n, hstart, hn, by rw [← hcut, hheld.rows rfl silverRows_append]⟩

omit [DecidableEq D] in
/-- The bronze rows are messages of the topic. -/
theorem Layered.bronze_sublist (h : Layered fromJson s) :
    s.bronze.sink.rows.Sublist (s.energyEvents.map fromJson) := by
  obtain ⟨m, hbronze⟩ := h.bronze
  exact hbronze.stored.trans ((List.take_sublist ..).map fromJson)

omit [DecidableEq D] in
/-- A silver row is a message of the topic. -/
theorem Layered.exists_message (h : Layered fromJson s) {r : Reading String}
    (hr : r ∈ s.silver.sink.rows) : ∃ message ∈ s.energyEvents, fromJson message = r := by
  obtain ⟨n, -, -, hrows⟩ := h.exists_silver
  rw [hrows] at hr
  exact List.mem_map.mp (h.bronze_sublist.subset (List.mem_of_mem_take (List.mem_of_mem_filter hr)))

omit [DecidableEq D] in
/-- The silver rows are clean. -/
theorem Layered.silver_rows (h : Layered fromJson s) : Silver s.silver.sink.rows := by
  obtain ⟨n, -, -, hrows⟩ := h.exists_silver
  intro r hr
  rw [hrows] at hr
  exact of_decide_eq_true (List.mem_filter.mp hr).2

/-- Silver rows stay. -/
theorem silver_prefix_step (constraints : List (List Column)) (time : SparkTime D)
    (fromJson : String → Reading String) (s : Medallion D) (e : MedallionEvent D) :
    s.silver.sink.rows <+: (medallionStep constraints time fromJson s e).silver.sink.rows := by
  cases e with
  | silver e => exact FileSink.prefix_step silverRows s.bronze.sink.rows s.silver e
  | _ => exact List.prefix_rfl

/-- **At most once**: whatever is started, stopped, deleted and run again in whatever order, no
message comes twice to the bronze or to the silver rows, and nothing else comes to them. -/
theorem atMostOnce_medallion (constraints : List (List Column)) (time : SparkTime D)
    (fromJson : String → Reading String) (es : List (MedallionEvent D)) :
    let s := exec (medallionStep constraints time fromJson) Medallion.start es
    s.bronze.sink.rows.Subperm (s.energyEvents.map fromJson) ∧
      s.silver.sink.rows.Subperm (silverRows (s.energyEvents.map fromJson)) := by
  intro s
  have hlayered := layered_exec constraints time fromJson es
  have hsub : s.bronze.sink.rows.Sublist (s.energyEvents.map fromJson) := hlayered.bronze_sublist
  obtain ⟨n, -, -, hsilver⟩ := hlayered.exists_silver
  refine ⟨hsub.subperm, ?_⟩
  rw [hsilver]
  exact (((List.take_sublist ..).trans hsub).filter _).subperm

/-- A write of files that meets no fault does not raise. -/
theorem quiet_addBatch {μ ρ : Type*} (f : List μ → List ρ) (n : ℕ) (b : List μ) (s : FileSink ρ) :
    (FileSink.addBatch f none n b s).raised = false := by
  by_cases hacc : s.Accepts n <;> simp [FileSink.addBatch, hacc]

/-- **After a silver run that nothing stops** the silver rows are the clean bronze rows. -/
theorem Layered.silver_caughtUp (h : Layered fromJson s) :
    (exec (medallionStep constraints time fromJson) s
      ((Execution.completeRun none).map .silver)).silver.sink.rows =
        silverRows s.bronze.sink.rows := by
  obtain ⟨bs, hcommitted⟩ := h.silver
  obtain ⟨bs', -, hcut, hheld⟩ :=
    hcommitted.caughtUp (FileSink.recovers silverRows) trivial (quiet_addBatch silverRows)
  have hrows := hheld.rows rfl silverRows_append
  rwa [hcut] at hrows

/-- **Exactly once, from bronze to silver**: at any moment the silver rows are the clean ones of
the bronze rows up to some offset, and after a run that nothing stops they are the clean ones
of all bronze rows. -/
theorem silver_exactlyOnce (constraints : List (List Column)) (time : SparkTime D)
    (fromJson : String → Reading String) (es : List (MedallionEvent D)) :
    let s := exec (medallionStep constraints time fromJson) Medallion.start es
    let s' := exec (medallionStep constraints time fromJson) s
      ((Execution.completeRun none).map .silver)
    (∃ n, s.silver.startOffset ≤ n ∧ n ≤ s.bronze.sink.rows.length ∧
        s.silver.sink.rows.Perm (silverRows (s.bronze.sink.rows.take n))) ∧
      s'.silver.sink.rows.Perm (silverRows s'.bronze.sink.rows) := by
  intro s s'
  have hlayered := layered_exec constraints time fromJson es
  obtain ⟨n, hstart, hn, hsilver⟩ := hlayered.exists_silver
  exact ⟨⟨n, hstart, hn, by rw [hsilver]⟩, List.Perm.of_eq hlayered.silver_caughtUp⟩

/-! ### Runs of the bronze notebook as a whole -/

/-- The steps of a run of the bronze notebook that nothing stops. -/
def stepsOf : BronzeEvent → List (MedallionEvent D)
  | .append messages => [.produce messages]
  | .run rmtreeFails => .cleanup rmtreeFails :: (Execution.completeRun none).map .bronze

/-- The steps of the bronze query, among those of the three. -/
theorem exec_bronze (s : Medallion D) (es : List (ExecutionEvent (Option FileFault))) :
    exec (medallionStep constraints time fromJson) s (es.map .bronze) =
      { s with bronze := exec (Execution.step (FileSink.addBatch (List.map fromJson))
          s.energyEvents) s.bronze es } := by
  induction es generalizing s with
  | nil => rfl
  | cons e es ih => exact ih (medallionStep constraints time fromJson s (.bronze e))

/-- **Runs at one stroke are runs that nothing stops**: a history of whole runs leaves the same
topic, checkpoint, rows and log when it is taken step by step. -/
theorem ingest_stepsOf (constraints : List (List Column)) (time : SparkTime D)
    (fromJson : String → Reading String) (es : List BronzeEvent) :
    let s := exec (medallionStep constraints time fromJson) Medallion.start (es.flatMap stepsOf)
    let b := exec (ingest fromJson) Bronze.start es
    s.bronze.Idle ∧ s.energyEvents = b.energyEvents ∧ s.bronze.toQuery = b.query := by
  induction es using List.reverseRecOn with
  | nil => exact ⟨⟨rfl, rfl⟩, rfl, rfl⟩
  | append_singleton es e ih =>
    rw [List.flatMap_append, List.flatMap_singleton, exec_append, exec_append]
    generalize exec (medallionStep constraints time fromJson) Medallion.start
      (es.flatMap stepsOf) = s at ih
    generalize exec (ingest fromJson) Bronze.start es = b at ih
    obtain ⟨hidle, htopic, hquery⟩ := ih
    cases e with
    | append messages => exact ⟨hidle, congrArg (· ++ messages) htopic, hquery⟩
    | run rmtreeFails =>
      have hclean : (if rmtreeFails then s.bronze else s.bronze.forget).Idle ∧
          (if rmtreeFails then s.bronze else s.bronze.forget).toQuery =
            cleanCheckpoint rmtreeFails b.query := by
        rw [← hquery]
        cases rmtreeFails
        · exact ⟨⟨rfl, rfl⟩, rfl⟩
        · exact ⟨hidle, rfl⟩
      have hrun := Execution.toQuery_completeRun fromJson b.energyEvents hclean.1
      rw [stepsOf, exec_cons, exec_bronze]
      refine ⟨htopic ▸ hrun.1, htopic, ?_⟩
      show (exec (Execution.step (FileSink.addBatch (List.map fromJson)) s.energyEvents)
        (if rmtreeFails then s.bronze else s.bronze.forget) (Execution.completeRun none)).toQuery =
          (cleanCheckpoint rmtreeFails b.query).availableNow fromJson b.energyEvents
      rw [htopic, hrun.2, hclean.2]

/-! ### The warehouse -/

/-- **The daily query is in step** with the silver files. -/
def DailyLayered (time : SparkTime D) (lossless : Prop) (s : Medallion D) : Prop :=
  ∃ bs, s.daily.Committed
    (fun bs w => (∀ b ∈ bs, Named time b) → Merged time lossless bs w.analytics)
    (fun bs b w => (∀ b' ∈ bs ++ [b], Named time b') →
      Merged time lossless bs w.analytics ∨ Merged time lossless (bs ++ [b]) w.analytics)
    s.silver.sink.rows bs

/-- **A step keeps it in step**, when the table has the constraint. -/
theorem DailyLayered.step (hc : HasArbiter constraints analyticsTarget) {lossless : Prop}
    (h : DailyLayered time lossless s) {e : MedallionEvent D} (he : lossless → e.MergeCommits) :
    DailyLayered time lossless (medallionStep constraints time fromJson s e) := by
  obtain ⟨bs, hdaily⟩ := h
  cases e with
  | silver e =>
    obtain ⟨more, hmore⟩ := FileSink.prefix_step silverRows s.bronze.sink.rows s.silver e
    have happend := hdaily.append more
    rw [hmore] at happend
    exact ⟨bs, happend⟩
  | daily e =>
    obtain ⟨bs', -, hdaily'⟩ := hdaily.next (recovers_dailyBatch hc time lossless) (e := e)
      (by cases e <;> trivial)
    exact ⟨bs', hdaily'⟩
  | _ => exact ⟨bs, hdaily⟩

theorem dailyLayered_exec (hc : HasArbiter constraints analyticsTarget) (time : SparkTime D)
    (fromJson : String → Reading String) {lossless : Prop} {es : List (MedallionEvent D)}
    (hes : ∀ e ∈ es, lossless → e.MergeCommits) :
    DailyLayered time lossless
      (exec (medallionStep constraints time fromJson) Medallion.start es) := by
  refine exec_induction (medallionStep constraints time fromJson)
    (fun ls s => (∀ e ∈ ls, lossless → e.MergeCommits) → DailyLayered time lossless s)
    (fun _ => ⟨[], Execution.committed_start fun _ => merged_start⟩) (fun ls l ih hall => ?_) es hes
  exact (ih fun e he => hall e (List.mem_append_left _ he)).step hc (hall l (by simp))

/-- A reading with all the columns of the `ON CONFLICT` clause. -/
def NamedReading (time : SparkTime D) (r : Reading String) : Prop :=
  reportDate time r ≠ none ∧ r.zone ≠ none ∧ r.deviceType ≠ none ∧ r.isRoomOccupied ≠ none

instance (time : SparkTime D) (r : Reading String) : Decidable (NamedReading time r) :=
  inferInstanceAs (Decidable (_ ∧ _))

theorem named_of_namedReading {b : List (Reading String)} (h : ∀ r ∈ b, NamedReading time r) :
    Named time b := fun _ r hr => h r (mem_of_firstReading hr).1

/-- What was merged is what one merge of each batch leaves, row for row. -/
theorem Merged.perm {lossless : Prop} {bs : List (List (Reading String))} {rows : List (DayRow D)}
    (hnamed : ∀ b ∈ bs, Named time b) (h : Merged time lossless bs rows) :
    ∃ done : List (List PriceRow × List (Reading String)),
      (done.map (·.2)).Sublist bs ∧ (lossless → done.map (·.2) = bs) ∧
        rows.Perm ((Table.empty : Analytics D).upsertAll dayUpsert
          (done.flatMap fun p => finalAnalyticsDf time p.1 p.2)).rows := by
  obtain ⟨done, hsub, hall, t, rfl, hkeyed, hfind⟩ := h
  refine ⟨done, hsub, hall, Table.perm_of_find hkeyed (fun r hr => ?_) hfind⟩
  obtain ⟨y, hy, hkey⟩ := Table.key_mem_upsertAll hr
  rw [hkey]
  obtain ⟨p, hp, hmem⟩ := List.mem_flatMap.mp ((List.mem_append.mp hy).resolve_left (by
    simp [Table.empty]))
  exact (named_iff p.1).mp (hnamed p.2 (hsub.subset (List.mem_map_of_mem hp))) y hmem

/-- **Effectively once, from silver to the warehouse**: at any moment the table is what one merge
of each of some batches makes of an empty table, each with the prices of one run. The batches
come from a cut of the silver rows up to some offset, and when no merge has failed they are
all of it. -/
theorem daily_effectivelyOnce (hc : HasArbiter constraints analyticsTarget) (time : SparkTime D)
    (fromJson : String → Reading String) (es : List (MedallionEvent D))
    (hnamed : ∀ r ∈ (exec (medallionStep constraints time fromJson)
      Medallion.start es).silver.sink.rows, NamedReading time r) :
    let s := exec (medallionStep constraints time fromJson) Medallion.start es
    ∃ bs n, s.daily.startOffset ≤ n ∧ n ≤ s.silver.sink.rows.length ∧
      bs.flatten = s.silver.sink.rows.take n ∧
        ∃ done : List (List PriceRow × List (Reading String)),
          (done.map (·.2)).Sublist bs ∧
            ((∀ e ∈ es, e.MergeCommits) → done.map (·.2) = bs) ∧
              s.daily.sink.analytics.Perm ((Table.empty : Analytics D).upsertAll dayUpsert
                (done.flatMap fun p => finalAnalyticsDf time p.1 p.2)).rows := by
  intro s
  obtain ⟨bs₀, hdaily⟩ : DailyLayered time (∀ e ∈ es, e.MergeCommits) s :=
    dailyLayered_exec hc time fromJson fun e he hall => hall e he
  obtain ⟨bs, n, hstart, hn, hcut, hheld⟩ := hdaily.exists_held fun bs b w h => by
    by_cases hall : ∀ b' ∈ bs ++ [b], Named time b'
    · exact (h hall).imp (fun hm _ => hm) fun hm _ => hm
    · exact Or.inr fun hall' => absurd hall' hall
  refine ⟨bs, n, hstart, hn, hcut, ?_⟩
  have hbatches : ∀ b ∈ bs, Named time b := fun b hb => named_of_namedReading fun r hr => by
    have hmem : r ∈ bs.flatten := List.mem_flatten.mpr ⟨b, hb, hr⟩
    rw [hcut] at hmem
    exact hnamed r (List.mem_of_mem_take hmem)
  exact (hheld hbatches).perm hbatches

end Steps

/-- A message comes through, and the daily notebook is killed after the merge of its batch; the
next run merges it again, with another price. -/
def twiceMerged : List (MedallionEvent String) :=
  [.produce ["2026-01-01 12:00:00"],
    .bronze .plan, .bronze (.write none), .bronze .commit,
    .silver .plan, .silver (.write (some .afterLog)), .silver .stop,
    .silver (.write none), .silver .commit,
    .daily .plan, .daily (.write ([⟨some 12, some 20⟩], .killed true)), .daily .stop,
    .daily (.write ([⟨some 12, some 30⟩], .raises none none)), .daily .commit]

theorem daily_effectivelyOnce_twiceMerged :
    let s := exec (medallionStep [analyticsTarget] isoTime fridgeAt) Medallion.start twiceMerged
    ∃ bs n, s.daily.startOffset ≤ n ∧ n ≤ s.silver.sink.rows.length ∧
      bs.flatten = s.silver.sink.rows.take n ∧
        ∃ done : List (List PriceRow × List (Reading String)),
          (done.map (·.2)).Sublist bs ∧
            ((∀ e ∈ twiceMerged, e.MergeCommits) → done.map (·.2) = bs) ∧
              s.daily.sink.analytics.Perm ((Table.empty : Analytics String).upsertAll dayUpsert
                (done.flatMap fun p => finalAnalyticsDf isoTime p.1 p.2)).rows :=
  daily_effectivelyOnce (by decide) isoTime fridgeAt twiceMerged (by decide +kernel)

end SmartHomeEnergy
