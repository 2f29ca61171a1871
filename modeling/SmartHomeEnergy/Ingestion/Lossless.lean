import SmartHomeEnergy.Warehouse.EndToEnd

/-!
# From the panel to the silver files, nothing lost

The bronze notebook deletes the checkpoint of its query and leaves the log of the sink, and the
messages of the batches whose ids the log has already are lost. But that is the only way to lose
one: a cleanup before the first batch is in the log starts over with nothing, and one that fails
deletes nothing. So as long as no cleanup comes under a log that has been written
(`SmartHomeEnergy.CleansUpFirst`), the bronze query is a query like the others, which the file
sink lets recover from every stop (`SmartHomeEnergy.KeepsUp`).

Together with what the simulator promises, this closes the chain. **Once the bronze and the
silver notebook have run to their end, the silver rows that differ in time or device are exactly
the clean ones among the readings the simulator has computed**
(`SmartHomeEnergy.silver_endToEnd`), although a message may be sent, and come to the topic, more
than once, and however often the notebooks were stopped before.
-/

namespace SmartHomeEnergy

open Relational Streaming Transition

/-! ### The bronze query, when its log is empty at every cleanup -/

section Bronze

variable {D : Type} [DecidableEq D] {constraints : List (List Column)} {time : SparkTime D}
  {fromJson : String → Reading String} {s : Medallion D}

/-- A cleanup deletes nothing, or comes before anything was written. -/
def CleansUpFirst (s : Medallion D) : MedallionEvent D → Prop
  | .cleanup rmtreeFails => rmtreeFails = true ∨ s.bronze.sink.latestBatchId = none
  | _ => True

instance CleansUpFirst.decidable (s : Medallion D) :
    ∀ e : MedallionEvent D, Decidable (CleansUpFirst s e)
  | .cleanup rmtreeFails =>
    inferInstanceAs (Decidable (rmtreeFails = true ∨ s.bronze.sink.latestBatchId = none))
  | .produce _ | .bronze _ | .silver _ | .daily _ => isTrue trivial

/-- **The bronze query keeps up**: the batches it has committed are the topic, up to its
checkpoint, and the files hold them. -/
def KeepsUp (fromJson : String → Reading String) (s : Medallion D) : Prop :=
  ∃ bs, s.bronze.Committed (FileSink.Holds (List.map fromJson))
    (fun bs b f => FileSink.Holds (List.map fromJson) bs f ∨
      FileSink.Holds (List.map fromJson) (bs ++ [b]) f) s.energyEvents bs

omit [DecidableEq D] in
theorem keepsUp_start (fromJson : String → Reading String) :
    KeepsUp fromJson (Medallion.start : Medallion D) :=
  ⟨[], Execution.committed_start FileSink.holds_start⟩

/-- **A step keeps it up**, when it is no cleanup under a written log. -/
theorem KeepsUp.step (h : KeepsUp fromJson s) {e : MedallionEvent D} (he : CleansUpFirst s e) :
    KeepsUp fromJson (medallionStep constraints time fromJson s e) := by
  obtain ⟨bs, hbronze⟩ := h
  cases e with
  | produce messages => exact ⟨bs, hbronze.append messages⟩
  | cleanup rmtreeFails =>
    cases rmtreeFails with
    | true => exact ⟨bs, hbronze⟩
    | false => exact ⟨[], FileSink.committed_forget hbronze (he.resolve_left nofun)⟩
  | bronze e =>
    obtain ⟨bs', -, hbronze'⟩ :=
      hbronze.next (FileSink.recovers (List.map fromJson)) (e := e) (by cases e <;> trivial)
    exact ⟨bs', hbronze'⟩
  | silver e => exact ⟨bs, hbronze⟩
  | daily e => exact ⟨bs, hbronze⟩

/-- **After a bronze run that nothing stops** the bronze rows are the topic. -/
theorem KeepsUp.caughtUp (h : KeepsUp fromJson s) :
    (exec (medallionStep constraints time fromJson) s
      ((Execution.completeRun none).map .bronze)).bronze.sink.rows =
        s.energyEvents.map fromJson := by
  obtain ⟨bs, hcommitted⟩ := h
  obtain ⟨bs', -, hcut, hheld⟩ := hcommitted.caughtUp (FileSink.recovers (List.map fromJson))
    trivial (quiet_addBatch (List.map fromJson))
  have hrows := hheld.rows rfl fun _ _ => List.map_append
  rw [hcut] at hrows
  rw [exec_bronze]
  exact hrows

/-- A run of the bronze query and one of the silver query, which nothing stops. -/
def bronzeThenSilver : List (MedallionEvent D) :=
  (Execution.completeRun none).map .bronze ++ (Execution.completeRun none).map .silver

/-- **After both** the silver rows are the clean messages of the topic, in order. -/
theorem silver_bronzeThenSilver (constraints : List (List Column)) (time : SparkTime D)
    (fromJson : String → Reading String) {es : List (MedallionEvent D)}
    (hes : StepsMeet (medallionStep constraints time fromJson) CleansUpFirst Medallion.start es) :
    let s := exec (medallionStep constraints time fromJson) Medallion.start es
    (exec (medallionStep constraints time fromJson) s bronzeThenSilver).silver.sink.rows =
      silverRows (s.energyEvents.map fromJson) := by
  intro s
  have hkeeps : KeepsUp fromJson s :=
    hes.invariant (KeepsUp fromJson) (fun _ _ h he => h.step he) (keepsUp_start fromJson)
  have hlayered : Layered fromJson (exec (medallionStep constraints time fromJson) s
      ((Execution.completeRun none).map .bronze)) := by
    rw [← exec_append]
    exact layered_exec constraints time fromJson _
  rw [bronzeThenSilver, exec_append, hlayered.silver_caughtUp, hkeeps.caughtUp]

end Bronze

/-! ### From the simulator on -/

section EndToEnd

variable {D : Type} [DecidableEq D] {constraints : List (List Column)} {time : SparkTime D}
  {fromJson : String → Reading String} {toJson : Payload → String} {t : DevicesStatus}
  {es : List Event} {s : House} {notebooks : List (MedallionEvent D)}

/-- The time and the device of a row. -/
def readingKey (r : Reading String) : Option String × Option String := (r.timestamp, r.deviceId)

/-- The readings that were computed differ in time or device. -/
theorem nodup_readingKey {payloads : List Payload} (h : (payloads.map payloadKey).Nodup) :
    ((silverRows (payloads.map Payload.toReading)).map readingKey).Nodup := by
  have hkey : (payloads.map Payload.toReading).map readingKey =
      (payloads.map payloadKey).map fun k => (some k.1, some k.2) := by
    rw [List.map_map, List.map_map]
    rfl
  refine List.Nodup.sublist (List.filter_sublist.map readingKey) ?_
  rw [hkey]
  exact h.map fun k k' hkk => by simpa [Prod.ext_iff] using hkk

/-- The topic has every message that was sent, and no other; each may be there more than once. -/
def PublishesAll (toJson : Payload → String) (es : List Event) (topic : List String) : Prop :=
  ∀ m, m ∈ topic ↔ ∃ p ∈ sentIn es, toJson p = m

/-- **From the panel to the silver files, nothing lost and nothing added**: in every run of the
simulator beside the panel whose iterations write different timestamps, and every run of the
notebooks on a topic with all that was sent, when the bronze and the silver query have run to
their end, the silver rows that differ in time or device are the clean ones among the readings
that were computed, each once. -/
theorem silver_endToEnd (constraints : List (List Column)) (time : SparkTime D)
    (fromJson : String → Reading String) (toJson : Payload → String)
    (hrun : Run Step (House.new t) es s) (hstamps : (stampsIn es).Nodup)
    (hjson : ∀ p ∈ sentIn es, fromJson (toJson p) = p.toReading)
    (hclean : StepsMeet (medallionStep constraints time fromJson) CleansUpFirst Medallion.start
      notebooks)
    (hpublishes : PublishesAll toJson es (exec (medallionStep constraints time fromJson)
      Medallion.start notebooks).energyEvents) :
    (dropDuplicates readingKey [] (exec (medallionStep constraints time fromJson) Medallion.start
      (notebooks ++ bronzeThenSilver)).silver.sink.rows).Perm
        (silverRows ((computedIn es).map Payload.toReading)) := by
  have hproduces := produces_run hrun hstamps
  rw [exec_append, silver_bronzeThenSilver constraints time fromJson hclean]
  refine perm_dropDuplicates_of_nodup (nodup_readingKey hproduces.distinct) fun r => ?_
  -- the messages are those of the readings, once or more
  have hmem : r ∈ (exec (medallionStep constraints time fromJson) Medallion.start
      notebooks).energyEvents.map fromJson ↔ r ∈ (computedIn es).map Payload.toReading := by
    simp only [List.mem_map, hpublishes _]
    constructor
    · rintro ⟨_, ⟨p, hp, rfl⟩, rfl⟩
      exact ⟨p, (hproduces.copies p).mp hp, (hjson p hp).symm⟩
    · rintro ⟨p, hp, rfl⟩
      have hsent := (hproduces.copies p).mpr hp
      exact ⟨toJson p, ⟨p, hsent, rfl⟩, hjson p hsent⟩
  simp only [silverRows, List.mem_filter, hmem]

end EndToEnd

/-- The first run of the bronze notebook, which is stopped when its batch is in the log. -/
def stoppedBronze : List (MedallionEvent String) :=
  [.produce [noonMessage, noonMessage], .cleanup false, .bronze .plan,
    .bronze (.write (some .afterLog)), .bronze .stop]

/-- The reading was sent twice, and its batch is written by one run and committed by the next; it
is in the silver rows once when duplicates are dropped. -/
theorem silver_endToEnd_fridge :
    let m := exec (medallionStep [analyticsTarget] isoTime fun _ => noonPayload.toReading)
      Medallion.start (stoppedBronze ++ bronzeThenSilver)
    (dropDuplicates readingKey [] m.silver.sink.rows).Perm
      (silverRows ((computedIn oneIteration).map Payload.toReading)) := by
  have hsent : ∀ p, p ∈ sentIn oneIteration ↔ p = noonPayload := mem_sentIn_oneIteration
  refine silver_endToEnd [analyticsTarget] isoTime (fun _ => noonPayload.toReading)
    (fun _ => noonMessage) run_oneIteration (by decide) (fun p hp => by rw [(hsent p).mp hp])
    (by decide +kernel) fun m => ?_
  have htopic : (exec (medallionStep [analyticsTarget] isoTime fun _ => noonPayload.toReading)
      Medallion.start stoppedBronze).energyEvents = [noonMessage, noonMessage] := rfl
  rw [htopic]
  simp [hsent, eq_comm]

end SmartHomeEnergy
