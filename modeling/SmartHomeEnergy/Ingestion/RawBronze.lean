import SmartHomeEnergy.Reading
import SmartHomeEnergy.Streaming.Checkpoint
import SmartHomeEnergy.Transition.Run

/-!
# The ingestion into the bronze layer

`raw_bronze_parquet.ipynb` appends the messages of the topic `energy_events` to the parquet
files of the bronze layer, one row for each message. At the start of every run it deletes
the checkpoint of its query – and not the log of the sink. So the query starts over with
batch zero, which the sink has already written: after the first run, a run that could
delete the checkpoint stores nothing.

`SmartHomeEnergy.exactlyOnce_iff` says when a history of appends and runs is exactly once:
when every run either has a batch id that the sink accepts or finds no new message.
-/

namespace SmartHomeEnergy

open Streaming Transition

/-! ### The notebook -/

/-- The topic, and what the notebook keeps on disk. -/
structure Bronze where
  energyEvents : List String
  query : Query (Reading String)
  deriving DecidableEq

/-- An empty topic, before the first run. -/
def Bronze.start : Bronze := ⟨[], Query.start⟩

/-- The cleanup at the start of a run: the checkpoint is deleted, or the exception of
`rmtree` is printed. -/
def cleanCheckpoint (rmtreeFails : Bool) (q : Query (Reading String)) : Query (Reading String) :=
  if rmtreeFails then q else { q with checkpoint := none }

/-- What happens to the topic and the bronze layer. -/
inductive BronzeEvent
  /-- Messages arrive. -/
  | append (messages : List String)
  /-- The notebook is run. -/
  | run (rmtreeFails : Bool)

section Ingestion

variable (fromJson : String → Reading String)

/-- A run of the notebook: the cleanup, and the query until all messages are read. -/
def rawBronzeParquet (rmtreeFails : Bool) (s : Bronze) : Bronze :=
  { s with query := (cleanCheckpoint rmtreeFails s.query).availableNow fromJson s.energyEvents }

/-- One event. -/
def ingest (s : Bronze) : BronzeEvent → Bronze
  | .append messages => { s with energyEvents := s.energyEvents ++ messages }
  | .run rmtreeFails => rawBronzeParquet fromJson rmtreeFails s

/-- After a run, the rows are the parsed messages of the topic, each once. -/
def StoresAll (s : Bronze) : BronzeEvent → Prop
  | .append _ => True
  | .run rmtreeFails =>
    (rawBronzeParquet fromJson rmtreeFails s).query.rows.Perm (s.energyEvents.map fromJson)

/-- **Exactly once**: after every run of a history. -/
def ExactlyOnce (es : List BronzeEvent) : Prop :=
  ∀ pre rmtreeFails post, es = pre ++ .run rmtreeFails :: post →
    (exec (ingest fromJson) Bronze.start (pre ++ [.run rmtreeFails])).query.rows.Perm
      ((exec (ingest fromJson) Bronze.start pre).energyEvents.map fromJson)

end Ingestion

/-- The sink does not skip the batch of a run, or there is no new message for it. -/
def InStep (s : Bronze) : BronzeEvent → Prop
  | .append _ => True
  | .run rmtreeFails =>
    (cleanCheckpoint rmtreeFails s.query).Accepts ∨ s.query.AtEnd s.energyEvents

/-! ### When nothing is lost -/

section Histories

variable {fromJson : String → Reading String} {s : Bronze}

/-- The rows are the messages up to the checkpoint; and before the first run there is
neither a checkpoint nor a log. -/
structure UpToCheckpoint (fromJson : String → Reading String) (s : Bronze) : Prop where
  read : s.query.startOffset ≤ s.energyEvents.length
  stored : s.query.rows.Perm ((s.energyEvents.take s.query.startOffset).map fromJson)
  log : s.query.latestBatchId = none ↔ s.query.checkpoint = none

theorem upToCheckpoint_start : UpToCheckpoint fromJson Bronze.start :=
  ⟨Nat.zero_le _, List.Perm.refl _, iff_of_true rfl rfl⟩

/-- Messages that arrive are behind the checkpoint. -/
theorem UpToCheckpoint.append (h : UpToCheckpoint fromJson s) (messages : List String) :
    UpToCheckpoint fromJson (ingest fromJson s (.append messages)) := by
  refine ⟨?_, ?_, h.log⟩
  · exact Nat.le_trans h.read (by simp [ingest])
  · show s.query.rows.Perm (((s.energyEvents ++ messages).take s.query.startOffset).map fromJson)
    rw [List.take_append_of_le_length h.read]
    exact h.stored

/-- A run that stores everything ends with the checkpoint at the end of the topic. -/
theorem UpToCheckpoint.run (h : UpToCheckpoint fromJson s) {rmtreeFails : Bool}
    (hall : StoresAll fromJson s (.run rmtreeFails)) :
    UpToCheckpoint fromJson (ingest fromJson s (.run rmtreeFails)) := by
  have hend := Query.atEnd_availableNow fromJson s.energyEvents
    (cleanCheckpoint rmtreeFails s.query)
  have hstart : (ingest fromJson s (.run rmtreeFails)).query.startOffset =
      s.energyEvents.length := Query.startOffset_of_atEnd hend
  refine ⟨Nat.le_of_eq hstart, ?_, iff_of_false ?_ fun hnone => ?_⟩
  · rw [hstart]
    show ((cleanCheckpoint rmtreeFails s.query).availableNow fromJson s.energyEvents).rows.Perm
      ((s.energyEvents.take s.energyEvents.length).map fromJson)
    rw [List.take_length]
    exact hall
  · refine Query.latestBatchId_availableNow fun hnone => ?_
    cases rmtreeFails
    · rfl
    · exact h.log.mp hnone
  · exact absurd (congrArg (Option.map Checkpoint.offset) hnone |>.symm.trans hend) (by simp)

/-- **Which runs store everything**: those in step. -/
theorem UpToCheckpoint.storesAll_iff (h : UpToCheckpoint fromJson s) (e : BronzeEvent) :
    StoresAll fromJson s e ↔ InStep s e := by
  cases e with
  | append messages => exact Iff.rfl
  | run rmtreeFails =>
    cases rmtreeFails with
    | true =>
      -- the checkpoint is kept: the batch goes on from there
      have hiff := Query.perm_availableNow_iff (f := fromJson) h.read h.read h.stored
      refine hiff.trans ?_
      show _ ↔ s.query.Accepts ∨ s.query.AtEnd s.energyEvents
      by_cases hend : s.query.AtEnd s.energyEvents
      · simp [hend, Query.startOffset_of_atEnd hend]
      · by_cases hacc : s.query.Accepts
        · simp [hend, hacc]
        · have hc : s.query.checkpoint ≠ none := fun hnone => by
            simp [Query.Accepts, h.log.mpr hnone] at hacc
          simp [hend, hacc, ← Query.atEnd_iff hc]
    | false =>
      -- the checkpoint is deleted: only an empty log accepts batch zero
      have hiff := Query.perm_availableNow_iff (q := cleanCheckpoint false s.query)
        (f := fromJson) h.read (Nat.zero_le _) h.stored
      refine hiff.trans ?_
      show _ ↔ (cleanCheckpoint false s.query).Accepts ∨ s.query.AtEnd s.energyEvents
      cases hlatest : s.query.latestBatchId with
      | none =>
        have hc := h.log.mp hlatest
        simp [cleanCheckpoint, Query.Accepts, Query.AtEnd, Query.startOffset, hlatest, hc]
      | some latest =>
        have hc : s.query.checkpoint ≠ none := fun hnone => by
          simp [h.log.mpr hnone] at hlatest
        simp [cleanCheckpoint, Query.Accepts, Query.batchId, hlatest, ← Query.atEnd_iff hc]

/-- **When a history is exactly once**: when every run is in step. -/
theorem exactlyOnce_iff (fromJson : String → Reading String) (es : List BronzeEvent) :
    ExactlyOnce fromJson es ↔ StepsMeet (ingest fromJson) InStep Bronze.start es := by
  have hsteps : ExactlyOnce fromJson es ↔
      StepsMeet (ingest fromJson) (StoresAll fromJson) Bronze.start es := by
    rw [stepsMeet_iff_forall]
    constructor
    · intro h pre e post he
      cases e with
      | append messages => trivial
      | run rmtreeFails => simpa [ingest, StoresAll] using h pre rmtreeFails post he
    · intro h pre rmtreeFails post he
      simpa [ingest, StoresAll] using h pre (.run rmtreeFails) post he
  rw [hsteps]
  refine stepsMeet_congr (UpToCheckpoint fromJson) (fun s e hs => hs.storesAll_iff e) ?_
    upToCheckpoint_start
  intro s e hs he
  cases e with
  | append messages => exact hs.append messages
  | run rmtreeFails => exact hs.run he

end Histories

/-- A parser for messages that are a status and nothing else. -/
def statusOnly (message : String) : Reading String :=
  ⟨none, none, none, none, none, none, none, none, some message⟩

/-- The second run deletes the checkpoint, and the message that arrived in between is
lost. -/
theorem not_exactlyOnce :
    ¬ExactlyOnce statusOnly [.append ["ON"], .run false, .append ["OFF"], .run false] := by
  intro h
  have hsecond := (h [.append ["ON"], .run false, .append ["OFF"]] false [] rfl).length_eq
  exact absurd hsecond (by decide)

end SmartHomeEnergy
