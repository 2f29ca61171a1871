import Mathlib.Data.List.Perm.Basic

/-!
# A query, its checkpoint and its sink

A query reads a source that only grows, and appends what it reads to a file sink. Two
things tell it where it is: the checkpoint, with the offset up to which the source was
read and the id of the next batch, and the log of the sink, with the id of the last batch
that was written. A batch whose id the log has reached is skipped, so that a batch that is
replayed is not written twice – and the checkpoint moves on all the same.

That the rows of the sink are those of the source therefore depends on the two being in
step: `Streaming.Query.perm_availableNow_iff` says what becomes of a sink that holds the
first `n` messages when the query is run.
-/

namespace Streaming

/-- What the checkpoint directory of a query says. -/
structure Checkpoint where
  /-- Up to where the source was read. -/
  offset : ℕ
  nextBatchId : ℕ
  deriving DecidableEq

/-- The durable state of a query: its checkpoint, if there is one, and its sink. -/
structure Query (ρ : Type*) where
  checkpoint : Option Checkpoint
  /-- The rows that can be read from the sink. -/
  rows : List ρ
  /-- The last id in the log of the sink. -/
  latestBatchId : Option ℕ
  deriving DecidableEq

namespace Query

variable {μ ρ : Type*}

/-- Before the first run. -/
def start : Query ρ := ⟨none, [], none⟩

/-- Where the query reads on; without a checkpoint, from the earliest message. -/
def startOffset (q : Query ρ) : ℕ := q.checkpoint.elim 0 (·.offset)

/-- The id of the next batch; without a checkpoint, zero. -/
def batchId (q : Query ρ) : ℕ := q.checkpoint.elim 0 (·.nextBatchId)

/-- The sink does not skip the next batch. -/
def Accepts (q : Query ρ) : Prop := ∀ latest ∈ q.latestBatchId, latest < q.batchId

/-- The checkpoint is at the end of the source: there is no batch to run. -/
def AtEnd (source : List μ) (q : Query ρ) : Prop :=
  q.checkpoint.map (·.offset) = some source.length

instance (q : Query ρ) : Decidable q.Accepts := by
  unfold Accepts
  infer_instance

instance (source : List μ) (q : Query ρ) : Decidable (q.AtEnd source) :=
  inferInstanceAs (Decidable (_ = _))

/-- **A run that stops when the source is read**: what is there makes one batch. -/
def availableNow (f : μ → ρ) (source : List μ) (q : Query ρ) : Query ρ :=
  if q.AtEnd source then q
  else
    { checkpoint := some ⟨source.length, q.batchId + 1⟩
      rows := if q.Accepts then q.rows ++ (source.drop q.startOffset).map f else q.rows
      latestBatchId := if q.Accepts then some q.batchId else q.latestBatchId }

variable {f : μ → ρ} {source : List μ} {q : Query ρ}

theorem startOffset_of_atEnd (h : q.AtEnd source) : q.startOffset = source.length := by
  obtain ⟨c, hc, hoffset⟩ := Option.map_eq_some_iff.mp h
  rw [startOffset, hc]
  exact hoffset

theorem atEnd_iff (hc : q.checkpoint ≠ none) : q.AtEnd source ↔ q.startOffset = source.length := by
  obtain ⟨c, hc⟩ := Option.ne_none_iff_exists'.mp hc
  simp [AtEnd, startOffset, hc]

/-- After a run the source is read. -/
theorem atEnd_availableNow (f : μ → ρ) (source : List μ) (q : Query ρ) :
    (availableNow f source q).AtEnd source := by
  unfold availableNow
  split
  next h => exact h
  next => rfl

/-- After a run the log of the sink is not empty, unless there was a checkpoint and it
was. -/
theorem latestBatchId_availableNow (h : q.latestBatchId = none → q.checkpoint = none) :
    (availableNow f source q).latestBatchId ≠ none := by
  unfold availableNow
  split
  next hend =>
    intro hnone
    simp [AtEnd, h hnone] at hend
  next =>
    cases hlatest : q.latestBatchId with
    | none => simp [Accepts, hlatest]
    | some latest => split <;> simp

/-- **What a run makes of a sink with the first `n` messages**: when it writes, it has to
write from there; when it does not, they have to be all. -/
theorem perm_availableNow_iff {n : ℕ} (hn : n ≤ source.length)
    (hstart : q.startOffset ≤ source.length) (hrows : q.rows.Perm ((source.take n).map f)) :
    (availableNow f source q).rows.Perm (source.map f) ↔
      if ¬q.AtEnd source ∧ q.Accepts then q.startOffset = n else n = source.length := by
  have hlength : q.rows.length = n := by simpa [hn] using hrows.length_eq
  have hsplit : ∀ m, (source.take m).map f ++ (source.drop m).map f = source.map f := fun m => by
    rw [← List.map_append, List.take_append_drop]
  -- what is stored is too short, or the whole source
  have hstay : q.rows.Perm (source.map f) ↔ n = source.length := by
    constructor
    · intro h
      simpa [hlength] using h.length_eq
    · rintro rfl
      simpa using hrows
  by_cases hend : q.AtEnd source
  · simp [availableNow, hend, hstay]
  · by_cases hacc : q.Accepts
    · simp only [availableNow, hend, hacc, if_true, if_false, not_false_eq_true, and_self]
      constructor
      · intro h
        have hlen := h.length_eq
        simp only [List.length_append, List.length_map, List.length_drop, hlength] at hlen
        omega
      · intro he
        have hperm := hrows.append_right ((source.drop n).map f)
        rwa [hsplit, ← he] at hperm
    · simp [availableNow, hend, hacc, hstay]

end Query

end Streaming
