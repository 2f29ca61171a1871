import SmartHomeEnergy.Streaming.Checkpoint
import SmartHomeEnergy.Transition.Attempt
import SmartHomeEnergy.Transition.Run

/-!
# Queries that may stop at any moment

A query goes through its source in micro-batches, and every batch takes three steps: it is
*planned* – the offset up to which it reads is noted –, it is *written* to the sink, and it
is *committed*, which moves the checkpoint. The process may stop between any two of them,
and while the sink is being written; what was planned and not committed is written again by
the next run, with the same id and the same offsets (`Streaming.Execution.step`).

What a sink has to do to survive this is `Streaming.Recovers`: it says in which states the
sink may be when it holds a list of batches, and in which ones when it may or may not hold
one more. From it `Streaming.Recovers.exec` concludes that whatever happened, the batches
the sink holds are, cut somehow, the source up to the checkpoint.

Two facts on a file sink with a log of its batch ids are proved here: it recovers
(`Streaming.FileSink.recovers`), and even when the checkpoint is deleted in between and the
ids start over it stores nothing twice (`Streaming.FileSink.AtMostOnce`).
-/

namespace Streaming

open Transition

variable {μ ρ σ φ : Type*}

/-! ### The steps of a query -/

/-- A query: its checkpoint, the end of the batch that is planned and not committed, whether
the process that is running has written that batch, and the sink. -/
structure Execution (σ : Type*) where
  checkpoint : Option Checkpoint
  planned : Option ℕ
  written : Bool
  sink : σ

/-- What a query does next; a write meets a fault, or does not. -/
inductive ExecutionEvent (φ : Type*)
  | plan
  | write (fault : φ)
  | commit
  /-- The process stops, and what it had in memory is gone. -/
  | stop

/-- The messages from one offset up to another. -/
def between (source : List μ) (m n : ℕ) : List μ := (source.take n).drop m

theorem take_append_between (source : List μ) {m n : ℕ} (h : m ≤ n) :
    source.take m ++ between source m n = source.take n := by
  have htake : (source.take n).take m = source.take m := by rw [List.take_take, Nat.min_eq_left h]
  rw [between, ← htake, List.take_append_drop]

/-- Messages that arrive later are not between two offsets. -/
theorem between_append (source more : List μ) (m : ℕ) {n : ℕ} (h : n ≤ source.length) :
    between (source ++ more) m n = between source m n := by
  rw [between, between, List.take_append_of_le_length h]

namespace Execution

/-- Before the first run. -/
def start (s : σ) : Execution σ := ⟨none, none, false, s⟩

/-- Up to where the source is committed. -/
def startOffset (x : Execution σ) : ℕ := x.checkpoint.elim 0 (·.offset)

/-- The id of the batch that is planned, or of the next one. -/
def batchId (x : Execution σ) : ℕ := x.checkpoint.elim 0 (·.nextBatchId)

/-- The batch that is planned. -/
def batch (source : List μ) (x : Execution σ) (stop : ℕ) : List μ :=
  between source x.startOffset stop

/-- **One step.** A batch takes all that is there when it is planned; the write of a batch
that raises ends the process. -/
def step (addBatch : φ → ℕ → List μ → σ → Attempt σ) (source : List μ) (x : Execution σ) :
    ExecutionEvent φ → Execution σ
  | .plan =>
    if x.planned = none ∧ x.checkpoint.map (·.offset) ≠ some source.length then
      { x with planned := some source.length }
    else x
  | .write fault =>
    match x.planned with
    | none => x
    | some stop =>
      if x.written then x
      else
        let a := addBatch fault x.batchId (x.batch source stop) x.sink
        { x with written := !a.raised, sink := a.state }
  | .commit =>
    match x.planned with
    | none => x
    | some stop =>
      if x.written then ⟨some ⟨stop, x.batchId + 1⟩, none, false, x.sink⟩ else x
  | .stop => { x with written := false }

/-- **What a step does to the sink**: nothing, or a batch of the source is written to it. -/
theorem sink_step (addBatch : φ → ℕ → List μ → σ → Attempt σ) (source : List μ) (x : Execution σ)
    (e : ExecutionEvent φ) :
    (x.step addBatch source e).sink = x.sink ∨ ∃ fault n b, e = .write fault ∧ b ⊆ source ∧
      (x.step addBatch source e).sink = (addBatch fault n b x.sink).state := by
  cases e with
  | plan =>
    left
    rw [step]
    split <;> rfl
  | write fault =>
    rw [step]
    split
    next => exact Or.inl rfl
    next stop _ =>
      split
      next => exact Or.inl rfl
      next =>
        refine Or.inr ⟨fault, x.batchId, x.batch source stop, rfl, fun r hr => ?_, rfl⟩
        exact List.mem_of_mem_take (List.mem_of_mem_drop hr)
  | commit =>
    left
    rw [step]
    split
    next => rfl
    next => split <;> rfl
  | stop => exact Or.inl rfl

/-- A run that nothing stops, on what it finds: the batch a stopped run has left behind, and
one with what arrived since. -/
def completeRun (fault : φ) : List (ExecutionEvent φ) :=
  [.stop, .write fault, .commit, .plan, .write fault, .commit]

end Execution

/-! ### Sinks that recover -/

/-- **A sink that recovers**, from the faults that are allowed: `Holds bs s` when the sink
`s` holds the batches `bs`, and `Within bs b s` when it may hold the batch `b` as well, or a
part of it. -/
structure Recovers (allowed : φ → Prop) (addBatch : φ → ℕ → List μ → σ → Attempt σ)
    (Holds : List (List μ) → σ → Prop) (Within : List (List μ) → List μ → σ → Prop) : Prop where
  /-- The write has not begun. -/
  before : ∀ {bs b s}, Holds bs s → Within bs b s
  /-- The write is over, and the commit is not. -/
  after : ∀ {bs b s}, Holds (bs ++ [b]) s → Within bs b s
  raised : ∀ {fault bs b s}, allowed fault → Within bs b s →
    (addBatch fault bs.length b s).raised = true →
      Within bs b (addBatch fault bs.length b s).state
  returned : ∀ {fault bs b s}, allowed fault → Within bs b s →
    (addBatch fault bs.length b s).raised = false →
      Holds (bs ++ [b]) (addBatch fault bs.length b s).state

/-- The write of an event meets a fault that is allowed. -/
def ExecutionEvent.Allows (allowed : φ → Prop) : ExecutionEvent φ → Prop
  | .write fault => allowed fault
  | _ => True

namespace Execution

variable {addBatch : φ → ℕ → List μ → σ → Attempt σ} {Holds : List (List μ) → σ → Prop}
  {Within : List (List μ) → List μ → σ → Prop} {allowed : φ → Prop} {source : List μ}
  {x : Execution σ}

/-- Where a query stands that has committed the batches `bs`: nothing is planned, or the
batch after them is. -/
def Stands (Holds : List (List μ) → σ → Prop) (Within : List (List μ) → List μ → σ → Prop)
    (source : List μ) (bs : List (List μ)) (x : Execution σ) : Prop :=
  match x.planned with
  | none => Holds bs x.sink ∧ x.written = false
  | some stop =>
    x.startOffset ≤ stop ∧ stop ≤ source.length ∧ Within bs (x.batch source stop) x.sink ∧
      (x.written = true → Holds (bs ++ [x.batch source stop]) x.sink)

/-- **The invariant**: the committed batches are the source up to the checkpoint. -/
structure Committed (Holds : List (List μ) → σ → Prop)
    (Within : List (List μ) → List μ → σ → Prop) (source : List μ) (bs : List (List μ))
    (x : Execution σ) : Prop where
  read : x.startOffset ≤ source.length
  cut : bs.flatten = source.take x.startOffset
  count : bs.length = x.batchId
  stands : x.Stands Holds Within source bs

theorem committed_start {s : σ} (h : Holds [] s) : Committed Holds Within source [] (start s) :=
  ⟨Nat.zero_le _, (List.take_zero ..).symm, rfl, h, rfl⟩

/-- With nothing planned, the sink holds the batches. -/
theorem Committed.holds {bs : List (List μ)} (h : Committed Holds Within source bs x)
    (hplanned : x.planned = none) : Holds bs x.sink ∧ x.written = false := by
  have hstands := h.stands
  rwa [Stands, hplanned] at hstands

/-- **At any moment** the sink holds batches that are the source up to some offset, from the
checkpoint on – as long as it holds the batch under way wholly or not at all. -/
theorem Committed.exists_held (hwithin : ∀ bs b s, Within bs b s → Holds bs s ∨ Holds (bs ++ [b]) s)
    {bs : List (List μ)} (h : Committed Holds Within source bs x) :
    ∃ bs' n, x.startOffset ≤ n ∧ n ≤ source.length ∧ bs'.flatten = source.take n ∧
      Holds bs' x.sink := by
  have hstands := h.stands
  rw [Stands] at hstands
  split at hstands
  next => exact ⟨bs, x.startOffset, Nat.le_refl _, h.read, h.cut, hstands.1⟩
  next stop _ =>
    obtain ⟨hstart, hstop, hw, -⟩ := hstands
    rcases hwithin _ _ _ hw with hheld | hheld
    · exact ⟨bs, x.startOffset, Nat.le_refl _, h.read, h.cut, hheld⟩
    · refine ⟨_, stop, hstart, hstop, ?_, hheld⟩
      rw [List.flatten_append, h.cut, List.flatten_singleton]
      exact take_append_between source hstart

/-- Messages that arrive are behind everything. -/
theorem Committed.append {bs : List (List μ)} (h : Committed Holds Within source bs x)
    (more : List μ) : Committed Holds Within (source ++ more) bs x := by
  have hle : source.length ≤ (source ++ more).length := by simp
  refine ⟨Nat.le_trans h.read hle, ?_, h.count, ?_⟩
  · rw [List.take_append_of_le_length h.read]
    exact h.cut
  · have hstands := h.stands
    unfold Stands at hstands ⊢
    split
    next hplanned => simpa [hplanned] using hstands
    next stop hplanned =>
      simp only [hplanned] at hstands
      obtain ⟨hstart, hstop, hwithin, hwritten⟩ := hstands
      have hbatch : x.batch (source ++ more) stop = x.batch source stop :=
        between_append source more _ hstop
      rw [hbatch]
      exact ⟨hstart, Nat.le_trans hstop hle, hwithin, hwritten⟩

/-- **A step keeps the invariant**, with the batches it had and perhaps one more. -/
theorem Committed.next (hsink : Recovers allowed addBatch Holds Within) {bs : List (List μ)}
    (h : Committed Holds Within source bs x) {e : ExecutionEvent φ} (he : e.Allows allowed) :
    ∃ bs', bs <+: bs' ∧ Committed Holds Within source bs' (x.step addBatch source e) := by
  have hstands := h.stands
  rw [Stands] at hstands
  cases e with
  | plan =>
    refine ⟨bs, List.prefix_rfl, ?_⟩
    rw [Execution.step]
    split
    next hplan =>
      rw [hplan.1] at hstands
      refine ⟨h.read, h.cut, h.count, h.read, Nat.le_refl _, hsink.before hstands.1, fun hw => ?_⟩
      exact absurd (hw.symm.trans hstands.2) (by decide)
    next => exact h
  | write fault =>
    refine ⟨bs, List.prefix_rfl, ?_⟩
    rw [Execution.step]
    split
    next => exact h
    next stop hplanned =>
      rw [hplanned] at hstands
      obtain ⟨hstart, hstop, hwithin, -⟩ := hstands
      split
      next => exact h
      next hw =>
        rw [← h.count]
        have hraised := hsink.raised he hwithin
        have hreturned := hsink.returned he hwithin
        refine ⟨h.read, h.cut, h.count, ?_⟩
        simp only [Stands, hplanned]
        refine ⟨hstart, hstop, ?_, fun hdone => hreturned (by simpa using hdone)⟩
        cases hr : (addBatch fault bs.length (x.batch source stop) x.sink).raised with
        | true => exact hraised hr
        | false => exact hsink.after (hreturned hr)
  | commit =>
    rw [Execution.step]
    split
    next => exact ⟨bs, List.prefix_rfl, h⟩
    next stop hplanned =>
      rw [hplanned] at hstands
      obtain ⟨hstart, hstop, -, hwritten⟩ := hstands
      split
      next hw =>
        refine ⟨bs ++ [x.batch source stop], List.prefix_append .., hstop, ?_, ?_, hwritten hw, rfl⟩
        · rw [List.flatten_append, h.cut, List.flatten_singleton]
          exact take_append_between source hstart
        · rw [List.length_append, h.count]
          rfl
      next => exact ⟨bs, List.prefix_rfl, h⟩
  | stop =>
    refine ⟨bs, List.prefix_rfl, h.read, h.cut, h.count, ?_⟩
    rw [Stands]
    show match x.planned with
      | none => Holds bs x.sink ∧ false = false
      | some stop => x.startOffset ≤ stop ∧ stop ≤ source.length ∧
          Within bs (x.batch source stop) x.sink ∧
            (false = true → Holds (bs ++ [x.batch source stop]) x.sink)
    cases hplanned : x.planned with
    | none =>
      rw [hplanned] at hstands
      exact ⟨hstands.1, rfl⟩
    | some stop =>
      rw [hplanned] at hstands
      exact ⟨hstands.1, hstands.2.1, hstands.2.2.1, fun hf => absurd hf (by decide)⟩

/-! ### A run that nothing stops -/

/-- The invariant along a run on a source that does not change. -/
theorem Committed.run (hsink : Recovers allowed addBatch Holds Within) {bs : List (List μ)}
    (h : Committed Holds Within source bs x) {es : List (ExecutionEvent φ)}
    (hes : ∀ e ∈ es, e.Allows allowed) :
    ∃ bs', bs <+: bs' ∧
      Committed Holds Within source bs' (exec (step addBatch source) x es) := by
  induction es generalizing bs x with
  | nil => exact ⟨bs, List.prefix_rfl, h⟩
  | cons e es ih =>
    obtain ⟨bs₁, hpre₁, h₁⟩ := h.next hsink (hes e List.mem_cons_self)
    obtain ⟨bs₂, hpre₂, h₂⟩ := ih h₁ fun e' he' => hes e' (List.mem_cons_of_mem _ he')
    exact ⟨bs₂, hpre₁.trans hpre₂, h₂⟩

/-- A write that does not raise and its commit leave nothing planned. -/
theorem planned_write_commit {fault : φ}
    (hquiet : ∀ n b s, (addBatch fault n b s).raised = false) (x : Execution σ) :
    (exec (step addBatch source) x [.write fault, .commit]).planned = none := by
  cases hplanned : x.planned with
  | none => simp [step, hplanned]
  | some stop => cases hw : x.written <;> simp [step, hplanned, hw, hquiet]

/-- **With nothing planned**, a run takes all there is. -/
theorem startOffset_plan_write_commit {fault : φ}
    (hquiet : ∀ n b s, (addBatch fault n b s).raised = false) (hplanned : x.planned = none)
    (hw : x.written = false) :
    (exec (step addBatch source) x [.plan, .write fault, .commit]).startOffset =
      source.length := by
  by_cases hend : x.checkpoint.map (·.offset) = some source.length
  · obtain ⟨c, hc, hoffset⟩ := Option.map_eq_some_iff.mp hend
    simp [step, hplanned, startOffset, hc, hoffset]
  · simp [step, hplanned, hend, hw, hquiet, startOffset]

/-- **After a run that nothing stops** the sink holds the whole source, whatever had happened
before. -/
theorem Committed.caughtUp (hsink : Recovers allowed addBatch Holds Within)
    {bs : List (List μ)} (h : Committed Holds Within source bs x) {fault : φ}
    (hallowed : allowed fault) (hquiet : ∀ n b s, (addBatch fault n b s).raised = false) :
    ∃ bs', bs <+: bs' ∧ bs'.flatten = source ∧
      Holds bs' (exec (step addBatch source) x (completeRun fault)).sink := by
  have hfinish : ∀ e ∈ ([.stop, .write fault, .commit] : List (ExecutionEvent φ)),
      e.Allows allowed := by
    simp [ExecutionEvent.Allows, hallowed]
  have hrest : ∀ e ∈ ([.plan, .write fault, .commit] : List (ExecutionEvent φ)),
      e.Allows allowed := by
    simp [ExecutionEvent.Allows, hallowed]
  -- first the batch that was left behind, and then what is new
  obtain ⟨bs₁, hpre₁, h₁⟩ := h.run hsink hfinish
  have hplanned₁ : (exec (step addBatch source) x [.stop, .write fault, .commit]).planned = none :=
    planned_write_commit hquiet (x.step addBatch source .stop)
  have hsplit : exec (step addBatch source) x (completeRun fault) =
      exec (step addBatch source)
        (exec (step addBatch source) x [.stop, .write fault, .commit])
        [.plan, .write fault, .commit] := rfl
  rw [hsplit]
  generalize exec (step addBatch source) x [.stop, .write fault, .commit] = y at h₁ hplanned₁
  obtain ⟨bs₂, hpre₂, h₂⟩ := h₁.run hsink hrest
  have hplanned₂ : (exec (step addBatch source) y [.plan, .write fault, .commit]).planned = none :=
    planned_write_commit hquiet (y.step addBatch source .plan)
  have hend : (exec (step addBatch source) y [.plan, .write fault, .commit]).startOffset =
      source.length := startOffset_plan_write_commit hquiet hplanned₁ (h₁.holds hplanned₁).2
  refine ⟨bs₂, hpre₁.trans hpre₂, ?_, (h₂.holds hplanned₂).1⟩
  rw [h₂.cut, hend, List.take_length]

end Execution

/-! ### The file sink -/

/-- Files, and the log of the ids of the batches they were written in. -/
structure FileSink (ρ : Type*) where
  rows : List ρ
  latestBatchId : Option ℕ

/-- Where the write of a batch of files may stop: the files count once the log has the id. -/
inductive FileFault
  | beforeLog
  | afterLog

namespace FileSink

/-- Before the first run. -/
def start : FileSink ρ := ⟨[], none⟩

/-- The log has not reached the id. -/
def Accepts (s : FileSink ρ) (batchId : ℕ) : Prop := ∀ latest ∈ s.latestBatchId, latest < batchId

instance (s : FileSink ρ) (batchId : ℕ) : Decidable (s.Accepts batchId) := by
  unfold Accepts
  infer_instance

variable (f : List μ → List ρ)

/-- The write of a batch; one that the log has is skipped. -/
def addBatch (fault : Option FileFault) (batchId : ℕ) (b : List μ) (s : FileSink ρ) :
    Attempt (FileSink ρ) :=
  if s.Accepts batchId then
    match fault with
    | none => .done ⟨s.rows ++ f b, some batchId⟩
    | some .beforeLog => .raise s
    | some .afterLog => .raise ⟨s.rows ++ f b, some batchId⟩
  else .done s

/-- The rows of the batches, in order, and the id of the last one. -/
def Holds (bs : List (List μ)) (s : FileSink ρ) : Prop :=
  s.rows = bs.flatMap f ∧ ∀ n, s.Accepts n ↔ bs.length ≤ n

variable {f} {bs : List (List μ)} {b : List μ} {s : FileSink ρ}

theorem holds_start : Holds f [] (start : FileSink ρ) := ⟨rfl, fun _ => by simp [Accepts, start]⟩

theorem Holds.accepts (h : Holds f bs s) : s.Accepts bs.length := (h.2 _).mpr (Nat.le_refl _)

theorem not_accepts_of_holds (h : Holds f (bs ++ [b]) s) : ¬s.Accepts bs.length := fun hacc => by
  have hle := (h.2 _).mp hacc
  rw [List.length_append, List.length_singleton] at hle
  omega

/-- A batch that is written is held. -/
theorem Holds.write (h : Holds f bs s) (b : List μ) :
    Holds f (bs ++ [b]) ⟨s.rows ++ f b, some bs.length⟩ := by
  refine ⟨by simp [h.1], fun n => ?_⟩
  rw [List.length_append, List.length_singleton]
  exact ⟨fun hacc => hacc _ rfl, fun hle m hm => Option.some.inj hm ▸ hle⟩

/-- A batch that the log has is skipped. -/
theorem addBatch_of_not_accepts {n : ℕ} (h : ¬s.Accepts n) (fault : Option FileFault) :
    addBatch f fault n b s = .done s := if_neg h

/-- **A batch that the log does not have** is stored as a whole, or not at all. -/
theorem addBatch_cases {n : ℕ} (h : s.Accepts n) (fault : Option FileFault) :
    (addBatch f fault n b s).state = ⟨s.rows ++ f b, some n⟩ ∨
      (addBatch f fault n b s).state = s ∧ (addBatch f fault n b s).raised = true := by
  unfold addBatch
  rw [if_pos h]
  rcases fault with _ | _ | _
  · exact Or.inl rfl
  · exact Or.inr ⟨rfl, rfl⟩
  · exact Or.inl rfl

/-- **The file sink recovers**, from any fault: a batch it has is skipped. -/
theorem recovers (f : List μ → List ρ) : Recovers (fun _ => True) (addBatch f) (Holds f)
    fun bs b s => Holds f bs s ∨ Holds f (bs ++ [b]) s where
  before := Or.inl
  after := Or.inr
  raised := by
    rintro fault bs b s - (h | h) hr
    · rcases addBatch_cases (f := f) (b := b) h.accepts fault with hs | ⟨hs, -⟩
      · exact Or.inr (hs ▸ h.write b)
      · exact Or.inl (hs.symm ▸ h)
    · rw [addBatch_of_not_accepts (not_accepts_of_holds h)]
      exact Or.inr h
  returned := by
    rintro fault bs b s - (h | h) hr
    · rcases addBatch_cases (f := f) (b := b) h.accepts fault with hs | ⟨-, hraised⟩
      · exact hs ▸ h.write b
      · rw [hraised] at hr
        exact absurd hr (by decide)
    · rw [addBatch_of_not_accepts (not_accepts_of_holds h)]
      exact h

/-- Nothing is taken from a file sink. -/
theorem prefix_addBatch (f : List μ → List ρ) (fault : Option FileFault) (n : ℕ) (b : List μ)
    (s : FileSink ρ) : s.rows <+: (addBatch f fault n b s).state.rows := by
  by_cases h : s.Accepts n
  · rcases addBatch_cases (f := f) (b := b) h fault with hs | ⟨hs, -⟩
    · simp [hs]
    · simp [hs]
  · rw [addBatch_of_not_accepts h]
    exact List.prefix_rfl

theorem prefix_step (f : List μ → List ρ) (source : List μ) (x : Execution (FileSink ρ))
    (e : ExecutionEvent (Option FileFault)) :
    x.sink.rows <+: (x.step (addBatch f) source e).sink.rows := by
  cases e with
  | plan =>
    rw [Execution.step]
    split <;> exact List.prefix_rfl
  | write fault =>
    rw [Execution.step]
    split
    next => exact List.prefix_rfl
    next =>
      split
      next => exact List.prefix_rfl
      next => exact prefix_addBatch ..
  | commit =>
    rw [Execution.step]
    split
    next => exact List.prefix_rfl
    next => split <;> exact List.prefix_rfl
  | stop => exact List.prefix_rfl

/-- **The rows of a sink that holds batches**, when batches may be written as one. -/
theorem Holds.rows (h : Holds f bs s) (hnil : f [] = []) (hf : ∀ a b, f (a ++ b) = f a ++ f b) :
    s.rows = f bs.flatten := by
  have hflat : ∀ bs : List (List μ), bs.flatMap f = f bs.flatten := by
    intro bs
    induction bs with
    | nil => exact hnil.symm
    | cons b bs ih => rw [List.flatMap_cons, List.flatten_cons, hf, ih]
  rw [h.1, hflat]

end FileSink

/-! ### A run as a whole -/

namespace Execution

/-- What is there between two runs. -/
def toQuery (x : Execution (FileSink ρ)) : Query ρ :=
  ⟨x.checkpoint, x.sink.rows, x.sink.latestBatchId⟩

/-- Nothing was left behind by a run that stopped. -/
def Idle (x : Execution σ) : Prop := x.planned = none ∧ x.written = false

/-- **A run that nothing stops** is a run at one stroke. -/
theorem toQuery_completeRun (g : μ → ρ) (source : List μ) {x : Execution (FileSink ρ)}
    (hx : x.Idle) :
    let y := exec (step (FileSink.addBatch (List.map g)) source) x (completeRun none)
    y.Idle ∧ y.toQuery = x.toQuery.availableNow g source := by
  obtain ⟨checkpoint, planned, written, sink⟩ := x
  obtain ⟨rfl, rfl⟩ : planned = none ∧ written = false := hx
  by_cases hend : checkpoint.map (·.offset) = some source.length
  · have hatEnd : Query.AtEnd source (⟨checkpoint, sink.rows, sink.latestBatchId⟩ : Query ρ) := hend
    simp [completeRun, step, hend, Idle, toQuery, Query.availableNow, hatEnd]
  · have hatEnd : ¬Query.AtEnd source (⟨checkpoint, sink.rows, sink.latestBatchId⟩ : Query ρ) :=
      hend
    have hslice : ∀ m, between source m source.length = source.drop m := fun m => by
      rw [between, List.take_length]
    by_cases hacc : sink.Accepts (checkpoint.elim 0 (·.nextBatchId))
    · have haccepts : Query.Accepts (⟨checkpoint, sink.rows, sink.latestBatchId⟩ : Query ρ) := hacc
      simp [completeRun, step, hend, Idle, toQuery, Query.availableNow, hatEnd, haccepts,
        FileSink.addBatch, batchId, hacc, batch, hslice, Query.batchId, Query.startOffset,
        startOffset]
    · have haccepts : ¬Query.Accepts (⟨checkpoint, sink.rows, sink.latestBatchId⟩ : Query ρ) :=
        hacc
      simp [completeRun, step, hend, Idle, toQuery, Query.availableNow, hatEnd, haccepts,
        FileSink.addBatch, batchId, hacc, Query.batchId]

end Execution

/-! ### When the checkpoint is deleted

The ids start over, and the log of the sink does not: until they have passed it, every batch
is skipped. So the batch that is accepted next begins behind all that is stored. -/

/-- The checkpoint is deleted, before a run. -/
def Execution.forget (x : Execution σ) : Execution σ := ⟨none, none, false, x.sink⟩

namespace FileSink

/-- While the log is empty, a query that starts over has lost nothing. -/
theorem committed_forget {f : List μ → List ρ} {source : List μ} {x : Execution (FileSink ρ)}
    {bs : List (List μ)}
    (h : x.Committed (Holds f) (fun bs b s => Holds f bs s ∨ Holds f (bs ++ [b]) s) source bs)
    (hlog : x.sink.latestBatchId = none) :
    x.forget.Committed (Holds f) (fun bs b s => Holds f bs s ∨ Holds f (bs ++ [b]) s)
      source [] := by
  obtain ⟨bs', -, -, -, -, hheld⟩ := h.exists_held fun _ _ _ => id
  have hnil : bs' = [] := by
    have hacc : x.sink.Accepts 0 := fun latest hl => by simp [hlog] at hl
    exact List.length_eq_zero_iff.mp (Nat.le_zero.mp ((hheld.2 0).mp hacc))
  exact ⟨Nat.zero_le _, (List.take_zero ..).symm, rfl, hnil ▸ hheld, rfl⟩

variable (f : List μ → List ρ)

/-- **The stored rows come from the first `m` messages**, and the next batch that is accepted
begins behind them. -/
structure Behind (source : List μ) (x : Execution (FileSink ρ)) (m : ℕ) : Prop where
  reach : m ≤ source.length
  stored : x.sink.rows.Sublist (f (source.take m))
  empty : x.sink.latestBatchId = none → m = 0
  next : x.sink.Accepts x.batchId → m ≤ x.startOffset
  planned : ∀ stop ∈ x.planned, x.startOffset ≤ stop ∧ stop ≤ source.length ∧ m ≤ stop
  offset : x.startOffset ≤ source.length
  written : x.planned = none → x.written = false
  skipped : x.written = true → ¬x.sink.Accepts x.batchId

variable {f} {source : List μ} {x : Execution (FileSink ρ)} {m : ℕ}

theorem behind_start : Behind f source (Execution.start (start : FileSink ρ)) 0 where
  reach := Nat.zero_le _
  stored := by simp [Execution.start, start]
  empty _ := rfl
  next _ := Nat.zero_le _
  planned := by simp [Execution.start]
  offset := Nat.zero_le _
  written _ := rfl
  skipped h := absurd h (by simp [Execution.start])

/-- Messages that arrive are behind everything. -/
theorem Behind.append (h : Behind f source x m) (more : List μ) :
    Behind f (source ++ more) x m where
  reach := by
    have hle := h.reach
    simp only [List.length_append]
    omega
  stored := by
    rw [List.take_append_of_le_length h.reach]
    exact h.stored
  empty := h.empty
  next := h.next
  planned stop hstop := by
    obtain ⟨h₁, h₂, h₃⟩ := h.planned stop hstop
    refine ⟨h₁, ?_, h₃⟩
    simp only [List.length_append]
    omega
  offset := by
    have hle := h.offset
    simp only [List.length_append]
    omega
  written := h.written
  skipped := h.skipped

/-- Without a checkpoint the ids start over: batch zero is accepted by an empty log only. -/
theorem Behind.forget (h : Behind f source x m) : Behind f source x.forget m where
  reach := h.reach
  stored := h.stored
  empty := h.empty
  next hacc := by
    have hnone : x.sink.latestBatchId = none := by
      refine Option.eq_none_iff_forall_not_mem.mpr fun latest hl => ?_
      exact Nat.not_lt_zero latest (hacc latest hl)
    exact Nat.le_of_eq (h.empty hnone)
  planned := by simp [Execution.forget]
  offset := Nat.zero_le _
  written _ := rfl
  skipped hw := absurd hw (by simp [Execution.forget])

/-- After the write of a batch that is accepted the stored rows reach to its end. -/
theorem Behind.write (hf : ∀ a b, f (a ++ b) = f a ++ f b) (h : Behind f source x m) {stop : ℕ}
    (hplanned : x.planned = some stop) (hacc : x.sink.Accepts x.batchId) {s : FileSink ρ}
    (hs : s = ⟨x.sink.rows ++ f (x.batch source stop), some x.batchId⟩) (w : Bool) :
    Behind f source { x with written := w, sink := s } stop := by
  subst hs
  obtain ⟨hstart, hstop, -⟩ := h.planned stop hplanned
  have hskip : ¬FileSink.Accepts ⟨x.sink.rows ++ f (x.batch source stop), some x.batchId⟩
      x.batchId := fun hc => Nat.lt_irrefl _ (hc _ rfl)
  refine ⟨hstop, ?_, ?_, fun hc => absurd hc hskip, ?_, h.offset, ?_, fun _ => hskip⟩
  · -- up to the checkpoint, and from there on
    have hsplit : source.take x.startOffset =
        source.take m ++ between source m x.startOffset :=
      (take_append_between source (h.next hacc)).symm
    have hupto : x.sink.rows.Sublist (f (source.take x.startOffset)) := by
      rw [hsplit, hf]
      exact h.stored.trans (List.sublist_append_left ..)
    rw [← take_append_between source hstart, hf]
    exact hupto.append (List.Sublist.refl _)
  · intro hnone
    exact absurd hnone (by simp)
  · rintro stop' hstop'
    obtain rfl : stop = stop' := Option.some.inj (hplanned.symm.trans hstop')
    exact ⟨hstart, hstop, Nat.le_refl _⟩
  · intro hnone
    exact absurd (hnone.symm.trans hplanned) (by simp)

/-- **A step keeps the stored rows behind** the batch that is accepted next. -/
theorem Behind.step (hf : ∀ a b, f (a ++ b) = f a ++ f b) (h : Behind f source x m)
    (e : ExecutionEvent (Option FileFault)) :
    ∃ m', Behind f source (x.step (addBatch f) source e) m' := by
  cases e with
  | plan =>
    refine ⟨m, ?_⟩
    rw [Execution.step]
    split
    next hplan =>
      refine ⟨h.reach, h.stored, h.empty, h.next, ?_, h.offset, ?_, h.skipped⟩
      · rintro stop hstop
        obtain rfl : source.length = stop := Option.some.inj hstop
        exact ⟨h.offset, Nat.le_refl _, h.reach⟩
      · intro hnone
        exact absurd hnone (by simp)
    next => exact h
  | write fault =>
    rw [Execution.step]
    split
    next => exact ⟨m, h⟩
    next stop hplanned =>
      split
      next => exact ⟨m, h⟩
      next hw =>
        obtain ⟨hstart, hstop, hm⟩ := h.planned stop hplanned
        by_cases hacc : x.sink.Accepts x.batchId
        · rcases addBatch_cases (f := f) (b := x.batch source stop) hacc fault with hs | ⟨hs, hr⟩
          · exact ⟨stop, h.write hf hplanned hacc hs _⟩
          · refine ⟨m, ?_⟩
            dsimp only
            rw [hs, hr]
            exact ⟨h.reach, h.stored, h.empty, h.next, h.planned, h.offset, fun _ => rfl, by simp⟩
        · refine ⟨m, ?_⟩
          dsimp only
          rw [addBatch_of_not_accepts hacc]
          exact ⟨h.reach, h.stored, h.empty, h.next, h.planned, h.offset,
            fun hnone => absurd (hnone.symm.trans hplanned) (by simp), fun _ => hacc⟩
  | commit =>
    refine ⟨m, ?_⟩
    rw [Execution.step]
    split
    next => exact h
    next stop hplanned =>
      split
      next hw =>
        obtain ⟨hstart, hstop, hm⟩ := h.planned stop hplanned
        exact ⟨h.reach, h.stored, h.empty, fun _ => hm, by simp, hstop, fun _ => rfl, by simp⟩
      next => exact h
  | stop =>
    refine ⟨m, h.reach, h.stored, h.empty, h.next, h.planned, h.offset, fun _ => rfl, ?_⟩
    intro hw
    exact absurd hw (by simp [Execution.step])

end FileSink

end Streaming
