import Mathlib.Data.List.Perm.Basic
import SmartHomeEnergy.Transition.Run

/-!
# Bronze, then silver: the scheduler and the notebook server

The DAG `2_smarthome_bronze_and_silver_ingestion` runs two tasks in order, one run at a
time. A task asks the notebook server to run its notebook and is done when the server
answers. But the server answers when the notebook is *queued*: it runs in the background,
in a thread pool, for as long as it takes. So the order of the tasks and the limit of one
run order the requests, and not the executions (`SmartHomeEnergy.bronze_silver_overlap`).

What would be enough is a condition on two moments (`SmartHomeEnergy.Settled`): that nothing
the pipeline asked for before is still under way when a request is sent, and that the bronze
notebook is still there when its background task looks for it, since a task that does not find
its notebook is done without a word. Under it every run executes one notebook at a time, and
the silver one after the bronze one of its own run (`SmartHomeEnergy.bronze_before_silver`).

Time does not occur: a step may happen whenever it can, so every duration and every
interleaving is a run.
-/

namespace SmartHomeEnergy

open Transition

/-! ### The system -/

/-- The two notebooks of the DAG. -/
inductive Notebook
  | rawBronzeParquet
  | cleanSilverPipeline
  deriving DecidableEq

/-- A request to run a notebook, and the background task it becomes. -/
structure Job where
  id : ℕ
  /-- The run of the DAG that sent it. -/
  run : ℕ
  notebook : Notebook
  deriving DecidableEq

/-- Where the active run of the DAG is. -/
inductive Dag
  /-- No run is active. -/
  | idle
  /-- The task of a notebook is about to start, with so many retries left. -/
  | ready (notebook : Notebook) (retries : ℕ)
  /-- `requests.post` is waiting for the answer to its request. -/
  | waiting (notebook : Notebook) (retries : ℕ) (id : ℕ)
  deriving DecidableEq

/-- The scheduler, the network and the server. -/
structure Orchestra where
  /-- The number of the last run of the DAG. -/
  run : ℕ
  dag : Dag
  nextId : ℕ
  /-- Requests the server has not handled. -/
  inFlight : List Job
  /-- Requests the server has answered with success. -/
  answered : List ℕ
  /-- Background tasks that wait for a thread. -/
  queued : List Job
  /-- Notebooks in execution. -/
  executing : List Job
  /-- Notebooks that have ended, well or badly. -/
  finished : List Job
  /-- Background tasks that did not find their notebook. -/
  skipped : List Job
  deriving DecidableEq

/-- Before the first run. -/
def Orchestra.start : Orchestra := ⟨0, .idle, 0, [], [], [], [], [], []⟩

/-- `'retries': 1`. -/
def defaultRetries : ℕ := 1

/-- The task that follows a task that succeeded: `run_raw_bronze >> run_clean_silver`. -/
def afterSuccess : Notebook → Dag
  | .rawBronzeParquet => .ready .cleanSilverPipeline defaultRetries
  | .cleanSilverPipeline => .idle

/-- What follows an attempt that raised: another one, or the end of the run. -/
def afterFailure (notebook : Notebook) : ℕ → Dag
  | 0 => .idle
  | retries + 1 => .ready notebook retries

/-- What happens in the system. -/
inductive Move
  /-- The scheduler starts a run. -/
  | startRun
  /-- A task sends its request. -/
  | send
  /-- The server queues a background task and answers. -/
  | accept (job : Job)
  /-- The request is lost, or answered with an error. -/
  | refuse (job : Job)
  /-- The task receives the answer. -/
  | succeed
  /-- The attempt raises: an error status, a broken connection, or 15 seconds without an
  answer. -/
  | raise
  /-- A background task gets a thread and starts its notebook. -/
  | begin (job : Job)
  /-- A background task gets a thread and does not find its notebook. -/
  | skip (job : Job)
  /-- A notebook ends, well or badly. -/
  | finish (job : Job)

/-- **One step of the system.** -/
inductive Advance : Orchestra → Move → Orchestra → Prop
  | startRun {s : Orchestra} : s.dag = .idle →
      Advance s .startRun
        { s with run := s.run + 1, dag := .ready .rawBronzeParquet defaultRetries }
  | send {s : Orchestra} {notebook : Notebook} {retries : ℕ} : s.dag = .ready notebook retries →
      Advance s .send
        { s with
          dag := .waiting notebook retries s.nextId
          nextId := s.nextId + 1
          inFlight := ⟨s.nextId, s.run, notebook⟩ :: s.inFlight }
  | accept {s : Orchestra} {job : Job} : job ∈ s.inFlight →
      Advance s (.accept job)
        { s with
          inFlight := s.inFlight.erase job
          answered := job.id :: s.answered
          queued := job :: s.queued }
  | refuse {s : Orchestra} {job : Job} : job ∈ s.inFlight →
      Advance s (.refuse job) { s with inFlight := s.inFlight.erase job }
  | succeed {s : Orchestra} {notebook : Notebook} {retries id : ℕ} :
      s.dag = .waiting notebook retries id → id ∈ s.answered →
      Advance s .succeed { s with dag := afterSuccess notebook }
  | raise {s : Orchestra} {notebook : Notebook} {retries id : ℕ} :
      s.dag = .waiting notebook retries id →
      Advance s .raise { s with dag := afterFailure notebook retries }
  | begin {s : Orchestra} {job : Job} : job ∈ s.queued →
      Advance s (.begin job)
        { s with queued := s.queued.erase job, executing := job :: s.executing }
  | skip {s : Orchestra} {job : Job} : job ∈ s.queued →
      Advance s (.skip job) { s with queued := s.queued.erase job, skipped := job :: s.skipped }
  | finish {s : Orchestra} {job : Job} : job ∈ s.executing →
      Advance s (.finish job)
        { s with executing := s.executing.erase job, finished := job :: s.finished }

/-! ### What should hold -/

/-- Some jobs hold the bronze notebook of a run. -/
def BronzeOf (run : ℕ) (jobs : List Job) : Prop :=
  ∃ b ∈ jobs, b.run = run ∧ b.notebook = .rawBronzeParquet

/-- **One notebook at a time, and bronze before silver**: at most one of the two is in
execution, and while it is the silver one, the bronze one of its run has been executed. -/
structure InOrder (s : Orchestra) : Prop where
  alone : s.executing.length ≤ 1
  bronzeDone : ∀ j ∈ s.executing, j.notebook = .cleanSilverPipeline →
    BronzeOf j.run s.finished ∧ ¬BronzeOf j.run (s.queued ++ s.executing)

/-- What is under way: requests that are not handled, and background tasks that are not
done. -/
def Orchestra.underWay (s : Orchestra) : List Job := s.inFlight ++ s.queued ++ s.executing

/-- **The condition**: a task sends its request only when nothing is under way, and the bronze
notebook is there when its background task looks for it. -/
structure Settled (s : Orchestra) (m : Move) : Prop where
  alone : m = .send → s.underWay = []
  present : ∀ job, m = .skip job → job.notebook ≠ .rawBronzeParquet

/-! ### What every run keeps track of -/

/-- The background tasks there ever were. -/
def Orchestra.jobs (s : Orchestra) : List Job := s.queued ++ s.executing ++ s.finished ++ s.skipped

/-- The requests there are, handled or not. -/
def Orchestra.requests (s : Orchestra) : List Job := s.inFlight ++ s.jobs

/-- What the position in the DAG says about the jobs: a request that waits for its answer
is one of the current run and notebook, and the silver task comes after a bronze job of the
run. -/
structure DagTracks (s : Orchestra) : Prop where
  waiting : ∀ n k id, s.dag = .waiting n k id →
    ∀ j ∈ s.requests, j.id = id → j.run = s.run ∧ j.notebook = n
  silver : (∃ k, s.dag = .ready .cleanSilverPipeline k) ∨
      (∃ k id, s.dag = .waiting .cleanSilverPipeline k id) →
    BronzeOf s.run s.jobs

/-- **The invariant of every run**: requests are numbered as they are sent, one that was
answered is a background task, and the DAG keeps track. -/
structure KeepsTrack (s : Orchestra) : Prop where
  fresh : ∀ j ∈ s.requests, j.id < s.nextId
  answered : ∀ id ∈ s.answered, ∃ j ∈ s.jobs, j.id = id
  dag : DagTracks s

section Invariant

variable {s s' : Orchestra} {m : Move}

/-- A step that only moves jobs on: nothing comes under way that was not, and no
background task is lost. -/
structure MovesOn (s s' : Orchestra) : Prop where
  run : s'.run = s.run
  dag : s'.dag = s.dag
  nextId : s'.nextId = s.nextId
  length : s'.underWay.length ≤ s.underWay.length
  underWay : ∀ j ∈ s'.underWay, j ∈ s.underWay
  requests : ∀ j ∈ s'.requests, j ∈ s.requests
  jobs : ∀ j ∈ s.jobs, j ∈ s'.jobs
  finished : ∀ j ∈ s.finished, j ∈ s'.finished
  answered : ∀ id ∈ s'.answered, id ∈ s.answered ∨ ∃ j ∈ s'.jobs, j.id = id

theorem BronzeOf.mono {run : ℕ} {l l' : List Job} (h : ∀ j ∈ l, j ∈ l') :
    BronzeOf run l → BronzeOf run l' := by
  rintro ⟨b, hb, hrun⟩
  exact ⟨b, h b hb, hrun⟩

/-- **The steps of the server** only move jobs on. -/
theorem movesOn_of_server (hm : m ≠ .startRun ∧ m ≠ .send ∧ m ≠ .succeed ∧ m ≠ .raise)
    (hstep : Advance s m s') : MovesOn s s' := by
  cases hstep with
  | startRun | send | succeed | raise => simp at hm
  | accept hjob | refuse hjob | begin hjob | skip hjob | finish hjob =>
    have hmem := fun x => (List.perm_cons_erase hjob).mem_iff (a := x)
    have hlen := (List.perm_cons_erase hjob).length_eq
    refine ⟨rfl, rfl, rfl, ?_, ?_, ?_, ?_, ?_, ?_⟩ <;>
      grind [Orchestra.underWay, Orchestra.requests, Orchestra.jobs]

theorem KeepsTrack.of_movesOn (h : KeepsTrack s) (hm : MovesOn s s') : KeepsTrack s' where
  fresh j hj := by
    rw [hm.nextId]
    exact h.fresh j (hm.requests j hj)
  answered id hid := by
    rcases hm.answered id hid with hid | hjob
    · obtain ⟨j, hj, hjid⟩ := h.answered id hid
      exact ⟨j, hm.jobs j hj, hjid⟩
    · exact hjob
  dag :=
    { waiting := by
        rw [hm.dag, hm.run]
        exact fun n k id hd j hj => h.dag.waiting n k id hd j (hm.requests j hj)
      silver := by
        rw [hm.dag, hm.run]
        exact fun hd => (h.dag.silver hd).mono hm.jobs }

/-- A run that has just started has sent nothing. -/
theorem KeepsTrack.startRun (h : KeepsTrack s) :
    KeepsTrack { s with run := s.run + 1, dag := .ready .rawBronzeParquet defaultRetries } := by
  refine ⟨h.fresh, h.answered, fun n k id hd => ?_, ?_⟩
  · simp at hd
  · rintro (⟨k, hd⟩ | ⟨k, id, hd⟩) <;> simp at hd

/-- **A task that succeeds leaves its job behind**, so the silver task starts after a
bronze job of the run. -/
theorem KeepsTrack.succeed (h : KeepsTrack s) {notebook : Notebook} {retries id : ℕ}
    (hd : s.dag = .waiting notebook retries id) (hid : id ∈ s.answered) :
    KeepsTrack { s with dag := afterSuccess notebook } := by
  refine ⟨h.fresh, h.answered, fun n k id' hd' => ?_, fun hsilver => ?_⟩
  · cases notebook <;> simp [afterSuccess] at hd'
  · cases notebook with
    | rawBronzeParquet =>
      obtain ⟨j, hj, rfl⟩ := h.answered id hid
      obtain ⟨hrun, hn⟩ := h.dag.waiting _ _ _ hd j (List.mem_append_right _ hj) rfl
      exact ⟨j, hj, hrun, hn⟩
    | cleanSilverPipeline =>
      rcases hsilver with ⟨k, hk⟩ | ⟨k, id', hk⟩ <;> simp [afterSuccess] at hk

/-- A task that is retried is the same task. -/
theorem KeepsTrack.raise (h : KeepsTrack s) {notebook : Notebook} {retries id : ℕ}
    (hd : s.dag = .waiting notebook retries id) :
    KeepsTrack { s with dag := afterFailure notebook retries } := by
  refine ⟨h.fresh, h.answered, fun n k id' hd' => ?_, fun hsilver => ?_⟩
  · cases retries <;> simp [afterFailure] at hd'
  · cases retries with
    | zero => rcases hsilver with ⟨k, hk⟩ | ⟨k, id', hk⟩ <;> simp [afterFailure] at hk
    | succ retries =>
      rcases hsilver with ⟨k, hk⟩ | ⟨k, id', hk⟩
      · obtain ⟨rfl, -⟩ : notebook = .cleanSilverPipeline ∧ retries = k := by
          simpa [afterFailure] using hk
        exact h.dag.silver (Or.inr ⟨_, _, hd⟩)
      · simp [afterFailure] at hk

/-- **A request that is sent** is a new one, of the current run and the notebook of its task. -/
theorem KeepsTrack.send (h : KeepsTrack s) {notebook : Notebook} {retries : ℕ}
    (hd : s.dag = .ready notebook retries) :
    KeepsTrack { s with
      dag := .waiting notebook retries s.nextId
      nextId := s.nextId + 1
      inFlight := ⟨s.nextId, s.run, notebook⟩ :: s.inFlight } := by
  refine ⟨fun j hj => ?_, h.answered, ?_, fun hsilver => ?_⟩
  · rcases List.mem_cons.mp hj with rfl | hj
    · exact Nat.lt_succ_self _
    · exact Nat.lt_succ_of_lt (h.fresh j hj)
  · rintro n k id hw j hj rfl
    obtain ⟨rfl, rfl, hid⟩ := Dag.waiting.inj hw
    rcases List.mem_cons.mp hj with rfl | hj
    · exact ⟨rfl, rfl⟩
    · exact absurd (h.fresh j hj) (by omega)
  · refine h.dag.silver (Or.inl ⟨retries, ?_⟩)
    rcases hsilver with ⟨k, hk⟩ | ⟨k, id, hk⟩
    · exact absurd hk (by simp)
    · rw [hd, (Dag.waiting.inj hk).1]

/-- **Every step keeps track.** -/
theorem KeepsTrack.step (h : KeepsTrack s) (hstep : Advance s m s') : KeepsTrack s' := by
  have hmoves := fun hm => movesOn_of_server hm hstep
  cases hstep with
  | startRun => exact h.startRun
  | send hd => exact h.send hd
  | succeed hd hid => exact h.succeed hd hid
  | raise hd => exact h.raise hd
  | accept | refuse | begin | skip | finish => exact h.of_movesOn (hmoves (by simp))

theorem keepsTrack_start : KeepsTrack Orchestra.start := by
  refine ⟨?_, ?_, ?_, ?_⟩ <;> simp [Orchestra.start, Orchestra.requests, Orchestra.jobs]

/-! ### The invariant of a settled run -/

/-- **The invariant of a settled run**: one request is under way at most, and if it is a silver
one, a bronze notebook of its run has been executed; and no bronze notebook was missed. -/
structure OneByOne (s : Orchestra) : Prop where
  tracks : KeepsTrack s
  single : s.underWay.length ≤ 1
  ordered : ∀ j ∈ s.underWay, j.notebook = .cleanSilverPipeline → BronzeOf j.run s.finished
  present : ∀ j ∈ s.skipped, j.notebook ≠ .rawBronzeParquet

/-- A step that only moves jobs on keeps the invariant, unless it misses a bronze notebook. -/
theorem OneByOne.of_movesOn (h : OneByOne s) (hm : MovesOn s s')
    (hpresent : ∀ j ∈ s'.skipped, j.notebook ≠ .rawBronzeParquet) : OneByOne s' where
  tracks := h.tracks.of_movesOn hm
  single := Nat.le_trans hm.length h.single
  ordered j hj hn := (h.ordered j (hm.underWay j hj) hn).mono hm.finished
  present := hpresent

/-- A step of the scheduler that touches no job keeps the invariant, when the DAG keeps
track. -/
theorem OneByOne.of_dag (h : OneByOne s) {run : ℕ} {dag : Dag}
    (htracks : KeepsTrack { s with run := run, dag := dag }) :
    OneByOne { s with run := run, dag := dag } :=
  ⟨htracks, h.single, h.ordered, h.present⟩

/-- **A request that is sent when nothing is under way** is under way alone, and a silver
one comes after a bronze notebook that has been executed. -/
theorem OneByOne.send (h : OneByOne s) {notebook : Notebook} {retries : ℕ}
    (hd : s.dag = .ready notebook retries) (halone : s.underWay = []) :
    OneByOne { s with
      dag := .waiting notebook retries s.nextId
      nextId := s.nextId + 1
      inFlight := ⟨s.nextId, s.run, notebook⟩ :: s.inFlight } := by
  -- nothing is under way, so that every background task there ever was is done
  obtain ⟨hrest, hexecuting⟩ := List.append_eq_nil_iff.mp halone
  obtain ⟨hinFlight, hqueued⟩ := List.append_eq_nil_iff.mp hrest
  have hjobs : s.jobs = s.finished ++ s.skipped := by
    rw [Orchestra.jobs, hqueued, hexecuting]
    rfl
  refine ⟨h.tracks.send hd, ?_, fun j hj hn => ?_, h.present⟩
  · simp [Orchestra.underWay, hinFlight, hqueued, hexecuting]
  · obtain rfl : j = ⟨s.nextId, s.run, notebook⟩ := by
      simpa [Orchestra.underWay, hinFlight, hqueued, hexecuting] using hj
    obtain rfl : notebook = .cleanSilverPipeline := hn
    obtain ⟨b, hb, hrun, hbronze⟩ := h.tracks.dag.silver (Or.inl ⟨retries, hd⟩)
    rw [hjobs] at hb
    rcases List.mem_append.mp hb with hb | hb
    · exact ⟨b, hb, hrun, hbronze⟩
    · exact absurd hbronze (h.present b hb)

/-- **A step that meets the condition keeps the invariant.** -/
theorem OneByOne.step (h : OneByOne s) (hsettled : Settled s m) (hstep : Advance s m s') :
    OneByOne s' := by
  have htracks := h.tracks.step hstep
  have hmoves := fun hm => movesOn_of_server hm hstep
  cases hstep with
  | startRun | succeed | raise => exact h.of_dag htracks
  | send hd => exact h.send hd (hsettled.alone rfl)
  | accept | refuse | begin | finish => exact h.of_movesOn (hmoves (by simp)) h.present
  | skip =>
    refine h.of_movesOn (hmoves (by simp)) ?_
    exact List.forall_mem_cons.mpr ⟨hsettled.present _ rfl, h.present⟩

theorem oneByOne_start : OneByOne Orchestra.start := by
  refine ⟨keepsTrack_start, by decide, ?_, ?_⟩ <;> simp [Orchestra.start, Orchestra.underWay]

/-- **The invariant puts the notebooks in order.** -/
theorem OneByOne.inOrder (h : OneByOne s) : InOrder s := by
  have hsingle := h.single
  simp only [Orchestra.underWay, List.length_append] at hsingle
  refine ⟨by omega, fun j hj hn => ⟨h.ordered j ?_ hn, ?_⟩⟩
  · exact List.mem_append_right _ hj
  · -- the silver notebook in execution is all that is under way
    rintro ⟨b, hb, -, hbn⟩
    have hone : (s.queued ++ s.executing).length ≤ 1 := by
      rw [List.length_append]
      omega
    obtain ⟨x, hx⟩ := List.length_eq_one_iff.mp
      (Nat.le_antisymm hone (List.length_pos_of_mem hb))
    have hj' := List.mem_append_right s.queued hj
    rw [hx, List.mem_singleton] at hb hj'
    rw [hb, ← hj', hn] at hbn
    exact absurd hbn (by decide)

end Invariant

/-! ### Whole runs -/

/-- **One notebook at a time, and bronze before silver**, in every run in which a request
is sent only when nothing is under way and the bronze notebook is never missing. -/
theorem bronze_before_silver (ms : List Move) (s : Orchestra)
    (h : Run (Guarded Advance Settled) Orchestra.start ms s) : InOrder s :=
  (h.invariant OneByOne oneByOne_start fun _ _ _ hs hstep => hs.step hstep.1 hstep.2).inOrder

/-- The bronze job of the first run. -/
def firstBronze : Job := ⟨0, 1, .rawBronzeParquet⟩

/-- The silver job of the first run. -/
def firstSilver : Job := ⟨1, 1, .cleanSilverPipeline⟩

/-- A silver notebook is out of order when no notebook has been executed before it. -/
theorem not_inOrder_of_no_bronze {s : Orchestra} {j : Job} (hfinished : s.finished = [])
    (hj : j ∈ s.executing) (hn : j.notebook = .cleanSilverPipeline) : ¬InOrder s := by
  intro h
  obtain ⟨b, hb, -⟩ := (h.bronzeDone j hj hn).1
  rw [hfinished] at hb
  exact List.not_mem_nil hb

/-- A run of the DAG in which both answers come before the bronze notebook is done; and one
whose requests are sent when nothing is under way, but the bronze notebook is gone when its
background task starts. -/
theorem bronze_silver_overlap :
    (∃ ms s, Run Advance Orchestra.start ms s ∧ s.executing = [firstSilver, firstBronze] ∧
      ¬InOrder s) ∧
    ∃ ms s, Run (Guarded Advance fun s m => m = .send → s.underWay = []) Orchestra.start ms s ∧
      s.executing = [firstSilver] ∧ s.finished = [] ∧ ¬InOrder s := by
  constructor
  · refine ⟨_, ⟨1, .waiting .cleanSilverPipeline 1 1, 2, [], [1, 0], [],
        [firstSilver, firstBronze], [], []⟩,
      ((((((((Run.start.snoc (.startRun rfl)).snoc (.send rfl)).snoc
        (@Advance.accept _ firstBronze ?_)).snoc (.succeed rfl ?_)).snoc
        (@Advance.begin _ firstBronze ?_)).snoc (.send rfl)).snoc
        (@Advance.accept _ firstSilver ?_)).snoc (@Advance.begin _ firstSilver ?_)), rfl,
      fun h => absurd h.alone (by decide)⟩
    all_goals decide
  · refine ⟨_, ⟨1, .waiting .cleanSilverPipeline 1 1, 2, [], [1, 0], [], [firstSilver], [],
        [firstBronze]⟩,
      ((((((((Run.start.snoc ⟨?_, .startRun rfl⟩).snoc ⟨?_, .send rfl⟩).snoc
        ⟨?_, @Advance.accept _ firstBronze ?_⟩).snoc ⟨?_, .succeed rfl ?_⟩).snoc
        ⟨?_, @Advance.skip _ firstBronze ?_⟩).snoc ⟨?_, .send rfl⟩).snoc
        ⟨?_, @Advance.accept _ firstSilver ?_⟩).snoc ⟨?_, @Advance.begin _ firstSilver ?_⟩),
      rfl, rfl, not_inOrder_of_no_bronze rfl List.mem_cons_self rfl⟩
    all_goals first
      | decide
      | exact fun _ => rfl
      | exact nofun

/-- The first run of the DAG, when the silver request is sent after the bronze notebook has
ended: then the silver notebook is in execution alone. -/
theorem bronze_before_silver_first :
    InOrder ⟨1, .idle, 2, [], [1, 0], [], [firstSilver], [firstBronze], []⟩ := by
  refine bronze_before_silver [.startRun, .send, .accept firstBronze, .succeed,
    .begin firstBronze, .finish firstBronze, .send, .accept firstSilver, .succeed,
    .begin firstSilver] _ ?_
  refine ((((((((((Run.start.snoc ⟨?_, .startRun rfl⟩).snoc ⟨?_, .send rfl⟩).snoc
    ⟨?_, @Advance.accept _ firstBronze ?_⟩).snoc ⟨?_, .succeed rfl ?_⟩).snoc
    ⟨?_, @Advance.begin _ firstBronze ?_⟩).snoc ⟨?_, @Advance.finish _ firstBronze ?_⟩).snoc
    ⟨?_, .send rfl⟩).snoc ⟨?_, @Advance.accept _ firstSilver ?_⟩).snoc
    ⟨?_, .succeed rfl ?_⟩).snoc ⟨?_, @Advance.begin _ firstSilver ?_⟩)
  all_goals first
    | decide
    | exact ⟨fun _ => rfl, nofun⟩
    | exact ⟨nofun, nofun⟩

end SmartHomeEnergy
