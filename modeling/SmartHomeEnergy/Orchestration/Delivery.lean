import Mathlib.Data.List.Nodup
import SmartHomeEnergy.Orchestration.BronzeSilver

/-!
# What becomes of the requests

The scheduler and the notebook server do not keep the notebooks in order. But whatever happens,
and in whatever order, no request is executed twice; a run of the DAG starts each notebook at
most twice, since a task is retried once; and the silver notebook is asked for only after the
server has taken the bronze request of the same run (`SmartHomeEnergy.delivery`).

The invariant counts the requests there are of a run and a notebook against those the position
in the DAG allows for (`SmartHomeEnergy.Orchestra.allowance`).
-/

namespace SmartHomeEnergy

open Transition

/-! ### Requests and attempts -/

/-- A request of a run for a notebook. -/
def IsFor (run : ℕ) (notebook : Notebook) (j : Job) : Prop := j.run = run ∧ j.notebook = notebook

instance (run : ℕ) (notebook : Notebook) : DecidablePred (IsFor run notebook) :=
  fun _ => inferInstanceAs (Decidable (_ ∧ _))

/-- How many requests the task of a notebook has been allowed, when the DAG is at the task of
another one: two for a task that is over, and none for one that is to come. -/
def allowedBeside : Notebook → ℕ
  | .rawBronzeParquet => 2
  | .cleanSilverPipeline => 0

/-- **How many requests of a run for a notebook there may be**, at a position in the DAG. -/
def Orchestra.allowance (s : Orchestra) (run : ℕ) (notebook : Notebook) : ℕ :=
  if run < s.run then 2
  else if s.run < run then 0
  else
    match s.dag with
    | .idle => 2
    | .ready n retries => if notebook = n then 1 - retries else allowedBeside notebook
    | .waiting n retries _ => if notebook = n then 2 - retries else allowedBeside notebook

/-- How many notebooks were started for jobs with a property. -/
def started (p : Job → Prop) [DecidablePred p] (ms : List Move) : ℕ :=
  ms.countP fun m => match m with
    | .begin job => p job
    | _ => false

/-- The retries a task has left. -/
def Dag.retriesLeft : Dag → ℕ
  | .idle => 0
  | .ready _ retries => retries
  | .waiting _ retries _ => retries

/-- **The invariant**: the DAG keeps track, no two requests share their number, a silver request
comes after a bronze one that was taken, and there are no more requests than are allowed. -/
structure Delivers (s : Orchestra) : Prop where
  tracks : KeepsTrack s
  distinct : (s.requests.map (·.id)).Nodup
  retries : s.dag.retriesLeft ≤ 1
  silver : ∀ j ∈ s.requests, j.notebook = .cleanSilverPipeline → BronzeOf j.run s.jobs
  allowed : ∀ run notebook, s.requests.countP (IsFor run notebook) ≤ s.allowance run notebook

theorem delivers_start : Delivers Orchestra.start := by
  refine ⟨keepsTrack_start, List.nodup_nil, ?_, ?_, ?_⟩ <;>
    simp [Orchestra.start, Orchestra.requests, Orchestra.jobs, Dag.retriesLeft]

section Steps

variable {s s' : Orchestra} {m : Move}

/-! ### The server -/

/-- **A step of the server** neither makes a request nor doubles one. -/
theorem subperm_requests (hm : m ≠ .startRun ∧ m ≠ .send ∧ m ≠ .succeed ∧ m ≠ .raise)
    (hstep : Advance s m s') : s'.requests.Subperm s.requests := by
  refine List.subperm_ext_iff.mpr fun j _ => ?_
  cases hstep with
  | startRun | send | succeed | raise => simp at hm
  | @accept job hjob | @refuse job hjob | @begin job hjob | @skip job hjob | @finish job hjob =>
    have hcount := (List.perm_cons_erase hjob).count_eq j
    simp only [Orchestra.requests, Orchestra.jobs, List.count_append, List.count_cons] at hcount ⊢
    omega

/-- A request is allowed no less when a run has gone on. -/
theorem Delivers.of_movesOn (h : Delivers s) (hm : MovesOn s s')
    (hsub : s'.requests.Subperm s.requests) : Delivers s' where
  tracks := h.tracks.of_movesOn hm
  distinct := by
    obtain ⟨l, hperm, hsublist⟩ := hsub
    exact ((hperm.map _).nodup_iff).mp (h.distinct.sublist (hsublist.map _))
  retries := by
    rw [hm.dag]
    exact h.retries
  silver j hj hn := (h.silver j (hsub.subset hj) hn).mono hm.jobs
  allowed run notebook := by
    rw [Orchestra.allowance, hm.run, hm.dag]
    exact Nat.le_trans (hsub.countP_le _) (h.allowed run notebook)

/-! ### The scheduler -/

/-- A step of the scheduler that sends nothing: the DAG keeps track, and more is allowed. -/
theorem Delivers.of_dag (h : Delivers s) {run : ℕ} {dag : Dag}
    (htracks : KeepsTrack { s with run := run, dag := dag }) (hretries : dag.retriesLeft ≤ 1)
    (hmore : ∀ r n, s.allowance r n ≤ Orchestra.allowance { s with run := run, dag := dag } r n) :
    Delivers { s with run := run, dag := dag } :=
  ⟨htracks, h.distinct, hretries, h.silver, fun r n => Nat.le_trans (h.allowed r n) (hmore r n)⟩

/-- **A request that is sent** has a number of its own, and is one that was allowed. -/
theorem Delivers.send (h : Delivers s) {notebook : Notebook} {retries : ℕ}
    (hd : s.dag = .ready notebook retries) :
    Delivers { s with
      dag := .waiting notebook retries s.nextId
      nextId := s.nextId + 1
      inFlight := ⟨s.nextId, s.run, notebook⟩ :: s.inFlight } := by
  have hretries : retries ≤ 1 := by
    have hle := h.retries
    rwa [hd] at hle
  refine ⟨h.tracks.send hd, ?_, hretries, fun j hj hn => ?_, fun r n => ?_⟩
  · refine List.nodup_cons.mpr ⟨fun hmem => ?_, h.distinct⟩
    obtain ⟨j, hj, hid⟩ := List.mem_map.mp hmem
    exact absurd (h.tracks.fresh j hj) (by simp [hid])
  · rcases List.mem_cons.mp hj with rfl | hj
    · obtain rfl : notebook = .cleanSilverPipeline := hn
      exact h.tracks.dag.silver (Or.inl ⟨retries, hd⟩)
    · exact h.silver j hj hn
  · -- one request more of the current run and notebook, and one more that is allowed
    have hallowed := h.allowed r n
    have hcount : (⟨s.nextId, s.run, notebook⟩ :: s.requests).countP (IsFor r n) =
        s.requests.countP (IsFor r n) + if s.run = r ∧ notebook = n then 1 else 0 := by
      by_cases hc : s.run = r ∧ notebook = n <;> simp [IsFor, hc]
    show (⟨s.nextId, s.run, notebook⟩ :: s.requests).countP (IsFor r n) ≤ _
    rw [hcount]
    generalize s.requests.countP (IsFor r n) = count at hallowed
    simp only [Orchestra.allowance, hd] at hallowed ⊢
    by_cases hr : s.run = r
    · subst hr
      by_cases hn : notebook = n
      · subst hn
        simp only [Nat.lt_irrefl, if_false, if_true, and_self] at hallowed ⊢
        omega
      · simpa [hn, Ne.symm hn] using hallowed
    · rcases Nat.lt_or_gt_of_ne hr with hlt | hlt
      · simpa [hr, hlt, Nat.lt_asymm hlt] using hallowed
      · simpa [hr, hlt] using hallowed

/-- **A step keeps the invariant.** -/
theorem Delivers.step (h : Delivers s) (hstep : Advance s m s') : Delivers s' := by
  have htracks := h.tracks.step hstep
  have hmoves := fun hm => movesOn_of_server hm hstep
  have hsub := fun hm => subperm_requests hm hstep
  cases hstep with
  | startRun hd =>
    refine h.of_dag htracks (Nat.le_refl _) fun r n => ?_
    simp only [Orchestra.allowance, hd]
    split_ifs <;> omega
  | send hd => exact h.send hd
  | @succeed notebook retries id hd hid =>
    refine h.of_dag htracks ?_ fun r n => ?_
    · cases notebook <;> simp [afterSuccess, Dag.retriesLeft, defaultRetries]
    · simp only [Orchestra.allowance, hd]
      cases notebook <;> cases n <;> simp [afterSuccess, allowedBeside, defaultRetries]
      all_goals split_ifs <;> omega
  | @raise notebook retries id hd =>
    have hretries : retries ≤ 1 := by
      have hle := h.retries
      rwa [hd] at hle
    refine h.of_dag htracks ?_ fun r n => ?_
    · cases retries <;> simp [afterFailure, Dag.retriesLeft]
      omega
    · simp only [Orchestra.allowance, hd]
      cases retries <;> cases notebook <;> cases n <;> simp [afterFailure, allowedBeside]
      all_goals split_ifs <;> omega
  | accept | refuse | begin | skip | finish =>
    exact h.of_movesOn (hmoves (by simp)) (hsub (by simp))

end Steps

/-! ### Whole runs -/

theorem delivers_run {ms : List Move} {s : Orchestra} (h : Run Advance Orchestra.start ms s) :
    Delivers s := h.invariant Delivers delivers_start fun _ _ _ hs hstep => hs.step hstep

/-- **What was started is there**: every start has left its job among those in execution and
those that are done. -/
theorem started_le {ms : List Move} {s : Orchestra} (h : Run Advance Orchestra.start ms s)
    (p : Job → Prop) [DecidablePred p] :
    started p ms ≤ (s.executing ++ s.finished).countP p := by
  induction h with
  | start => simp [started]
  | snoc _ hstep ih =>
    rw [started, List.countP_append, ← started]
    rw [List.countP_append] at ih ⊢
    cases hstep with
    | startRun | send | accept | refuse | succeed | raise | skip => simpa using ih
    | @begin job hjob =>
      by_cases hp : p job <;> simp [hp] <;> omega
    | @finish job hjob =>
      have hcount := (List.perm_cons_erase hjob).countP_eq p
      by_cases hp : p job <;> simp [hp] at hcount ⊢ <;> omega

/-- **What becomes of the requests**, in every run: no request is executed twice, a run of the DAG
starts each notebook at most twice, and a silver request is sent only after the server has taken
a bronze request of the same run. -/
theorem delivery (ms : List Move) (s : Orchestra) (h : Run Advance Orchestra.start ms s) :
    (∀ id, started (fun j => j.id = id) ms ≤ 1) ∧
      (∀ run notebook, started (IsFor run notebook) ms ≤ 2) ∧
        ∀ j ∈ s.requests, j.notebook = .cleanSilverPipeline → BronzeOf j.run s.jobs := by
  have hdelivers := delivers_run h
  have hsub : (s.executing ++ s.finished).Sublist s.requests := by
    rw [Orchestra.requests, Orchestra.jobs, List.append_assoc s.queued]
    exact ((List.sublist_append_right ..).trans (List.sublist_append_left ..)).trans
      (List.sublist_append_right ..)
  refine ⟨fun id => ?_, fun run notebook => ?_, hdelivers.silver⟩
  · refine Nat.le_trans (started_le h _) (Nat.le_trans hsub.countP_le ?_)
    have hone := List.nodup_iff_count_le_one.mp hdelivers.distinct id
    rw [List.count, List.countP_map] at hone
    exact le_of_eq_of_le (List.countP_congr fun j _ => by simp) hone
  · refine Nat.le_trans (started_le h _) (Nat.le_trans hsub.countP_le ?_)
    refine Nat.le_trans (hdelivers.allowed run notebook) ?_
    rw [Orchestra.allowance]
    split_ifs
    · exact Nat.le_refl _
    · exact Nat.zero_le _
    · split
      · exact Nat.le_refl _
      · cases notebook <;> split_ifs <;> simp [allowedBeside] <;> omega
      · cases notebook <;> split_ifs <;> simp [allowedBeside]

/-- The bronze job of the first run, asked for again. -/
def firstBronzeAgain : Job := ⟨1, 1, .rawBronzeParquet⟩

/-- A request whose answer comes too late, so that the task is retried. -/
def retried : List Move :=
  [.startRun, .send, .accept firstBronze, .raise, .send, .accept firstBronzeAgain,
    .begin firstBronze, .begin firstBronzeAgain]

/-- The bronze notebook of a run is then started twice, and each request of it once. -/
theorem delivery_retried :
    started (IsFor 1 .rawBronzeParquet) retried = 2 ∧
      (∀ id, started (fun j => j.id = id) retried ≤ 1) ∧
        ∀ run notebook, started (IsFor run notebook) retried ≤ 2 := by
  have hrun : Run Advance Orchestra.start retried
      ⟨1, .waiting .rawBronzeParquet 0 1, 2, [], [1, 0], [], [firstBronzeAgain, firstBronze], [],
        []⟩ :=
    ((((((((Run.start.snoc (.startRun rfl)).snoc (.send rfl)).snoc
      (@Advance.accept _ firstBronze (by decide))).snoc (.raise rfl)).snoc (.send rfl)).snoc
      (@Advance.accept _ firstBronzeAgain (by decide))).snoc
      (@Advance.begin _ firstBronze (by decide))).snoc
      (@Advance.begin _ firstBronzeAgain (by decide)))
  obtain ⟨honce, htwice, -⟩ := delivery retried _ hrun
  exact ⟨by decide, honce, htwice⟩

end SmartHomeEnergy
