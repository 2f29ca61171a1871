import Mathlib.Data.List.Induction

/-!
# Runs of a transition system

Two ways of saying that a system takes step after step. A *deterministic* system
is a function `f` of the state and the step's label, and its run over a list of
labels is `Transition.exec`. A *nondeterministic* one is a relation, and its runs
are `Transition.Run`.

Each comes with the one induction its invariants need
(`Transition.exec_induction`, `Transition.Run.invariant`), the first with the rule for a part of
the system that runs by itself (`Transition.exec_component`), the second with the rule that
compares it with the first (`Transition.Run.simulates`), and with a way of asking a
condition of every step, in the state the step starts from: the predicate
`Transition.StepsMeet` for the first, the guarded relation
`Transition.Guarded` for the second. Conditional results – “in every run whose steps
all meet the condition …” – are stated with these.
-/

namespace Transition

variable {σ ι : Type*}

/-! ### Deterministic systems -/

section Exec

variable (f : σ → ι → σ)

/-- The state after a run. -/
def exec (s : σ) (ls : List ι) : σ := ls.foldl f s

@[simp] theorem exec_nil (s : σ) : exec f s [] = s := rfl

@[simp] theorem exec_cons (s : σ) (l : ι) (ls : List ι) :
    exec f s (l :: ls) = exec f (f s l) ls := rfl

@[simp] theorem exec_append (s : σ) (ls ls' : List ι) :
    exec f s (ls ++ ls') = exec f (exec f s ls) ls' := List.foldl_append ..

/-- **Induction along a run**, the newest step last: the statement may mention the
labels so far. -/
theorem exec_induction {s : σ} (P : List ι → σ → Prop) (hstart : P [] s)
    (hstep : ∀ ls l, P ls (exec f s ls) → P (ls ++ [l]) (f (exec f s ls) l)) (ls : List ι) :
    P ls (exec f s ls) := by
  induction ls using List.reverseRecOn with
  | nil => exact hstart
  | append_singleton ls l ih => simpa using hstep ls l ih

/-- **A component of a system** that changes with labels of its own, and with no other, runs by
itself. -/
theorem exec_component {τ κ : Type*} (see : σ → τ) (own : ι → Option κ) (g : τ → κ → τ)
    (hsee : ∀ s l, see (f s l) = ((own l).map (g (see s))).getD (see s)) (s : σ) (ls : List ι) :
    see (exec f s ls) = exec g (see s) (ls.filterMap own) := by
  induction ls generalizing s with
  | nil => rfl
  | cons l ls ih =>
    rw [exec_cons, ih, hsee]
    cases hl : own l with
    | none => rw [List.filterMap_cons_none hl, Option.map_none, Option.getD_none]
    | some k => rw [List.filterMap_cons_some hl, Option.map_some, Option.getD_some, exec_cons]

/-- Every step of a run meets a condition, in the state it starts from. -/
def StepsMeet (g : σ → ι → Prop) : σ → List ι → Prop
  | _, [] => True
  | s, l :: ls => g s l ∧ StepsMeet g (f s l) ls

instance StepsMeet.decidable (g : σ → ι → Prop) [∀ s l, Decidable (g s l)] :
    ∀ s ls, Decidable (StepsMeet f g s ls)
  | _, [] => isTrue trivial
  | s, l :: ls => @instDecidableAnd _ _ _ (StepsMeet.decidable g (f s l) ls)

variable {f} {g g' : σ → ι → Prop}

@[simp] theorem stepsMeet_nil (s : σ) : StepsMeet f g s [] := trivial

@[simp] theorem stepsMeet_cons {s : σ} {l : ι} {ls : List ι} :
    StepsMeet f g s (l :: ls) ↔ g s l ∧ StepsMeet f g (f s l) ls := Iff.rfl

theorem stepsMeet_append {s : σ} {ls ls' : List ι} :
    StepsMeet f g s (ls ++ ls') ↔ StepsMeet f g s ls ∧ StepsMeet f g (exec f s ls) ls' := by
  induction ls generalizing s with
  | nil => simp
  | cons l ls ih => simp [ih, and_assoc]

/-- The condition, read off at any step of the run. -/
theorem stepsMeet_iff_forall {s : σ} {ls : List ι} :
    StepsMeet f g s ls ↔ ∀ pre l post, ls = pre ++ l :: post → g (exec f s pre) l := by
  constructor
  · rintro h pre l post rfl
    exact (stepsMeet_append.mp h).2.1
  · intro h
    induction ls generalizing s with
    | nil => trivial
    | cons l ls ih =>
      exact ⟨h [] l ls rfl, ih fun pre l' post he => h (l :: pre) l' post (by rw [he]; rfl)⟩

/-- **Two conditions agree along a run** when they agree in every state of an
invariant that a step meeting the first one preserves. -/
theorem stepsMeet_congr (I : σ → Prop) (hagree : ∀ s l, I s → (g s l ↔ g' s l))
    (hinv : ∀ s l, I s → g s l → I (f s l)) :
    ∀ {s : σ} {ls : List ι}, I s → (StepsMeet f g s ls ↔ StepsMeet f g' s ls)
  | _, [], _ => Iff.rfl
  | s, l :: ls, hs => by
    rw [stepsMeet_cons, stepsMeet_cons, ← hagree s l hs]
    exact and_congr_right fun hg => stepsMeet_congr I hagree hinv (hinv s l hs hg)

/-- **The invariant rule**, for runs whose steps all meet a condition. -/
theorem StepsMeet.invariant (I : σ → Prop) (hinv : ∀ s l, I s → g s l → I (f s l)) {s : σ}
    {ls : List ι} (h : StepsMeet f g s ls) (hs : I s) : I (exec f s ls) := by
  induction ls generalizing s with
  | nil => exact hs
  | cons l ls ih => exact ih h.2 (hinv s l hs h.1)

end Exec

/-! ### Nondeterministic systems -/

section Run

variable {step : σ → ι → σ → Prop}

/-- A finite run, the newest step last. -/
inductive Run (step : σ → ι → σ → Prop) (s : σ) : List ι → σ → Prop
  /-- Nothing has happened yet. -/
  | start : Run step s [] s
  /-- One more step. -/
  | snoc {ls : List ι} {s' : σ} {l : ι} {s'' : σ} :
      Run step s ls s' → step s' l s'' → Run step s (ls ++ [l]) s''

/-- The steps that start in a state meeting a condition. -/
def Guarded (step : σ → ι → σ → Prop) (g : σ → ι → Prop) : σ → ι → σ → Prop :=
  fun s l s' => g s l ∧ step s l s'

/-- **The invariant rule.** -/
theorem Run.invariant {s : σ} (I : σ → Prop) (hstart : I s)
    (hstep : ∀ s l s', I s → step s l s' → I s') {ls : List ι} {s' : σ} (h : Run step s ls s') :
    I s' := by
  induction h with
  | start => exact hstart
  | snoc _ hl ih => exact hstep _ _ _ ih hl

/-- **The invariant rule**, for an invariant of the states and the history, and runs whose labels
all meet a condition. -/
theorem Run.history_of_forall {s : σ} {p : ι → Prop} (I : List ι → σ → Prop) (hstart : I [] s)
    (hstep : ∀ ls s l s', I ls s → step s l s' → p l → I (ls ++ [l]) s') {ls : List ι} {s' : σ}
    (h : Run step s ls s') (hls : ∀ l ∈ ls, p l) : I ls s' := by
  induction h with
  | start => exact hstart
  | snoc _ hl ih =>
    refine hstep _ _ _ _ (ih fun l hmem => hls l (List.mem_append_left _ hmem)) hl ?_
    exact hls _ (List.mem_append_right _ List.mem_cons_self)

/-- **The invariant rule**, for runs whose labels all meet a condition. -/
theorem Run.invariant_of_forall {s : σ} {p : ι → Prop} (I : σ → Prop) (hstart : I s)
    (hstep : ∀ s l s', I s → step s l s' → p l → I s') {ls : List ι} {s' : σ}
    (h : Run step s ls s') (hls : ∀ l ∈ ls, p l) : I s' :=
  Run.history_of_forall (fun _ => I) hstart (fun _ => hstep) h hls

/-- **The simulation rule**: what is seen of the states changes as a deterministic system
does, as long as an invariant holds. -/
theorem Run.simulates {τ : Type*} {s : σ} (I : σ → Prop) (see : σ → τ) (f : τ → ι → τ)
    (hstart : I s) (hstep : ∀ s l s', I s → step s l s' → I s' ∧ see s' = f (see s) l)
    {ls : List ι} {s' : σ} (h : Run step s ls s') : I s' ∧ see s' = exec f (see s) ls := by
  induction h with
  | start => exact ⟨hstart, rfl⟩
  | snoc _ hl ih =>
    obtain ⟨hinv, hsee⟩ := hstep _ _ _ ih.1 hl
    exact ⟨hinv, by rw [exec_append, ← ih.2, hsee, exec_cons, exec_nil]⟩

/-- A run of one step. -/
theorem Run.single {s s' : σ} {l : ι} (h : step s l s') : Run step s [l] s' := Run.start.snoc h

end Run

end Transition
