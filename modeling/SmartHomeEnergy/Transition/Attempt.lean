import Mathlib.Data.List.ReduceOption

/-!
# Attempts: work on a state that may raise on the way

A statement sequence works on a state that outlives it – a database – and may raise
at any statement. An exception does not undo what was done before it, so an attempt
returns the state it leaves behind *and* whether it raised (`Transition.Attempt`).
Whoever catches the exception keeps the state and forgets that it was raised
(`Transition.Attempt.caught`); an attempt that goes on stops at the first exception
(`Transition.Attempt.bind`).

A loop that has no state of its own is a `mapM`: it raises when one of its rounds does, and
what the rounds return is collected (`Transition.mapM_reduceOption`).
-/

namespace Transition

/-- The state an attempt leaves behind, and whether it raised. -/
structure Attempt (σ : Type*) where
  state : σ
  raised : Bool

namespace Attempt

variable {σ : Type*}

/-- Nothing happened yet. -/
def done (s : σ) : Attempt σ := ⟨s, false⟩

/-- An exception, in the given state. -/
def raise (s : σ) : Attempt σ := ⟨s, true⟩

/-- One attempt after the other, unless the first one raised. -/
def bind (a : Attempt σ) (f : σ → Attempt σ) : Attempt σ := if a.raised then a else f a.state

/-- The exception is caught and dropped. -/
def caught (a : Attempt σ) : Attempt σ := ⟨a.state, false⟩

/-- A statement that leaves the state alone and may raise. -/
def check (fails : Bool) (s : σ) : Attempt σ := ⟨s, fails⟩

@[simp] theorem done_state (s : σ) : (done s).state = s := rfl

@[simp] theorem done_raised (s : σ) : (done s).raised = false := rfl

@[simp] theorem raise_state (s : σ) : (raise s).state = s := rfl

@[simp] theorem raise_raised (s : σ) : (raise s).raised = true := rfl

@[simp] theorem caught_state (a : Attempt σ) : a.caught.state = a.state := rfl

@[simp] theorem caught_raised (a : Attempt σ) : a.caught.raised = false := rfl

@[simp] theorem check_true (s : σ) : check true s = raise s := rfl

@[simp] theorem check_false (s : σ) : check false s = done s := rfl

@[simp] theorem done_bind (s : σ) (f : σ → Attempt σ) : (done s).bind f = f s := rfl

@[simp] theorem raise_bind (s : σ) (f : σ → Attempt σ) : (raise s).bind f = raise s := rfl

end Attempt

/-! ### Loops that may raise -/

/-- **A loop** that collects what some of its rounds return, when no round raises. -/
theorem mapM_reduceOption {α β : Type*} (g : α → Option (Option β)) : ∀ l : List α,
    (l.mapM g).map List.reduceOption =
      if ∃ a ∈ l, g a = none then none else some (l.filterMap fun a => (g a).join)
  | [] => by simp
  | a :: l => by
    have ih := mapM_reduceOption g l
    cases ha : g a with
    | none => simp [ha]
    | some x =>
      by_cases hl : ∃ b ∈ l, g b = none
      · rw [if_pos hl, Option.map_eq_none_iff] at ih
        simp [ha, ih, hl]
      · rw [if_neg hl] at ih
        obtain ⟨out, hout, hreduce⟩ := Option.map_eq_some_iff.mp ih
        cases x <;> simp [ha, hout, hl, List.reduceOption_cons_of_none, hreduce]

/-- What such a loop collects is returned by one of its rounds. -/
theorem exists_of_mem_mapM {α β : Type*} {g : α → Option β} : ∀ {l : List α} {out : List β},
    l.mapM g = some out → ∀ b ∈ out, ∃ a ∈ l, g a = some b
  | [], out, h, b, hb => by
    obtain rfl : [] = out := Option.some.inj h
    exact absurd hb List.not_mem_nil
  | a :: l, out, h, b, hb => by
    rw [List.mapM_cons] at h
    obtain ⟨x, hx, h⟩ := Option.bind_eq_some_iff.mp h
    obtain ⟨rest, hrest, h⟩ := Option.bind_eq_some_iff.mp h
    obtain rfl : x :: rest = out := Option.some.inj h
    rcases List.mem_cons.mp hb with rfl | hb
    · exact ⟨a, List.mem_cons_self, hx⟩
    · obtain ⟨a', ha', he⟩ := exists_of_mem_mapM hrest b hb
      exact ⟨a', List.mem_cons_of_mem _ ha', he⟩

end Transition
