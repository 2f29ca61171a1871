import Mathlib.Data.Option.Basic

/-!
# Three-valued conditions

A condition over nullable columns is true, false or *unknown*, and a filter keeps
a row only when its condition is true. A condition is therefore an
`Option Bool`, with `none` for unknown, and what a filter asks of it is
`Relational.Tri.Holds`.

Negation does not turn “does not hold” into “holds”: an unknown condition is
unknown negated. So next to `Relational.Tri.Holds` stands
`Relational.Tri.Refuted`, and the two are pushed through the connectives together;
the simp set of this file takes a condition to plain statements about its columns.
-/

namespace Relational

/-- The truth value of a condition: `none` is unknown. -/
abbrev Tri := Option Bool

namespace Tri

/-- Conjunction: a false side decides it, whatever the other is. -/
def and : Tri → Tri → Tri
  | some false, _ => some false
  | _, some false => some false
  | some true, some true => some true
  | _, _ => none

/-- Disjunction: a true side decides it, whatever the other is. -/
def or : Tri → Tri → Tri
  | some true, _ => some true
  | _, some true => some true
  | some false, some false => some false
  | _, _ => none

/-- Negation: unknown stays unknown. -/
def not : Tri → Tri := Option.map Bool.not

/-- A condition holds when it is true – what a filter keeps a row for. -/
def Holds (c : Tri) : Prop := c = some true

/-- A condition is refuted when it is false, and not merely unknown. -/
def Refuted (c : Tri) : Prop := c = some false

instance (c : Tri) : Decidable c.Holds := inferInstanceAs (Decidable (c = some true))

instance (c : Tri) : Decidable c.Refuted := inferInstanceAs (Decidable (c = some false))

@[simp] theorem holds_and (c d : Tri) : (c.and d).Holds ↔ c.Holds ∧ d.Holds := by
  rcases c with _ | _ | _ <;> rcases d with _ | _ | _ <;> simp [and, Holds]

@[simp] theorem holds_or (c d : Tri) : (c.or d).Holds ↔ c.Holds ∨ d.Holds := by
  rcases c with _ | _ | _ <;> rcases d with _ | _ | _ <;> simp [or, Holds]

@[simp] theorem holds_not (c : Tri) : c.not.Holds ↔ c.Refuted := by
  rcases c with _ | _ | _ <;> simp [not, Holds, Refuted]

@[simp] theorem refuted_and (c d : Tri) : (c.and d).Refuted ↔ c.Refuted ∨ d.Refuted := by
  rcases c with _ | _ | _ <;> rcases d with _ | _ | _ <;> simp [and, Refuted]

@[simp] theorem refuted_or (c d : Tri) : (c.or d).Refuted ↔ c.Refuted ∧ d.Refuted := by
  rcases c with _ | _ | _ <;> rcases d with _ | _ | _ <;> simp [or, Refuted]

@[simp] theorem refuted_not (c : Tri) : c.not.Refuted ↔ c.Holds := by
  rcases c with _ | _ | _ <;> simp [not, Holds, Refuted]

end Tri

/-! ### Conditions on a column -/

section Columns

variable {α : Type*}

/-- A test of a column's value; a null column leaves it unknown. -/
def test (p : α → Prop) [DecidablePred p] (x : Option α) : Tri := x.map fun a => decide (p a)

/-- The column is not null: never unknown. -/
def isNotNull (x : Option α) : Tri := some x.isSome

variable (p : α → Prop) [DecidablePred p]

@[simp] theorem holds_test (x : Option α) : (test p x).Holds ↔ ∃ a, x = some a ∧ p a := by
  cases x <;> simp [test, Tri.Holds]

@[simp] theorem refuted_test (x : Option α) : (test p x).Refuted ↔ ∃ a, x = some a ∧ ¬p a := by
  cases x <;> simp [test, Tri.Refuted]

@[simp] theorem holds_isNotNull (x : Option α) : (isNotNull x).Holds ↔ ∃ a, x = some a := by
  cases x <;> simp [isNotNull, Tri.Holds]

@[simp] theorem refuted_isNotNull (x : Option α) : (isNotNull x).Refuted ↔ x = none := by
  cases x <;> simp [isNotNull, Tri.Refuted]

end Columns

end Relational
