import Mathlib.Data.List.ReduceOption
import Mathlib.Algebra.BigOperators.Group.List.Basic
import Mathlib.Algebra.Field.Defs
import Mathlib.Algebra.Order.BigOperators.Group.List
import Mathlib.Algebra.Order.Field.Basic
import Mathlib.Data.Nat.Cast.Basic
import Mathlib.Tactic.LinearCombination

/-!
# Aggregates and joins over nullable columns

`sum`, `avg` and `max` skip the nulls of a group and are null only when nothing is left;
`first` takes the value of the first row, null or not. The lemmas here say how a
nullable sum behaves once nulls are read as zeros
(`Relational.getD_nullSum`), which is how a total of totals is computed.

A left join returns each left row once for each match, and once with nothing on
the right when there is none (`Relational.leftJoin`).
-/

namespace Relational

/-! ### Aggregates -/

section Sum

variable {M : Type*} [AddCommMonoid M]

/-- The sum of a nullable column: null when every value is. -/
def nullSum (xs : List (Option M)) : Option M :=
  if xs.reduceOption = [] then none else some xs.reduceOption.sum

theorem getD_nullSum_eq (xs : List (Option M)) : (nullSum xs).getD 0 = xs.reduceOption.sum := by
  unfold nullSum
  split
  next h => simp [h]
  next => rfl

/-- **A nullable sum, nulls read as zeros.** -/
theorem getD_nullSum (xs : List (Option M)) :
    (nullSum xs).getD 0 = (xs.map fun x => x.getD 0).sum := by
  rw [getD_nullSum_eq]
  induction xs with
  | nil => rfl
  | cons x xs ih => cases x <;> simp [ih]

/-- A sum over a group with a value in it is not null. -/
theorem nullSum_eq_some_of_mem {xs : List (Option M)} {x : M} (h : some x ∈ xs) :
    nullSum xs = some xs.reduceOption.sum :=
  if_neg (List.ne_nil_of_mem (List.reduceOption_mem_iff.mpr h))

/-- The same sum, nulls read as zeros. -/
theorem nullSum_of_mem {xs : List (Option M)} {x : M} (h : some x ∈ xs) :
    nullSum xs = some (xs.map fun x => x.getD 0).sum := by
  rw [← getD_nullSum, nullSum_eq_some_of_mem h, Option.getD_some]

/-- The sum of a column without nulls. -/
theorem nullSum_map_some {α : Type*} {l : List α} (hne : l ≠ []) (f : α → M) :
    nullSum (l.map fun a => some (f a)) = some (l.map f).sum := by
  obtain ⟨a, ha⟩ := List.exists_mem_of_ne_nil l hne
  have hmem : some (f a) ∈ l.map fun a => some (f a) := List.mem_map.mpr ⟨a, ha, rfl⟩
  rw [nullSum_of_mem hmem, List.map_map]
  rfl

/-- A nullable sum is null exactly when every value is. -/
theorem nullSum_eq_none {xs : List (Option M)} : nullSum xs = none ↔ ∀ x ∈ xs, x = none := by
  constructor
  · intro h x hx
    cases x with
    | none => rfl
    | some v =>
      rw [nullSum_eq_some_of_mem hx] at h
      exact absurd h (by simp)
  · intro h
    refine if_pos (List.eq_nil_iff_forall_not_mem.mpr fun v hv => ?_)
    exact absurd (h _ (List.reduceOption_mem_iff.mp hv)) (by simp)

/-- Nulls and zeros add nothing to a sum, as long as they do not bring in its first
value. -/
theorem nullSum_append_of_zeros {xs ys : List (Option M)} (hx : ∀ x ∈ xs, x = none ∨ x = some 0)
    (hy : (∃ x ∈ xs, x ≠ none) → ∃ y ∈ ys, y ≠ none) : nullSum (xs ++ ys) = nullSum ys := by
  have hzero : xs.reduceOption.sum = 0 := by
    rw [← getD_nullSum_eq, getD_nullSum]
    refine List.sum_eq_zero fun m hm => ?_
    obtain ⟨x, hxm, rfl⟩ := List.mem_map.mp hm
    rcases hx x hxm with rfl | rfl <;> rfl
  by_cases hall : ∀ x ∈ xs ++ ys, x = none
  · rw [nullSum_eq_none.mpr hall,
      nullSum_eq_none.mpr fun y hym => hall y (List.mem_append_right _ hym)]
  · have hys : ∃ y ∈ ys, y ≠ none := by
      push Not at hall
      obtain ⟨x, hxm, hne⟩ := hall
      rcases List.mem_append.mp hxm with h | h
      · exact hy ⟨x, h, hne⟩
      · exact ⟨x, h, hne⟩
    obtain ⟨y, hym, hne⟩ := hys
    obtain ⟨v, rfl⟩ := Option.ne_none_iff_exists'.mp hne
    rw [nullSum_eq_some_of_mem hym, nullSum_eq_some_of_mem (List.mem_append_right xs hym),
      List.reduceOption_append, List.sum_append, hzero, zero_add]

/-- A nullable sum does not depend on the order of the rows. -/
theorem nullSum_perm {xs ys : List (Option M)} (h : xs.Perm ys) : nullSum xs = nullSum ys := by
  have hr : xs.reduceOption.Perm ys.reduceOption := h.filterMap id
  simp only [nullSum, ← List.length_eq_zero_iff, hr.length_eq, hr.sum_eq]

end Sum

section Avg

variable {K : Type*} [DivisionRing K]

/-- The mean of a nullable column: null when every value is. -/
def nullAvg (xs : List (Option K)) : Option K :=
  if xs.reduceOption = [] then none
  else some (xs.reduceOption.sum / (xs.reduceOption.length : K))

/-- A mean over a group with a value in it is not null. -/
theorem nullAvg_eq_some_of_mem {xs : List (Option K)} {x : K} (h : some x ∈ xs) :
    nullAvg xs = some (xs.reduceOption.sum / (xs.reduceOption.length : K)) :=
  if_neg (List.ne_nil_of_mem (List.reduceOption_mem_iff.mpr h))

/-- A mean does not depend on the order of the rows. -/
theorem nullAvg_perm {xs ys : List (Option K)} (h : xs.Perm ys) : nullAvg xs = nullAvg ys := by
  have hr : xs.reduceOption.Perm ys.reduceOption := h.filterMap id
  simp only [nullAvg, ← List.length_eq_zero_iff, hr.length_eq, hr.sum_eq]

/-- **A copy of a value keeps the mean** exactly when the value is the mean. -/
theorem nullAvg_cons_iff {K : Type*} [Field K] [CharZero K] {x : Option K} {xs : List (Option K)}
    (hx : x ∈ xs) : nullAvg (x :: xs) = nullAvg xs ↔
      ∀ p, x = some p → xs.reduceOption.sum = xs.reduceOption.length * p := by
  cases x with
  | none => simp [nullAvg, List.reduceOption_cons_of_none]
  | some p =>
    have hlength : (xs.reduceOption.length : K) ≠ 0 :=
      Nat.cast_ne_zero.mpr (List.length_pos_of_mem (List.reduceOption_mem_iff.mpr hx)).ne'
    have hlength' : (xs.reduceOption.length : K) + 1 ≠ 0 := Nat.cast_add_one_ne_zero _
    rw [nullAvg_eq_some_of_mem hx, nullAvg_eq_some_of_mem List.mem_cons_self,
      List.reduceOption_cons_of_some, List.sum_cons, List.length_cons, Option.some.injEq,
      Nat.cast_succ, div_eq_div_iff hlength' hlength]
    constructor
    · rintro h q ⟨⟩
      linear_combination -h
    · intro h
      linear_combination -(h p rfl)

/-- **The mean of nonnegative values** is nonnegative, and zero only when they all are. -/
theorem nullAvg_of_nonneg {K : Type*} [Field K] [LinearOrder K] [IsStrictOrderedRing K]
    {xs : List (Option K)} (hne : xs ≠ []) (h : ∀ x ∈ xs, ∃ v, x = some v ∧ 0 ≤ v) :
    ∃ w, nullAvg xs = some w ∧ 0 ≤ w ∧ (w = 0 ↔ ∀ x ∈ xs, x = some 0) := by
  obtain ⟨x, hx⟩ := List.exists_mem_of_ne_nil xs hne
  obtain ⟨v, rfl, -⟩ := h x hx
  have hv : v ∈ xs.reduceOption := List.reduceOption_mem_iff.mpr hx
  have hnonneg : ∀ y ∈ xs.reduceOption, 0 ≤ y := by
    intro y hy
    obtain ⟨y', he, hy'⟩ := h _ (List.reduceOption_mem_iff.mp hy)
    rwa [Option.some.inj he]
  have hlength : (xs.reduceOption.length : K) ≠ 0 :=
    Nat.cast_ne_zero.mpr (List.length_pos_of_mem hv).ne'
  refine ⟨_, nullAvg_eq_some_of_mem hx,
    div_nonneg (List.sum_nonneg hnonneg) (Nat.cast_nonneg _), ?_⟩
  rw [div_eq_zero_iff, or_iff_left hlength]
  constructor
  · intro hsum y hy
    obtain ⟨y', rfl, -⟩ := h y hy
    rw [List.all_zero_of_le_zero_le_of_sum_eq_zero hnonneg hsum (List.reduceOption_mem_iff.mpr hy)]
  · intro hall
    refine List.sum_eq_zero fun y hy => ?_
    exact Option.some.inj (hall _ (List.reduceOption_mem_iff.mp hy))

end Avg

section Max

variable {K : Type*} [Field K] [LinearOrder K] [IsStrictOrderedRing K] {xs : List (Option K)}

/-- The largest value of a nullable column: null when every value is. -/
def nullMax {K : Type*} [LinearOrder K] (xs : List (Option K)) : Option K := xs.reduceOption.max?

omit [Field K] [IsStrictOrderedRing K] in
theorem nullMax_eq_some {m : K} :
    nullMax xs = some m ↔ some m ∈ xs ∧ ∀ x, some x ∈ xs → x ≤ m := by
  simp only [nullMax, List.max?_eq_some_iff, List.reduceOption_mem_iff]

/-- **A mean is at most what none of the values exceeds.** -/
theorem nullAvg_le {w m : K} (hw : nullAvg xs = some w) (hm : ∀ x, some x ∈ xs → x ≤ m) :
    w ≤ m := by
  rw [nullAvg] at hw
  split at hw
  next => exact absurd hw (by simp)
  next hne =>
    have hpos : (0 : K) < xs.reduceOption.length :=
      Nat.cast_pos.mpr (List.length_pos_iff.mpr hne)
    have hsum : xs.reduceOption.sum ≤ xs.reduceOption.length • m :=
      List.sum_le_card_nsmul _ _ fun x hx => hm x (List.reduceOption_mem_iff.mp hx)
    rw [← Option.some.inj hw, div_le_iff₀ hpos, mul_comm]
    simpa using hsum

/-- **The mean is at most the maximum.** -/
theorem nullAvg_le_nullMax {w m : K} (hw : nullAvg xs = some w) (hm : nullMax xs = some m) :
    w ≤ m := by
  obtain ⟨hmem, hle⟩ := nullMax_eq_some.mp hm
  rw [nullAvg_eq_some_of_mem hmem, Option.some.injEq] at hw
  have hpos : (0 : K) < xs.reduceOption.length :=
    Nat.cast_pos.mpr (List.length_pos_of_mem (List.reduceOption_mem_iff.mpr hmem))
  have hsum : xs.reduceOption.sum ≤ xs.reduceOption.length • m :=
    List.sum_le_card_nsmul _ _ fun x hx => hle x (List.reduceOption_mem_iff.mp hx)
  rw [← hw, div_le_iff₀ hpos, mul_comm]
  simpa [nsmul_eq_mul] using hsum

end Max

/-- The value of the first row of a column, null when that row's value is. -/
def first {α : Type*} (xs : List (Option α)) : Option α := xs.head?.join

/-! ### Left joins -/

section Join

variable {α β : Type*}

/-- The right rows matching one left row, padded with a null row when there is
none. -/
def joinMatches (on : α → β → Prop) [∀ a, DecidablePred (on a)] (r : List β) (a : α) :
    List (Option β) :=
  match r.filter fun b => on a b with
  | [] => [none]
  | bs => bs.map some

/-- **A left join**: each left row with each of its matches. -/
def leftJoin (on : α → β → Prop) [∀ a, DecidablePred (on a)] (l : List α) (r : List β) :
    List (α × Option β) :=
  l.flatMap fun a => (joinMatches on r a).map fun b => (a, b)

variable (on : α → β → Prop) [∀ a, DecidablePred (on a)] (r : List β)

/-- A left join loses no left row. -/
theorem joinMatches_ne_nil (a : α) : joinMatches on r a ≠ [] := by
  rw [joinMatches]
  split <;> simp_all

/-- As many rows as there are matches, and one when there is none. -/
theorem length_joinMatches (a : α) :
    (joinMatches on r a).length = r.countP (fun b => on a b) - 1 + 1 := by
  rw [joinMatches, List.countP_eq_length_filter]
  cases hm : r.filter fun b => on a b <;> simp

/-- What a left row is joined with: its matches. -/
theorem some_mem_joinMatches {a : α} {b : β} : some b ∈ joinMatches on r a ↔ b ∈ r ∧ on a b := by
  have hm : b ∈ (r.filter fun b => on a b) ↔ b ∈ r ∧ on a b := by simp
  rw [joinMatches, ← hm]
  split
  next h => simp [h]
  next => simp

theorem leftJoin_append (l₁ l₂ : List α) :
    leftJoin on (l₁ ++ l₂) r = leftJoin on l₁ r ++ leftJoin on l₂ r :=
  List.flatMap_append ..

/-- Left rows may be converted before or after the join, if it looks at what the
conversion keeps. -/
theorem leftJoin_map {γ : Type*} (f : γ → α) (l : List γ) :
    leftJoin on (l.map f) r =
      (leftJoin (fun c => on (f c)) l r).map fun p => (f p.1, p.2) := by
  rw [leftJoin, leftJoin, List.flatMap_map, List.map_flatMap]
  refine List.flatMap_congr fun c _ => ?_
  rw [List.map_map]
  rfl

/-- Counting joined rows by what stands on the left. -/
theorem countP_leftJoin (q : α → Prop) [DecidablePred q] (l : List α) :
    (leftJoin on l r).countP (fun p => q p.1) =
      ((l.filter fun a => q a).map fun a => (joinMatches on r a).length).sum := by
  induction l with
  | nil => rfl
  | cons a l ih =>
    rw [leftJoin, List.flatMap_cons, List.countP_append, List.countP_map, ← leftJoin, ih]
    by_cases ha : q a
    · rw [List.filter_cons_of_pos (by simpa using ha), List.map_cons, List.sum_cons]
      simp [Function.comp_def, ha, List.countP_true]
    · rw [List.filter_cons_of_neg (by simpa using ha)]
      simp [Function.comp_def, ha]

/-- **A join with at most one match** has every left row once. -/
theorem map_fst_leftJoin {l : List α} (h : ∀ a ∈ l, r.countP (fun b => on a b) ≤ 1) :
    (leftJoin on l r).map Prod.fst = l := by
  rw [leftJoin, List.map_flatMap]
  refine (List.flatMap_congr fun a ha => ?_).trans (List.flatMap_singleton' l)
  have hlength : (joinMatches on r a).length = 1 := by
    have hle := h a ha
    rw [length_joinMatches]
    omega
  obtain ⟨b, hb⟩ := List.length_eq_one_iff.mp hlength
  rw [hb]
  rfl

theorem leftJoin_perm {l l' : List α} (h : l.Perm l') : (leftJoin on l r).Perm (leftJoin on l' r) :=
  h.flatMap_right _

theorem mem_leftJoin {l : List α} {p : α × Option β} :
    p ∈ leftJoin on l r ↔ p.1 ∈ l ∧ p.2 ∈ joinMatches on r p.1 := by
  obtain ⟨a, b⟩ := p
  simp only [leftJoin, List.mem_flatMap, List.mem_map, Prod.mk.injEq]
  exact ⟨fun ⟨x, hx, y, hy, he, hb⟩ => ⟨he ▸ hx, he ▸ hb ▸ hy⟩,
    fun ⟨ha, hb⟩ => ⟨a, ha, b, hb, rfl, rfl⟩⟩

end Join

end Relational
