import Mathlib.Data.Rat.Floor
import Mathlib.Algebra.Order.Field.Rat
import Mathlib.Tactic.Linarith
import Mathlib.Tactic.Positivity
import Mathlib.Tactic.FieldSimp
import Mathlib.Tactic.Ring

/-!
# Rounding to a number of decimals

Rounding to `d` decimals scales by `10 ^ d`, rounds to an integer and scales back
(`Numeric.roundTo`). Two ways of rounding to an integer occur in practice, and they
differ only at ties: `Numeric.halfUp` goes away from zero, `Numeric.halfEven` to the
even neighbour. What most arguments need of them is one property they share,
`Numeric.Nearest`: the result is at most one half away. From it follow the error of
`Numeric.roundTo` and the fact that rounding does not cross a value that already
has `d` decimals.
-/

namespace Numeric

/-- Round to an integer, ties away from zero. -/
def halfUp (x : ℚ) : ℤ := if 0 ≤ x then ⌊x + 1 / 2⌋ else -⌊-x + 1 / 2⌋

/-- Round to an integer, ties to the even one. -/
def halfEven (x : ℚ) : ℤ :=
  if x - ⌊x⌋ < 1 / 2 then ⌊x⌋
  else if 1 / 2 < x - ⌊x⌋ then ⌊x⌋ + 1
  else if ⌊x⌋ % 2 = 0 then ⌊x⌋ else ⌊x⌋ + 1

/-- Round to `d` decimals. -/
def roundTo (mode : ℚ → ℤ) (d : ℕ) (x : ℚ) : ℚ := (mode (x * 10 ^ d) : ℚ) / 10 ^ d

/-- A way of rounding that moves a value by at most one half. -/
def Nearest (mode : ℚ → ℤ) : Prop := ∀ x : ℚ, |(mode x : ℚ) - x| ≤ 1 / 2

theorem nearest_halfUp : Nearest halfUp := by
  intro x
  rw [halfUp, abs_le]
  split
  next =>
    have h1 := Int.floor_le (x + 1 / 2)
    have h2 := Int.lt_floor_add_one (x + 1 / 2)
    constructor <;> linarith
  next =>
    have h1 := Int.floor_le (-x + 1 / 2)
    have h2 := Int.lt_floor_add_one (-x + 1 / 2)
    push_cast
    constructor <;> linarith

theorem nearest_halfEven : Nearest halfEven := by
  intro x
  have h1 := Int.floor_le x
  have h2 := Int.lt_floor_add_one x
  rw [halfEven, abs_le]
  split_ifs <;> push_cast <;> constructor <;> linarith

section Nearest

variable {mode : ℚ → ℤ} (hm : Nearest mode)

include hm

/-- Rounding to an integer does not cross one. -/
theorem Nearest.le_of_le {x : ℚ} {n : ℤ} (h : x ≤ n) : mode x ≤ n := by
  have h1 := (abs_le.mp (hm x)).2
  have h2 : (mode x : ℚ) < (n + 1 : ℤ) := by
    push_cast
    linarith
  exact Int.lt_add_one_iff.mp (Int.cast_lt.mp h2)

/-- Rounding to an integer does not cross one. -/
theorem Nearest.le_of_ge {x : ℚ} {n : ℤ} (h : (n : ℚ) ≤ x) : n ≤ mode x := by
  have h1 := (abs_le.mp (hm x)).1
  have h2 : (n : ℚ) < (mode x + 1 : ℤ) := by
    push_cast
    linarith
  exact Int.lt_add_one_iff.mp (Int.cast_lt.mp h2)

/-- **The error of rounding to `d` decimals.** -/
theorem abs_roundTo_sub_le (d : ℕ) (x : ℚ) : |roundTo mode d x - x| ≤ 1 / (2 * 10 ^ d) := by
  have hp : (0 : ℚ) < 10 ^ d := by positivity
  have he : roundTo mode d x - x = ((mode (x * 10 ^ d) : ℚ) - x * 10 ^ d) / 10 ^ d := by
    rw [roundTo]
    field_simp
  rw [he, abs_div, abs_of_pos hp, div_le_iff₀ hp]
  calc |(mode (x * 10 ^ d) : ℚ) - x * 10 ^ d| ≤ 1 / 2 := hm _
    _ = 1 / (2 * 10 ^ d) * 10 ^ d := by field_simp

/-- Rounding does not rise above a value that has `d` decimals. -/
theorem roundTo_le {d : ℕ} {x : ℚ} {n : ℤ} (h : x ≤ n / 10 ^ d) :
    roundTo mode d x ≤ n / 10 ^ d := by
  have hp : (0 : ℚ) < 10 ^ d := by positivity
  have hx : x * 10 ^ d ≤ n := (le_div_iff₀ hp).mp h
  exact div_le_div_of_nonneg_right (Int.cast_le.mpr (hm.le_of_le hx)) hp.le

/-- Rounding does not rise above an integer. -/
theorem roundTo_le_intCast {d : ℕ} {x : ℚ} {n : ℤ} (h : x ≤ n) : roundTo mode d x ≤ n := by
  have hp : (10 ^ d : ℚ) ≠ 0 := by positivity
  have hn : (n : ℚ) = ((n * 10 ^ d : ℤ) : ℚ) / 10 ^ d := by
    push_cast
    rw [mul_div_cancel_right₀ _ hp]
  rw [hn] at h ⊢
  exact roundTo_le hm h

/-- Rounding does not fall below a value that has `d` decimals. -/
theorem le_roundTo {d : ℕ} {x : ℚ} {n : ℤ} (h : n / 10 ^ d ≤ x) :
    n / 10 ^ d ≤ roundTo mode d x := by
  have hp : (0 : ℚ) < 10 ^ d := by positivity
  have hx : (n : ℚ) ≤ x * 10 ^ d := (div_le_iff₀ hp).mp h
  exact div_le_div_of_nonneg_right (Int.cast_le.mpr (hm.le_of_ge hx)) hp.le

/-- Rounding a second time changes nothing. -/
theorem roundTo_roundTo (d : ℕ) (x : ℚ) : roundTo mode d (roundTo mode d x) = roundTo mode d x := by
  have hp : (0 : ℚ) < 10 ^ d := by positivity
  have hscaled : roundTo mode d x * 10 ^ d = mode (x * 10 ^ d) := div_mul_cancel₀ _ hp.ne'
  have hint : mode ((mode (x * 10 ^ d) : ℤ) : ℚ) = mode (x * 10 ^ d) :=
    le_antisymm (hm.le_of_le le_rfl) (hm.le_of_ge le_rfl)
  rw [roundTo, hscaled, hint]
  rfl

/-- Zero needs no rounding. -/
theorem roundTo_zero (d : ℕ) : roundTo mode d 0 = 0 := by
  have h0 : mode 0 = 0 := le_antisymm (hm.le_of_le (by simp)) (hm.le_of_ge (by simp))
  simp [roundTo, h0]

/-- Rounding keeps a value nonnegative. -/
theorem roundTo_nonneg {d : ℕ} {x : ℚ} (h : 0 ≤ x) : 0 ≤ roundTo mode d x := by
  simpa using le_roundTo hm (d := d) (n := 0) (by simpa using h)

end Nearest

/-- Rounding to the even neighbour goes to one of the two neighbours. -/
theorem halfEven_bounds (x : ℚ) : ⌊x⌋ ≤ halfEven x ∧ halfEven x ≤ ⌊x⌋ + 1 := by
  rw [halfEven]
  split_ifs <;> omega

/-- **Rounding to the even neighbour keeps the order.** -/
theorem halfEven_le_halfEven {x y : ℚ} (h : x ≤ y) : halfEven x ≤ halfEven y := by
  rcases (Int.floor_le_floor h).lt_or_eq with hlt | heq
  · have hx := (halfEven_bounds x).2
    have hy := (halfEven_bounds y).1
    omega
  · -- between the same two integers the distance to the lower one decides
    have hfrac : x - ⌊x⌋ ≤ y - ⌊x⌋ := sub_le_sub_right h _
    rw [halfEven, halfEven, ← heq]
    split_ifs <;> first | omega | linarith

theorem roundTo_halfEven_mono {d : ℕ} {x y : ℚ} (h : x ≤ y) :
    roundTo halfEven d x ≤ roundTo halfEven d y := by
  have hp : (0 : ℚ) < 10 ^ d := by positivity
  have hscaled : x * 10 ^ d ≤ y * 10 ^ d := mul_le_mul_of_nonneg_right h hp.le
  exact div_le_div_of_nonneg_right (Int.cast_le.mpr (halfEven_le_halfEven hscaled)) hp.le

/-- Rounding to the even neighbour exceeds an even integer only more than one half
above it. -/
theorem lt_halfEven {x : ℚ} {n : ℤ} (hn : n % 2 = 0) : n < halfEven x ↔ (n : ℚ) + 1 / 2 < x := by
  have h1 := Int.floor_le x
  have h2 := Int.lt_floor_add_one x
  rcases lt_trichotomy ⌊x⌋ n with hlt | heq | hgt
  · have hx : (⌊x⌋ : ℚ) + 1 ≤ n := by exact_mod_cast hlt
    refine iff_of_false (not_lt.mpr ?_) (by linarith)
    rw [halfEven]
    split_ifs <;> omega
  · subst heq
    rw [halfEven, if_pos hn]
    split_ifs with hlow hhigh
    · exact iff_of_false (lt_irrefl _) (by linarith)
    · exact iff_of_true (by omega) (by linarith)
    · exact iff_of_false (lt_irrefl _) (by linarith)
  · have hx : (n : ℚ) + 1 ≤ ⌊x⌋ := by exact_mod_cast hgt
    refine iff_of_true ?_ (by linarith)
    rw [halfEven]
    split_ifs <;> omega

/-- Rounding two decimals to the even neighbour exceeds a whole number only more than
half a cent above it. -/
theorem lt_roundTo_halfEven {x : ℚ} {n : ℕ} : (n : ℚ) < roundTo halfEven 2 x ↔ n + 1 / 200 < x := by
  have hm : (n : ℚ) < roundTo halfEven 2 x ↔ ((n * 100 : ℤ) : ℚ) < (halfEven (x * 10 ^ 2) : ℚ) := by
    rw [roundTo, lt_div_iff₀ (by norm_num)]
    push_cast
    norm_num
  rw [hm, Int.cast_lt, lt_halfEven (by omega)]
  push_cast
  constructor <;> intro h <;> linarith

/-- **What rounds alike**: two nonnegative values round to the same one exactly when no tie
lies above one of them and not above the other. -/
theorem roundTo_halfUp_eq_iff {d : ℕ} {x y : ℚ} (hx : 0 ≤ x) (hy : 0 ≤ y) :
    roundTo halfUp d x = roundTo halfUp d y ↔
      ∀ n : ℤ, (n : ℚ) + 1 / 2 ≤ x * 10 ^ d ↔ (n : ℚ) + 1 / 2 ≤ y * 10 ^ d := by
  have hp : (0 : ℚ) < 10 ^ d := by positivity
  have hfloor : ∀ z : ℚ, 0 ≤ z → halfUp (z * 10 ^ d) = ⌊z * 10 ^ d + 1 / 2⌋ := fun z hz =>
    if_pos (mul_nonneg hz hp.le)
  have hshift : ∀ (z : ℚ) (n : ℤ), n + 1 ≤ ⌊z * 10 ^ d + 1 / 2⌋ ↔ (n : ℚ) + 1 / 2 ≤ z * 10 ^ d := by
    intro z n
    rw [Int.le_floor]
    push_cast
    constructor <;> intro h <;> linarith
  rw [roundTo, roundTo, div_left_inj' hp.ne', Int.cast_inj, hfloor x hx, hfloor y hy]
  constructor
  · intro he n
    rw [← hshift, ← hshift, he]
  · intro hties
    refine eq_of_forall_le_iff fun m => ?_
    have hm := hties (m - 1)
    rwa [← hshift, ← hshift, sub_add_cancel] at hm

/-- What lies below half of the last decimal rounds to zero. -/
theorem roundTo_halfUp_eq_zero {d : ℕ} {x : ℚ} (hx : 0 ≤ x) (h : x * 10 ^ d < 1 / 2) :
    roundTo halfUp d x = 0 := by
  have hscaled : 0 ≤ x * 10 ^ d := by positivity
  have hfloor : ⌊x * 10 ^ d + 1 / 2⌋ = 0 := Int.floor_eq_zero_iff.mpr ⟨by linarith, by linarith⟩
  rw [roundTo, halfUp, if_pos hscaled, hfloor, Int.cast_zero, zero_div]

/-- Values that round alike lie between the same two ties. -/
theorem exists_tie_of_roundTo_halfUp_eq {d : ℕ} {x y : ℚ} (hx : 0 ≤ x) (hy : 0 ≤ y)
    (h : roundTo halfUp d x = roundTo halfUp d y) :
    ∃ n : ℤ, ∀ z ∈ [x, y], (n : ℚ) + 1 / 2 ≤ z * 10 ^ d ∧ z * 10 ^ d < n + 3 / 2 := by
  have hties := (roundTo_halfUp_eq_iff hx hy).mp h
  -- the last tie that one of them reaches
  have hlow : (⌊y * 10 ^ d - 1 / 2⌋ : ℚ) ≤ y * 10 ^ d - 1 / 2 := Int.floor_le _
  have hhigh : y * 10 ^ d - 1 / 2 < ⌊y * 10 ^ d - 1 / 2⌋ + 1 := Int.lt_floor_add_one _
  have hnext := (hties (⌊y * 10 ^ d - 1 / 2⌋ + 1)).not
  push_cast at hnext
  refine ⟨⌊y * 10 ^ d - 1 / 2⌋, ?_⟩
  rw [List.forall_mem_cons, List.forall_mem_singleton]
  refine ⟨⟨(hties _).mpr (by linarith), ?_⟩, by linarith, by linarith⟩
  have hbelow := not_le.mp (hnext.mpr (by linarith))
  linarith

/-- Values that round alike differ by less than the last decimal. -/
theorem abs_sub_lt_of_roundTo_halfUp_eq {d : ℕ} {x y : ℚ} (hx : 0 ≤ x) (hy : 0 ≤ y)
    (h : roundTo halfUp d x = roundTo halfUp d y) : |x - y| * 10 ^ d < 1 := by
  obtain ⟨n, hn⟩ := exists_tie_of_roundTo_halfUp_eq hx hy h
  obtain ⟨hxlow, hxhigh⟩ := hn x (by simp)
  obtain ⟨hylow, hyhigh⟩ := hn y (by simp)
  have hp : (0 : ℚ) < 10 ^ d := by positivity
  rw [← abs_of_pos hp, ← abs_mul, sub_mul, abs_lt]
  constructor <;> linarith

/-- **Values that are far apart** – one at most a third of the other – round alike only where
both round to zero. -/
theorem lt_half_of_roundTo_halfUp_eq {d : ℕ} {x y : ℚ} (hx : 0 ≤ x) (hxy : 3 * x ≤ y)
    (h : roundTo halfUp d x = roundTo halfUp d y) : y * 10 ^ d < 1 / 2 := by
  obtain ⟨n, hn⟩ := exists_tie_of_roundTo_halfUp_eq hx (by linarith) h
  have hlow := (hn x (by simp)).1
  have hhigh := (hn y (by simp)).2
  have hscaled : 3 * (x * 10 ^ d) ≤ y * 10 ^ d := by
    rw [← mul_assoc]
    exact mul_le_mul_of_nonneg_right hxy (by positivity)
  -- the tie below both is negative, since the larger one is not three times above it
  have hneg : n < 0 := by
    have hneg' : (n : ℚ) < 0 := by linarith
    exact_mod_cast hneg'
  have hlast : (n : ℚ) + 1 ≤ 0 := by exact_mod_cast hneg
  linarith

/-- Rounding keeps the order of nonnegative values. -/
theorem roundTo_halfUp_mono {d : ℕ} {x y : ℚ} (hx : 0 ≤ x) (h : x ≤ y) :
    roundTo halfUp d x ≤ roundTo halfUp d y := by
  have hp : (0 : ℚ) < 10 ^ d := by positivity
  have hscaled : x * 10 ^ d ≤ y * 10 ^ d := mul_le_mul_of_nonneg_right h hp.le
  rw [roundTo, roundTo, halfUp, halfUp, if_pos (mul_nonneg hx hp.le),
    if_pos (mul_nonneg (hx.trans h) hp.le)]
  refine div_le_div_of_nonneg_right (Int.cast_le.mpr (Int.floor_le_floor ?_)) hp.le
  linarith

/-- **Accumulated rounding**: rounding each of `n` summands moves the sum by at most
`n` single errors. -/
theorem abs_sum_roundTo_sub_le {mode : ℚ → ℤ} (hm : Nearest mode) (d : ℕ) (xs : List ℚ) :
    |(xs.map (roundTo mode d)).sum - xs.sum| ≤ xs.length * (1 / (2 * 10 ^ d)) := by
  induction xs with
  | nil => simp
  | cons x xs ih =>
    have hx := abs_roundTo_sub_le hm d x
    have hsplit : ((x :: xs).map (roundTo mode d)).sum - (x :: xs).sum =
        (roundTo mode d x - x) + ((xs.map (roundTo mode d)).sum - xs.sum) := by
      simp only [List.map_cons, List.sum_cons]
      ring
    rw [hsplit, List.length_cons]
    push_cast
    calc |(roundTo mode d x - x) + ((xs.map (roundTo mode d)).sum - xs.sum)|
        ≤ |roundTo mode d x - x| + |(xs.map (roundTo mode d)).sum - xs.sum| := abs_add_le _ _
      _ ≤ (xs.length + 1) * (1 / (2 * 10 ^ d)) := by linarith

example : roundTo halfUp 2 1.005 = 1.01 ∧ roundTo halfEven 2 1.005 = 1 := by decide +kernel

end Numeric
