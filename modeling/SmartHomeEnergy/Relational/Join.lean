import Mathlib.Data.List.ProdSigma
import SmartHomeEnergy.Relational.Aggregate
import SmartHomeEnergy.Relational.GroupBy

/-!
# Grouping a left join

A left join repeats a left row once for each of its matches, and an aggregate over the join
counts it that often. Where the rows of a group are all repeated equally often this does no
harm to a mean (`Relational.nullAvg_flatMap_replicate`), and a maximum does not count at all
(`Relational.nullMax_congr`).

The rows of a group are repeated equally often when they match the same right rows: the group
is then the product of its left rows with these matches (`Relational.leftJoin_of_uniform`). So
a query that joins, and then groups by what stands on the left, has the same groups as one that
does not join, and every left column has the same mean in it.
-/

namespace Relational

/-! ### Repeated rows -/

/-- **A mean does not see how often all rows are repeated.** -/
theorem nullAvg_flatMap_replicate {K : Type*} [Field K] [CharZero K] {n : ℕ} (hn : n ≠ 0)
    (xs : List (Option K)) : nullAvg (xs.flatMap (List.replicate n)) = nullAvg xs := by
  have hreduce : ∀ xs : List (Option K), (xs.flatMap (List.replicate n)).reduceOption =
      xs.reduceOption.flatMap (List.replicate n) := by
    intro xs
    induction xs with
    | nil => rfl
    | cons x xs ih =>
      rw [List.flatMap_cons, List.reduceOption_append, ih]
      cases x with
      | none => simp [List.reduceOption]
      | some x => simp [List.reduceOption]
  have hsum : ∀ ys : List K, (ys.flatMap (List.replicate n)).sum = n * ys.sum := by
    intro ys
    induction ys with
    | nil => simp
    | cons y ys ih =>
      rw [List.flatMap_cons, List.sum_append, ih, List.sum_replicate, List.sum_cons, nsmul_eq_mul,
        mul_add]
  have hlength : ∀ ys : List K, (ys.flatMap (List.replicate n)).length = n * ys.length := by
    intro ys
    simp [List.length_flatMap, mul_comm]
  have hnil : ∀ ys : List K, ys.flatMap (List.replicate n) = [] ↔ ys = [] := by
    intro ys
    rw [← List.length_eq_zero_iff, hlength, Nat.mul_eq_zero, or_iff_right hn,
      List.length_eq_zero_iff]
  rw [nullAvg, nullAvg, hreduce, hsum, hlength, Nat.cast_mul,
    mul_div_mul_left _ _ (Nat.cast_ne_zero.mpr hn)]
  simp only [hnil]

/-- A maximum sees only which values occur. -/
theorem nullMax_congr {K : Type*} [LinearOrder K] {xs ys : List (Option K)}
    (h : ∀ x, some x ∈ xs ↔ some x ∈ ys) : nullMax xs = nullMax ys := by
  refine Option.ext fun m => ?_
  simp only [nullMax, List.max?_eq_some_iff, List.reduceOption_mem_iff, h]

/-- A maximum over a group with a value in it is not null, and no smaller. -/
theorem exists_nullMax_of_mem {K : Type*} [LinearOrder K] {xs : List (Option K)} {x : K}
    (h : some x ∈ xs) : ∃ m, nullMax xs = some m ∧ some m ∈ xs ∧ x ≤ m := by
  cases hm : nullMax xs with
  | none =>
    rw [nullMax, List.max?_eq_none_iff] at hm
    exact absurd (hm ▸ List.reduceOption_mem_iff.mpr h) List.not_mem_nil
  | some m =>
    rw [nullMax, List.max?_eq_some_iff] at hm
    exact ⟨m, rfl, List.reduceOption_mem_iff.mp hm.1, hm.2 x (List.reduceOption_mem_iff.mpr h)⟩

/-- **Maxima that agree**: every value on one side has one on the other side that is no
smaller. -/
theorem nullMax_eq_nullMax_iff {K : Type*} [LinearOrder K] {xs ys : List (Option K)} :
    nullMax xs = nullMax ys ↔
      (∀ x, some x ∈ xs → ∃ y, some y ∈ ys ∧ x ≤ y) ∧
        ∀ y, some y ∈ ys → ∃ x, some x ∈ xs ∧ y ≤ x := by
  have hdominated : ∀ {xs ys : List (Option K)}, nullMax xs = nullMax ys →
      ∀ x, some x ∈ xs → ∃ y, some y ∈ ys ∧ x ≤ y := by
    intro xs ys he x hx
    obtain ⟨m, hm, -, hxm⟩ := exists_nullMax_of_mem hx
    rw [he, nullMax, List.max?_eq_some_iff] at hm
    exact ⟨m, List.reduceOption_mem_iff.mp hm.1, hxm⟩
  refine ⟨fun he => ⟨hdominated he, hdominated he.symm⟩, ?_⟩
  rintro ⟨hxy, hyx⟩
  cases hm : nullMax xs with
  | none =>
    -- neither side has a value
    have hnone : ys.reduceOption = [] := by
      refine List.eq_nil_iff_forall_not_mem.mpr fun y hy => ?_
      obtain ⟨x, hx, -⟩ := hyx y (List.reduceOption_mem_iff.mp hy)
      obtain ⟨m, hsome, -⟩ := exists_nullMax_of_mem hx
      exact absurd (hm.symm.trans hsome) (by simp)
    rw [nullMax, hnone]
    rfl
  | some m =>
    rw [nullMax, List.max?_eq_some_iff] at hm
    obtain ⟨y, hy, hmy⟩ := hxy m (List.reduceOption_mem_iff.mp hm.1)
    obtain ⟨w, hw, hwy, hyw⟩ := exists_nullMax_of_mem hy
    obtain ⟨x, hx, hwx⟩ := hyx w hwy
    have hxm : x ≤ m := hm.2 x (List.reduceOption_mem_iff.mpr hx)
    rw [hw, le_antisymm (hmy.trans hyw) (hwx.trans hxm)]

/-! ### Matches that are the same throughout a group -/

section Uniform

variable {α β κ γ : Type*} {on : α → β → Prop} [∀ a, DecidablePred (on a)] {r : List β}

/-- Left rows that match the same right rows are joined with the same ones. -/
theorem joinMatches_congr {a a' : α} (h : ∀ b ∈ r, on a b ↔ on a' b) :
    joinMatches on r a = joinMatches on r a' := by
  have hfilter : (r.filter fun b => on a b) = r.filter fun b => on a' b :=
    List.filter_congr fun b hb => decide_eq_decide.mpr (h b hb)
  rw [joinMatches, joinMatches, hfilter]

/-- **Left rows with the same matches** are joined with all of them. -/
theorem leftJoin_of_uniform {l : List α} {ms : List (Option β)}
    (h : ∀ a ∈ l, joinMatches on r a = ms) : leftJoin on l r = l ×ˢ ms :=
  List.flatMap_congr fun a ha => by rw [h a ha]

/-- The rows of a group of the join come from the rows of that group. -/
theorem groupRows_leftJoin [DecidableEq κ] (key : α → κ) (l : List α) (k : κ) :
    groupRows (fun p : α × Option β => key p.1) (leftJoin on l r) k =
      leftJoin on (groupRows key l k) r := by
  induction l with
  | nil => rfl
  | cons a l ih =>
    have hhead : leftJoin on (a :: l) r =
        (joinMatches on r a).map (fun b => (a, b)) ++ leftJoin on l r := rfl
    rw [hhead, groupRows_append, ih]
    by_cases ha : key a = k
    · have hall : groupRows (fun p : α × Option β => key p.1)
          ((joinMatches on r a).map fun b => (a, b)) k =
            (joinMatches on r a).map fun b => (a, b) :=
        List.filter_eq_self.mpr (by simp [ha])
      have hcons : groupRows key (a :: l) k = a :: groupRows key l k :=
        List.filter_cons_of_pos (by simpa using ha)
      rw [hall, hcons]
      rfl
    · have hnone : groupRows (fun p : α × Option β => key p.1)
          ((joinMatches on r a).map fun b => (a, b)) k = [] :=
        groupRows_eq_nil (by simp [ha])
      have hcons : groupRows key (a :: l) k = groupRows key l k :=
        List.filter_cons_of_neg (by simpa using ha)
      rw [hnone, hcons, List.nil_append]

/-- A join loses no group, and adds none. -/
theorem mem_groupKeys_leftJoin [DecidableEq κ] (key : α → κ) (l : List α) (k : κ) :
    k ∈ groupKeys (fun p : α × Option β => key p.1) (leftJoin on l r) ↔ k ∈ groupKeys key l := by
  rw [mem_groupKeys, mem_groupKeys]
  constructor
  · rintro ⟨p, hp, rfl⟩
    exact ⟨p.1, ((mem_leftJoin on r).mp hp).1, rfl⟩
  · rintro ⟨a, ha, rfl⟩
    obtain ⟨b, hb⟩ := List.exists_mem_of_ne_nil _ (joinMatches_ne_nil on r a)
    exact ⟨(a, b), (mem_leftJoin on r).mpr ⟨ha, hb⟩, rfl⟩

/-- **Grouping a join by what stands on the left** is grouping the left rows, when an output
row can be had from the left rows of its group. -/
theorem groupBy_leftJoin_perm [DecidableEq κ] {key : α → κ} {l : List α}
    {agg : κ → List (α × Option β) → γ} {agg' : κ → List α → γ}
    (h : ∀ k ∈ groupKeys key l,
      agg k (leftJoin on (groupRows key l k) r) = agg' k (groupRows key l k)) :
    (groupBy (fun p : α × Option β => key p.1) agg (leftJoin on l r)).Perm
      (groupBy key agg' l) := by
  have hkeys : (groupKeys (fun p : α × Option β => key p.1) (leftJoin on l r)).Perm
      (groupKeys key l) :=
    (List.perm_ext_iff_of_nodup (nodup_groupKeys ..) (nodup_groupKeys ..)).mpr
      (mem_groupKeys_leftJoin key l)
  refine (hkeys.map _).trans (List.Perm.of_eq (List.map_congr_left fun k hk => ?_))
  rw [groupRows_leftJoin]
  exact h k hk

/-- The mean of a left column, over rows that are joined with the same matches. -/
theorem nullAvg_product {K : Type*} [Field K] [CharZero K] {ms : List (Option β)} (hms : ms ≠ [])
    (f : α → Option K) (l : List α) :
    nullAvg ((l ×ˢ ms).map fun p => f p.1) = nullAvg (l.map f) := by
  have hrepeat : ((l ×ˢ ms).map fun p => f p.1) = (l.map f).flatMap (List.replicate ms.length) := by
    induction l with
    | nil => rfl
    | cons a l ih =>
      rw [List.product_cons, List.map_append, List.map_map, ih, List.map_cons, List.flatMap_cons]
      simp [Function.comp_def, List.map_const']
  rw [hrepeat, nullAvg_flatMap_replicate (List.length_eq_zero_iff.not.mpr hms)]

/-- The maximum of a right column, over rows that are joined with the same matches. -/
theorem nullMax_product {K : Type*} [LinearOrder K] {l : List α} (hl : l ≠ [])
    (g : β → Option K) (r : List β) (a : α) :
    nullMax ((l ×ˢ joinMatches on r a).map fun p => p.2.bind g) =
      nullMax ((r.filter fun b => on a b).map g) := by
  obtain ⟨a', ha'⟩ := List.exists_mem_of_ne_nil l hl
  refine nullMax_congr fun x => ?_
  simp only [List.mem_map, List.mem_product, List.mem_filter, decide_eq_true_eq, Prod.exists]
  constructor
  · rintro ⟨_, o, ⟨-, ho⟩, hx⟩
    obtain ⟨b, rfl, hb⟩ := Option.bind_eq_some_iff.mp hx
    exact ⟨b, (some_mem_joinMatches on r).mp ho, hb⟩
  · rintro ⟨b, hb, hx⟩
    exact ⟨a', some b, ⟨ha', (some_mem_joinMatches on r).mpr hb⟩, hx⟩

end Uniform

end Relational
