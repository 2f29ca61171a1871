import SmartHomeEnergy.Relational.GroupBy
import SmartHomeEnergy.Streaming.Window

/-!
# Aggregating a stream

A running aggregation holds one accumulator for each key, adds what a batch
contributes, and emits the keys the batch touched with their new accumulators –
*update mode*. Accumulators of keys behind the watermark are evicted
(`Streaming.aggregateBatch`). The accumulators are elements of a commutative monoid: a
sum, a count, or a pair of both.

Evicting is harmless, for the reason it is harmless to forget keys when duplicates
are dropped: a contribution that gets through is not late, so its key was not
evicted. What a batch emits under a key is the total of everything that was ever
on time for that key (`Streaming.StoreCovers.emits`).
-/

namespace Streaming

open Relational

variable {κ A : Type*} [DecidableEq κ] [AddCommMonoid A]

/-! ### Totals -/

/-- What a key was given. -/
def givenTo (pairs : List (κ × A)) (k : κ) : List A := (groupRows Prod.fst pairs k).map Prod.snd

/-- The total of a key; nothing when it was given nothing. -/
def totalFor (pairs : List (κ × A)) (k : κ) : Option A :=
  if givenTo pairs k = [] then none else some (givenTo pairs k).sum

omit [AddCommMonoid A] in
theorem givenTo_append (p q : List (κ × A)) (k : κ) :
    givenTo (p ++ q) k = givenTo p k ++ givenTo q k := by
  rw [givenTo, groupRows_append, List.map_append]
  rfl

omit [AddCommMonoid A] in
theorem givenTo_ne_nil {pairs : List (κ × A)} {k : κ} :
    givenTo pairs k ≠ [] ↔ k ∈ groupKeys Prod.fst pairs := by
  rw [givenTo, ne_eq, List.map_eq_nil_iff]
  constructor
  · intro h
    obtain ⟨a, ha⟩ := List.exists_mem_of_ne_nil _ h
    exact mem_groupKeys.mpr ⟨a, (mem_groupRows.mp ha).1, (mem_groupRows.mp ha).2⟩
  · exact groupRows_ne_nil

/-- Adding what a batch contributes to what a key has. -/
def addTo (x : Option A) (given : List A) : Option A :=
  if given = [] then x else some (x.getD 0 + given.sum)

theorem totalFor_append (p q : List (κ × A)) (k : κ) :
    totalFor (p ++ q) k = addTo (totalFor p k) (givenTo q k) := by
  rw [totalFor, givenTo_append, addTo, totalFor]
  by_cases hp : givenTo p k = []
  · simp [hp]
  · by_cases hq : givenTo q k = [] <;> simp [hp, hq]

/-- The order in which a key is given something does not matter. -/
theorem totalFor_perm {p q : List (κ × A)} (h : p.Perm q) (k : κ) :
    totalFor p k = totalFor q k := by
  have hgiven : (givenTo p k).Perm (givenTo q k) := (h.filter _).map _
  have hnil : givenTo p k = [] ↔ givenTo q k = [] := by
    rw [← List.length_eq_zero_iff, ← List.length_eq_zero_iff, hgiven.length_eq]
  rw [totalFor, totalFor, hgiven.sum_eq]
  simp only [hnil]

section Contributions

variable {ρ : Type*} (keysOf : ρ → List κ) (val : ρ → A)

/-- Each row contributes its value to each of its keys. -/
def contributions (rows : List ρ) : List (κ × A) :=
  rows.flatMap fun r => (keysOf r).map fun k => (k, val r)

variable {keysOf val}

omit [AddCommMonoid A] in
/-- **What a key is given**: the values of the rows that have it. -/
theorem givenTo_contributions (hn : ∀ r, (keysOf r).Nodup) (rows : List ρ) (k : κ) :
    givenTo (contributions keysOf val rows) k = (rows.filter fun r => k ∈ keysOf r).map val := by
  have hone : ∀ r, givenTo ((keysOf r).map fun j => (j, val r)) k =
      if k ∈ keysOf r then [val r] else [] := by
    intro r
    have hf : givenTo ((keysOf r).map fun j => (j, val r)) k =
        ((keysOf r).filter fun j => j = k).map fun _ => val r := by
      simp [givenTo, groupRows, List.filter_map, Function.comp_def]
    rw [hf, List.filter_eq, (hn r).count]
    split <;> simp
  induction rows with
  | nil => rfl
  | cons r rows ih =>
    have hc : contributions keysOf val (r :: rows) =
        ((keysOf r).map fun j => (j, val r)) ++ contributions keysOf val rows := rfl
    rw [hc, givenTo_append, hone, ih]
    by_cases hk : k ∈ keysOf r <;> simp [hk]

omit [DecidableEq κ] [AddCommMonoid A] in
theorem contributions_append (l₁ l₂ : List ρ) :
    contributions keysOf val (l₁ ++ l₂) =
      contributions keysOf val l₁ ++ contributions keysOf val l₂ :=
  List.flatMap_append

omit [DecidableEq κ] [AddCommMonoid A] in
theorem mem_contributions {rows : List ρ} {p : κ × A} :
    p ∈ contributions keysOf val rows ↔ ∃ r ∈ rows, p.1 ∈ keysOf r ∧ val r = p.2 := by
  simp only [contributions, List.mem_flatMap, List.mem_map]
  constructor
  · rintro ⟨r, hr, k, hk, rfl⟩
    exact ⟨r, hr, hk, rfl⟩
  · rintro ⟨r, hr, hk, hv⟩
    exact ⟨r, hr, p.1, hk, by rw [hv]⟩

/-- **Summing totals**: over some of the keys, the totals add up to what was
contributed to these keys. -/
theorem sum_totals {M : Type*} [AddCommMonoid M] (φ : A →+ M) (p : κ → Prop) [DecidablePred p]
    (rows : List ρ) :
    (((groupKeys Prod.fst (contributions keysOf val rows)).filter p).map fun k =>
        φ (givenTo (contributions keysOf val rows) k).sum).sum =
      (rows.map fun r => ((keysOf r).map fun k => if p k then φ (val r) else 0).sum).sum := by
  have hgroup : ∀ k, (if p k then φ (givenTo (contributions keysOf val rows) k).sum else 0) =
      ((groupRows Prod.fst (contributions keysOf val rows) k).map fun c =>
        if p c.1 then φ c.2 else 0).sum := by
    intro k
    have hk : ∀ c ∈ groupRows Prod.fst (contributions keysOf val rows) k,
        (if p c.1 then φ c.2 else 0) = if p k then φ c.2 else 0 := fun c hc => by
      rw [(mem_groupRows.mp hc).2]
    rw [List.map_congr_left hk]
    split
    · rw [givenTo, map_list_sum, List.map_map]
      rfl
    · simp
  calc (((groupKeys Prod.fst (contributions keysOf val rows)).filter p).map fun k =>
        φ (givenTo (contributions keysOf val rows) k).sum).sum
      = ((groupKeys Prod.fst (contributions keysOf val rows)).map fun k =>
          if p k then φ (givenTo (contributions keysOf val rows) k).sum else 0).sum := by
        rw [List.sum_map_ite]
        simp
    _ = ((contributions keysOf val rows).map fun c => if p c.1 then φ c.2 else 0).sum := by
        rw [List.map_congr_left fun k _ => hgroup k]
        exact sum_groupBy _ _
    _ = (rows.map fun r => ((keysOf r).map fun k => if p k then φ (val r) else 0).sum).sum := by
        rw [contributions, List.map_flatMap, List.flatMap_def, List.sum_flatten, List.map_map]
        simp [Function.comp_def]

end Contributions

/-! ### Batch after batch -/

section Batches

variable (time : κ → Option ℤ)

/-- The accumulators, one for each key that has one. -/
abbrev Store (κ A : Type*) := κ → Option A

/-- The contributions of a batch that are not late. -/
def onTimePairs (w : Watermarks) (pairs : List (κ × A)) : List (κ × A) :=
  pairs.filter fun p => ¬Late w.late (time p.1)

/-- One batch: late contributions are dropped, the others are added, the keys they
touched are emitted, and accumulators behind the watermark are evicted. -/
def aggregateBatch (w : Watermarks) (store : Store κ A) (pairs : List (κ × A)) :
    Store κ A × List (κ × A) :=
  let kept := onTimePairs time w pairs
  let updated : Store κ A := fun k => addTo (store k) (givenTo kept k)
  (fun k => if Late w.evict (time k) then none else updated k,
    (groupKeys Prod.fst kept).map fun k => (k, (updated k).getD 0))

/-- **The invariant**: a key that is not late has the total of everything it was
given, and a late one has no accumulator. -/
def StoreCovers (w : Watermarks) (store : Store κ A) (past : List (κ × A)) : Prop :=
  ∀ k, store k = if Late w.late (time k) then none else totalFor past k

variable {time} {w : Watermarks} {store : Store κ A} {past : List (κ × A)}

theorem storeCovers_start :
    StoreCovers time Watermarks.start (fun _ => none) ([] : List (κ × A)) := by
  intro k
  simp [totalFor, givenTo, groupRows]

omit [AddCommMonoid A] in
/-- A key that is given something on time is not late. -/
theorem not_late_of_mem {pairs : List (κ × A)} {k : κ}
    (hk : k ∈ groupKeys Prod.fst (onTimePairs time w pairs)) : ¬Late w.late (time k) := by
  obtain ⟨p, hp, rfl⟩ := mem_groupKeys.mp hk
  simpa using (List.mem_filter.mp hp).2

/-- **A batch keeps the invariant.** -/
theorem StoreCovers.batch (h : StoreCovers time w store past) (pairs : List (κ × A)) (delay : ℤ)
    (ts : List (Option ℤ)) :
    StoreCovers time (w.next delay ts) (aggregateBatch time w store pairs).1
      (past ++ onTimePairs time w pairs) := by
  intro k
  simp only [aggregateBatch]
  by_cases hev : Late w.evict (time k)
  · rw [if_pos hev]
    exact (if_pos hev).symm
  · have hlate : ¬Late w.late (time k) := fun hl => hev (hl.mono w.le)
    rw [if_neg hev, h k, if_neg hlate, ← totalFor_append]
    exact (if_neg hev).symm

theorem mem_emitted_keys {pairs : List (κ × A)} {k : κ} :
    k ∈ (aggregateBatch time w store pairs).2.map Prod.fst ↔
      givenTo (onTimePairs time w pairs) k ≠ [] := by
  rw [givenTo_ne_nil]
  simp [aggregateBatch]

theorem nodup_emitted_keys (w : Watermarks) (store : Store κ A) (pairs : List (κ × A)) :
    ((aggregateBatch time w store pairs).2.map Prod.fst).Nodup := by
  have h : (aggregateBatch time w store pairs).2.map Prod.fst =
      groupKeys Prod.fst (onTimePairs time w pairs) := by
    simp [aggregateBatch, Function.comp_def]
  rw [h]
  exact nodup_groupKeys _ _

/-- **What a batch emits is exact**: the total of everything that was on time so far. -/
theorem StoreCovers.emits (h : StoreCovers time w store past) {pairs : List (κ × A)} {k : κ} {a : A}
    (ha : (k, a) ∈ (aggregateBatch time w store pairs).2) :
    totalFor (past ++ onTimePairs time w pairs) k = some a := by
  obtain ⟨j, hj, hja⟩ := List.mem_map.mp ha
  obtain ⟨rfl, hval⟩ := Prod.mk.inj hja
  have hlate := not_late_of_mem hj
  have hne := givenTo_ne_nil.mpr hj
  simp only [h j, if_neg hlate] at hval
  rw [totalFor_append, ← hval, addTo, if_neg hne]
  rfl

/-- A key a batch does not emit keeps its total. -/
theorem totalFor_of_not_emitted {pairs : List (κ × A)} {k : κ} (store : Store κ A)
    (hk : k ∉ (aggregateBatch time w store pairs).2.map Prod.fst) (past : List (κ × A)) :
    totalFor (past ++ onTimePairs time w pairs) k = totalFor past k := by
  have hnil : givenTo (onTimePairs time w pairs) k = [] := by
    by_contra hne
    exact hk (mem_emitted_keys.mpr hne)
  rw [totalFor_append, hnil, addTo, if_pos rfl]

end Batches

end Streaming
