import Mathlib.Data.List.MinMax
import SmartHomeEnergy.Relational.Table
import SmartHomeEnergy.Transition.Run

/-!
# Retention behind a moving bound

The rows of a table have a time each, and the newest of these times sets a bound behind it, its
*cut*: whoever reads the table reads the rows from the cut on, and a purge deletes the rows
before it. Purging once is invisible to the reader, since it leaves the newest row where it is
(`Relational.filter_kept_purged`).

Over a run, where rows are upserted and the bound moves on, purging is invisible because the
bound never moves back: what a purge has deleted stays before the cut. The purged table and the
one that is never purged go along with each other (`Relational.Retains`), the first one
missing nothing but what is expired in the second, and so they show the same rows at every
point (`Relational.perm_kept_exec`).
-/

namespace Relational

open Transition

variable {ρ κ τ : Type*} [LinearOrder τ]

/-! ### The cut -/

/-- The newest time of a row. -/
def newest (time : ρ → Option τ) (rows : List ρ) : Option τ := (rows.filterMap time).max?

/-- A row is not before the cut. -/
def Kept (time : ρ → Option τ) (cut : τ → τ) (rows : List ρ) (r : ρ) : Prop :=
  ∃ m ∈ newest time rows, ∃ e ∈ time r, cut m ≤ e

/-- A row is before the cut. -/
def Expired (time : ρ → Option τ) (cut : τ → τ) (rows : List ρ) (r : ρ) : Prop :=
  ∃ m ∈ newest time rows, ∃ e ∈ time r, e < cut m

section Cut

variable {time : ρ → Option τ} {cut : τ → τ} {rows rows' : List ρ} {r : ρ} {m : τ}

instance : Decidable (Kept time cut rows r) := by
  unfold Kept
  infer_instance

instance : Decidable (Expired time cut rows r) := by
  unfold Expired
  infer_instance

theorem newest_eq_some :
    newest time rows = some m ↔
      (∃ r ∈ rows, time r = some m) ∧ ∀ r ∈ rows, ∀ e ∈ time r, e ≤ m := by
  rw [newest, List.max?_eq_some_iff]
  simp only [List.mem_filterMap]
  refine and_congr_right fun _ => ⟨fun h r hr e he => h e ⟨r, hr, he⟩, ?_⟩
  rintro h e ⟨r, hr, he⟩
  exact h r hr e he

/-- A time that occurs has a newest one. -/
theorem exists_newest {e : τ} (hr : r ∈ rows) (he : e ∈ time r) :
    ∃ m ∈ newest time rows, e ≤ m := by
  obtain ⟨m, hm⟩ : ∃ m, newest time rows = some m :=
    Option.isSome_iff_exists.mp (List.isSome_max?_of_mem (List.mem_filterMap.mpr ⟨r, hr, he⟩))
  exact ⟨m, hm, (newest_eq_some.mp hm).2 r hr e he⟩

/-- A row that is kept is not expired. -/
theorem Kept.not_expired (h : Kept time cut rows r) : ¬Expired time cut rows r := by
  obtain ⟨m, hm, e, he, hle⟩ := h
  rintro ⟨m', hm', e', he', hlt⟩
  obtain rfl : m = m' := Option.some.inj (hm.symm.trans hm')
  obtain rfl : e = e' := Option.some.inj (he.symm.trans he')
  exact absurd hle (not_le.mpr hlt)

/-- The newest row is not expired. -/
theorem not_expired_of_newest (hcut : ∀ m, cut m ≤ m) (hm : newest time rows = some m)
    (hr : time r = some m) : ¬Expired time cut rows r :=
  Kept.not_expired ⟨m, hm, m, hr, hcut m⟩

/-- Rows that are left out when they are expired do not change the newest time. -/
theorem newest_eq_of_subset (hcut : ∀ m, cut m ≤ m) (hsub : ∀ r ∈ rows', r ∈ rows)
    (hrest : ∀ r ∈ rows, r ∉ rows' → Expired time cut rows r) :
    newest time rows' = newest time rows := by
  cases hm : newest time rows with
  | none =>
    refine Option.eq_none_iff_forall_ne_some.mpr fun m hm' => ?_
    obtain ⟨⟨r, hr, he⟩, -⟩ := newest_eq_some.mp hm'
    obtain ⟨m', hsome, -⟩ := exists_newest (hsub r hr) he
    exact absurd (hm.symm.trans hsome) (by simp)
  | some m =>
    obtain ⟨⟨r, hr, he⟩, hle⟩ := newest_eq_some.mp hm
    refine newest_eq_some.mpr ⟨⟨r, ?_, he⟩, fun r hr => hle r (hsub r hr)⟩
    by_contra hmissing
    exact not_expired_of_newest hcut hm he (hrest r hr hmissing)

/-- What is kept depends on the newest time only. -/
theorem kept_congr (h : newest time rows = newest time rows') :
    Kept time cut rows r ↔ Kept time cut rows' r := by
  rw [Kept, Kept, h]

/-- What is kept does not depend on the order of the rows. -/
theorem perm_kept (hcut : ∀ m, cut m ≤ m) (h : rows.Perm rows') :
    (rows.filter fun r => Kept time cut rows r).Perm
      (rows'.filter fun r => Kept time cut rows' r) := by
  have hnewest : newest time rows = newest time rows' :=
    newest_eq_of_subset hcut (fun r hr => h.mem_iff.mp hr) fun r hr hmissing =>
      absurd (h.mem_iff.mpr hr) hmissing
  simp only [kept_congr hnewest]
  exact h.filter _

/-- **A purge is invisible**: what is kept of the rows it leaves is what was kept before. -/
theorem filter_kept_purged (hcut : ∀ m, cut m ≤ m) :
    ((rows.filter fun r => ¬Expired time cut rows r).filter fun r =>
        Kept time cut (rows.filter fun r => ¬Expired time cut rows r) r) =
      rows.filter fun r => Kept time cut rows r := by
  have hnewest : newest time (rows.filter fun r => ¬Expired time cut rows r) =
      newest time rows := by
    refine newest_eq_of_subset hcut (fun r hr => (List.mem_filter.mp hr).1) fun r hr hmissing => ?_
    by_contra hexpired
    exact hmissing (List.mem_filter.mpr ⟨hr, decide_eq_true hexpired⟩)
  rw [List.filter_filter]
  refine List.filter_congr fun r hr => ?_
  rw [← Bool.decide_and, decide_eq_decide, kept_congr hnewest, and_iff_left_iff_imp]
  exact Kept.not_expired

end Cut

/-! ### Upserts and purges -/

section Runs

variable [DecidableEq κ] {key : ρ → Option κ}

/-- What becomes of a table. -/
inductive RetentionOp (ρ : Type*)
  | upsert (r : ρ)
  | purge

/-- An upsert passes over a row without a key, a purge deletes what is expired. -/
def retentionStep (u : ConflictUpdate key) (time : ρ → Option τ) (cut : τ → τ) (t : Table key) :
    RetentionOp ρ → Table key
  | .upsert r => if key r = none then t else t.upsert u r
  | .purge => t.deleteWhere (Expired time cut t.rows)

/-- The upserts of a run. -/
def upsertsOf (ops : List (RetentionOp ρ)) : List (RetentionOp ρ) :=
  ops.filter fun op => match op with
    | .upsert _ => true
    | .purge => false

/-- **The simulation**: the first table has what the second one has, but for rows that are
expired there. -/
structure Retains (time : ρ → Option τ) (cut : τ → τ) (t s : Table key) : Prop where
  keyed : ∀ r ∈ s.rows, key r ≠ none
  sub : ∀ r ∈ t.rows, r ∈ s.rows
  rest : ∀ r ∈ s.rows, r ∉ t.rows → Expired time cut s.rows r

variable {time : ρ → Option τ} {cut : τ → τ} {t s : Table key} {u : ConflictUpdate key}
  {clock : κ → τ}

omit [DecidableEq κ] in
theorem retains_empty : Retains time cut (.empty : Table key) .empty :=
  ⟨fun _ hr => absurd hr List.not_mem_nil, fun _ hr => hr, fun _ hr => absurd hr List.not_mem_nil⟩

omit [DecidableEq κ] in
theorem Retains.newest_eq (h : Retains time cut t s) (hcut : ∀ m, cut m ≤ m) :
    newest time t.rows = newest time s.rows :=
  newest_eq_of_subset hcut h.sub h.rest

omit [DecidableEq κ] in
/-- A purge of the first table deletes what is expired in the second one. -/
theorem Retains.purge (h : Retains time cut t s) (hcut : ∀ m, cut m ≤ m) :
    Retains time cut (t.deleteWhere (Expired time cut t.rows)) s := by
  refine ⟨h.keyed, fun r hr => h.sub r ((Table.mem_deleteWhere _).mp hr).1, fun r hr hmissing => ?_⟩
  by_cases ht : r ∈ t.rows
  · have hexpired : Expired time cut t.rows r := by
      by_contra hkept
      exact hmissing ((Table.mem_deleteWhere _).mpr ⟨ht, hkept⟩)
    rwa [Expired, h.newest_eq hcut] at hexpired
  · exact h.rest r hr ht

omit [LinearOrder τ] in
/-- An upsert deletes no time, where the key decides it. -/
theorem exists_time_upsert (hu : u.Overwrites)
    (hclock : ∀ r k, key r = some k → time r = some (clock k)) {r x : ρ} {k : κ}
    (hk : key r = some k) (hkeyed : key x ≠ none) (hx : x ∈ s.rows) :
    ∃ y ∈ (s.upsert u r).rows, time y = time x := by
  obtain ⟨kx, hkx⟩ := Option.ne_none_iff_exists'.mp hkeyed
  rcases eq_or_ne kx k with rfl | hne
  · exact ⟨r, (Table.mem_upsert_iff hu hk (by simp [hk])).mpr (Or.inl rfl),
      (hclock r kx hk).trans (hclock x kx hkx).symm⟩
  · have hother : key x ≠ some k := fun he => hne (Option.some.inj (hkx.symm.trans he))
    exact ⟨x, (Table.mem_upsert_iff hu hk hkeyed).mpr (Or.inr ⟨hx, hother⟩), rfl⟩

/-- What is expired stays expired: an upsert only moves the cut on. -/
theorem expired_upsert (hu : u.Overwrites) (hcut : Monotone cut)
    (hclock : ∀ r k, key r = some k → time r = some (clock k))
    (hkeyed : ∀ r ∈ s.rows, key r ≠ none) {r x : ρ} {k : κ} (hk : key r = some k)
    (hx : Expired time cut s.rows x) : Expired time cut (s.upsert u r).rows x := by
  obtain ⟨m, hm, e, he, hlt⟩ := hx
  obtain ⟨⟨y, hy, hym⟩, -⟩ := newest_eq_some.mp hm
  obtain ⟨y', hy', htime⟩ := exists_time_upsert hu hclock hk (hkeyed y hy) hy
  obtain ⟨m', hm', hle⟩ := exists_newest hy' (htime.trans hym)
  exact ⟨m', hm', e, he, hlt.trans_le (hcut hle)⟩

/-- **An upsert of both tables** keeps the simulation. -/
theorem Retains.upsert (h : Retains time cut t s) (hu : u.Overwrites) (hcut : Monotone cut)
    (hclock : ∀ r k, key r = some k → time r = some (clock k)) {r : ρ} {k : κ}
    (hk : key r = some k) : Retains time cut (t.upsert u r) (s.upsert u r) := by
  have hkeyed : ∀ {t : Table key}, (∀ x ∈ t.rows, key x ≠ none) →
      ∀ x ∈ (t.upsert u r).rows, key x ≠ none := by
    intro t ht x hx
    obtain ⟨y, hy, he⟩ := Table.key_mem_upsertRows hx
    rcases List.mem_cons.mp hy with rfl | hy'
    · simp [he, hk]
    · exact he ▸ ht y hy'
  have hkeyed_left : ∀ x ∈ t.rows, key x ≠ none := fun x hx => h.keyed x (h.sub x hx)
  refine ⟨hkeyed h.keyed, fun x hx => ?_, fun x hx hmissing => ?_⟩
  · have hxk := hkeyed hkeyed_left x hx
    rw [Table.mem_upsert_iff hu hk hxk] at hx ⊢
    exact hx.imp_right fun ⟨hin, hne⟩ => ⟨h.sub x hin, hne⟩
  · have hxk := hkeyed h.keyed x hx
    rw [Table.mem_upsert_iff hu hk hxk] at hx hmissing
    obtain ⟨hne, hmissing⟩ := not_or.mp hmissing
    obtain ⟨hin, hother⟩ := hx.resolve_left hne
    exact expired_upsert hu hcut hclock h.keyed hk (h.rest x hin fun ht => hmissing ⟨ht, hother⟩)

omit [DecidableEq κ] in
/-- Tables in the simulation show the same rows. -/
theorem Retains.perm_kept (h : Retains time cut t s) (hcut : ∀ m, cut m ≤ m) :
    (t.rows.filter fun r => Kept time cut t.rows r).Perm
      (s.rows.filter fun r => Kept time cut s.rows r) := by
  have hkeyed : ∀ x ∈ t.rows, key x ≠ none := fun x hx => h.keyed x (h.sub x hx)
  refine (List.perm_ext_iff_of_nodup ((t.nodup_of_keyed hkeyed).filter _)
    ((s.nodup_of_keyed h.keyed).filter _)).mpr fun r => ?_
  simp only [List.mem_filter, decide_eq_true_eq]
  rw [kept_congr (h.newest_eq hcut)]
  refine and_congr_left fun hkept => ⟨h.sub r, fun hr => ?_⟩
  by_contra hmissing
  exact hkept.not_expired (h.rest r hr hmissing)

/-- One step of a run, with and without the purges. -/
theorem Retains.step (h : Retains time cut t s) (hu : u.Overwrites) (hmono : Monotone cut)
    (hcut : ∀ m, cut m ≤ m) (hclock : ∀ r k, key r = some k → time r = some (clock k))
    (op : RetentionOp ρ) :
    Retains time cut (retentionStep u time cut t op)
      (exec (retentionStep u time cut) s (upsertsOf [op])) := by
  cases op with
  | purge => exact h.purge hcut
  | upsert r =>
    have hone : exec (retentionStep u time cut) s (upsertsOf [.upsert r]) =
        if key r = none then s else s.upsert u r := rfl
    rw [hone, retentionStep]
    split
    next => exact h
    next hr =>
      obtain ⟨k, hk⟩ := Option.ne_none_iff_exists'.mp hr
      exact h.upsert hu hmono hclock hk

/-- **Purges are invisible throughout a run**: after any upserts and purges the rows that are
shown are those that are shown when nothing is ever purged. -/
theorem perm_kept_exec (hu : u.Overwrites) (hmono : Monotone cut) (hcut : ∀ m, cut m ≤ m)
    (hclock : ∀ r k, key r = some k → time r = some (clock k)) (ops : List (RetentionOp ρ)) :
    ((exec (retentionStep u time cut) .empty ops).rows.filter fun r =>
        Kept time cut (exec (retentionStep u time cut) .empty ops).rows r).Perm
      ((exec (retentionStep u time cut) .empty (upsertsOf ops)).rows.filter fun r =>
        Kept time cut (exec (retentionStep u time cut) .empty (upsertsOf ops)).rows r) := by
  have hretains : Retains time cut (exec (retentionStep u time cut) .empty ops)
      (exec (retentionStep u time cut) .empty (upsertsOf ops)) := by
    refine exec_induction _ (fun ops t => Retains time cut t
      (exec (retentionStep u time cut) .empty (upsertsOf ops))) retains_empty
      (fun ops op ih => ?_) ops
    rw [upsertsOf, List.filter_append, exec_append]
    exact ih.step hu hmono hcut hclock op
  exact hretains.perm_kept hcut

end Runs

end Relational
