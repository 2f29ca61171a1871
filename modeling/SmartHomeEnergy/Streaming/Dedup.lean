import Mathlib.Data.List.Nodup
import Mathlib.Data.List.Dedup
import Mathlib.Data.List.Perm.Basic
import SmartHomeEnergy.Streaming.Window

/-!
# Dropping duplicates from a stream

`Streaming.dropDuplicates` keeps the first row of every key. On a stream it runs
batch after batch against the keys seen so far, and forgets a key once its time is
behind the watermark (`Streaming.dedupBatch`).

Forgetting is harmless: a row that gets through a batch is not late, so its key was
not forgotten, and the batches together keep exactly what one pass over all of their
rows keeps (`Streaming.DedupCovers.batch`).
-/

namespace Streaming

variable {ρ κ : Type*} [DecidableEq κ] (key : ρ → κ)

/-- Keep the first row of every key that has not been seen. -/
def dropDuplicates (seen : List κ) : List ρ → List ρ
  | [] => []
  | r :: rs =>
    if key r ∈ seen then dropDuplicates seen rs else r :: dropDuplicates (key r :: seen) rs

variable {key}

/-- Only the keys that occur in the input matter. -/
theorem dropDuplicates_congr {l : List ρ} : ∀ {seen seen' : List κ},
    (∀ r ∈ l, key r ∈ seen ↔ key r ∈ seen') →
      dropDuplicates key seen l = dropDuplicates key seen' l := by
  induction l with
  | nil => exact fun _ => rfl
  | cons r rs ih =>
    intro seen seen' h
    have hrs : ∀ x ∈ rs, key x ∈ seen ↔ key x ∈ seen' := fun x hx =>
      h x (List.mem_cons_of_mem _ hx)
    have hrs' : ∀ x ∈ rs, key x ∈ key r :: seen ↔ key x ∈ key r :: seen' := fun x hx => by
      rw [List.mem_cons, List.mem_cons, hrs x hx]
    rw [dropDuplicates, dropDuplicates, ih hrs, ih hrs']
    simp only [h r List.mem_cons_self]

/-- **Two inputs one after the other**: the second is read against the keys of the
first. -/
theorem dropDuplicates_append (l₁ l₂ : List ρ) : ∀ seen : List κ,
    dropDuplicates key seen (l₁ ++ l₂) =
      dropDuplicates key seen l₁ ++ dropDuplicates key (l₁.map key ++ seen) l₂ := by
  induction l₁ with
  | nil => exact fun _ => rfl
  | cons r rs ih =>
    intro seen
    rw [List.cons_append, dropDuplicates, dropDuplicates]
    split
    next hr =>
      rw [ih]
      congr 1
      -- the key of a dropped row was seen before
      refine dropDuplicates_congr fun x _ => ?_
      simp only [List.map_cons, List.cons_append, List.mem_cons, List.mem_append]
      constructor
      · exact Or.inr
      · rintro (hx | hx)
        · exact Or.inr (hx ▸ hr)
        · exact hx
    next =>
      rw [ih, List.cons_append]
      congr 2
      refine dropDuplicates_congr fun x _ => ?_
      simp only [List.map_cons, List.cons_append, List.mem_cons, List.mem_append]
      exact or_left_comm

theorem dropDuplicates_subset (l : List ρ) : ∀ seen : List κ,
    ∀ r ∈ dropDuplicates key seen l, r ∈ l ∧ key r ∉ seen := by
  induction l with
  | nil => simp [dropDuplicates]
  | cons x xs ih =>
    intro seen r hr
    rw [dropDuplicates] at hr
    split at hr
    next =>
      obtain ⟨h, h'⟩ := ih seen r hr
      exact ⟨List.mem_cons_of_mem _ h, h'⟩
    next hx =>
      rcases List.mem_cons.mp hr with rfl | hr
      · exact ⟨List.mem_cons_self, hx⟩
      · obtain ⟨h, h'⟩ := ih _ r hr
        exact ⟨List.mem_cons_of_mem _ h, fun hc => h' (List.mem_cons_of_mem _ hc)⟩

/-- Every key that occurs and has not been seen is kept. -/
theorem exists_mem_dropDuplicates (l : List ρ) : ∀ {seen : List κ} {r : ρ}, r ∈ l → key r ∉ seen →
    ∃ x ∈ dropDuplicates key seen l, key x = key r := by
  induction l with
  | nil => simp
  | cons y ys ih =>
    intro seen r hr hseen
    rw [dropDuplicates]
    by_cases hy : key y ∈ seen
    · rw [if_pos hy]
      rcases List.mem_cons.mp hr with rfl | hr
      · exact absurd hy hseen
      · exact ih hr hseen
    · rw [if_neg hy]
      by_cases hk : key r = key y
      · exact ⟨y, List.mem_cons_self, hk.symm⟩
      · have hr' : r ∈ ys := (List.mem_cons.mp hr).resolve_left fun he => hk (he ▸ rfl)
        have hseen' : key r ∉ key y :: seen := fun hc =>
          (List.mem_cons.mp hc).elim hk hseen
        obtain ⟨x, hx, hxr⟩ := ih hr' hseen'
        exact ⟨x, List.mem_cons_of_mem _ hx, hxr⟩

theorem nodup_dropDuplicates (l : List ρ) : ∀ seen : List κ,
    ((dropDuplicates key seen l).map key).Nodup := by
  induction l with
  | nil => exact fun _ => List.nodup_nil
  | cons r rs ih =>
    intro seen
    rw [dropDuplicates]
    split
    · exact ih seen
    · rw [List.map_cons, List.nodup_cons]
      refine ⟨fun h => ?_, ih _⟩
      obtain ⟨x, hx, hxr⟩ := List.mem_map.mp h
      exact (dropDuplicates_subset rs _ x hx).2 (hxr ▸ List.mem_cons_self)

/-- Where no two rows share a key, there is nothing to drop. -/
theorem dropDuplicates_of_nodup {l : List ρ} : ∀ {seen : List κ}, (l.map key).Nodup →
    (∀ r ∈ l, key r ∉ seen) → dropDuplicates key seen l = l := by
  induction l with
  | nil => exact fun _ _ => rfl
  | cons r l ih =>
    intro seen hn hs
    rw [List.map_cons, List.nodup_cons] at hn
    rw [dropDuplicates, if_neg (hs r List.mem_cons_self), ih hn.2 fun x hx hc => ?_]
    rcases List.mem_cons.mp hc with hc | hc
    · exact hn.1 (hc ▸ List.mem_map_of_mem hx)
    · exact hs x (List.mem_cons_of_mem _ hx) hc

/-- **Where rows with equal keys are equal**, dropping duplicates is taking the
distinct rows. -/
theorem perm_dropDuplicates [DecidableEq ρ] {l : List ρ}
    (h : ∀ a ∈ l, ∀ b ∈ l, key a = key b → a = b) : (dropDuplicates key [] l).Perm l.dedup := by
  have hn := List.Nodup.of_map key (nodup_dropDuplicates l [])
  rw [List.perm_ext_iff_of_nodup hn (List.nodup_dedup l)]
  intro r
  rw [List.mem_dedup]
  constructor
  · exact fun hr => (dropDuplicates_subset l ([] : List κ) r hr).1
  · intro hr
    have hnew : key r ∉ [] := List.not_mem_nil
    obtain ⟨x, hx, hk⟩ := exists_mem_dropDuplicates l hr hnew
    exact h x (dropDuplicates_subset l [] x hx).1 r hr hk ▸ hx

/-- **Rows that are told apart by their keys** are what is left of any list of them, however
often and in whatever order they occur in it. -/
theorem perm_dropDuplicates_of_nodup {l distinct : List ρ} (hn : (distinct.map key).Nodup)
    (h : ∀ r, r ∈ l ↔ r ∈ distinct) : (dropDuplicates key [] l).Perm distinct := by
  classical
  have hkey : ∀ a ∈ l, ∀ b ∈ l, key a = key b → a = b := fun a ha b hb =>
    List.inj_on_of_nodup_map hn ((h a).mp ha) ((h b).mp hb)
  refine (perm_dropDuplicates hkey).trans ?_
  rw [List.perm_ext_iff_of_nodup (List.nodup_dedup l) (List.Nodup.of_map key hn)]
  exact fun r => List.mem_dedup.trans (h r)

/-! ### Batch after batch -/

section Batches

variable (key) (time : κ → Option ℤ)

/-- The rows of a batch that are not late. -/
def onTime (w : Watermarks) (rows : List ρ) : List ρ :=
  rows.filter fun r => ¬Late w.late (time (key r))

/-- One batch: late rows are dropped, duplicates of what was seen are dropped, and
keys behind the watermark are forgotten. -/
def dedupBatch (w : Watermarks) (seen : List κ) (rows : List ρ) : List κ × List ρ :=
  let fresh := dropDuplicates key seen (onTime key time w rows)
  ((fresh.map key ++ seen).filter fun k => ¬Late w.evict (time k), fresh)

/-- **The invariant**: of all the rows that were on time, the state holds the keys
that are not late. -/
def DedupCovers (w : Watermarks) (seen : List κ) (past : List ρ) : Prop :=
  ∀ k, k ∈ seen ↔ k ∈ past.map key ∧ ¬Late w.late (time k)

variable {key time} {w : Watermarks} {seen : List κ} {past : List ρ}

omit [DecidableEq κ] in
theorem dedupCovers_start (w : Watermarks) : DedupCovers key time w [] ([] : List ρ) := by
  simp [DedupCovers]

/-- What a batch lets through is what one pass over everything would add. -/
theorem DedupCovers.fresh (h : DedupCovers key time w seen past) (rows : List ρ) :
    (dedupBatch key time w seen rows).2 =
      dropDuplicates key (past.map key) (onTime key time w rows) := by
  refine dropDuplicates_congr fun r hr => ?_
  have hlate : ¬Late w.late (time (key r)) := by simpa using (List.mem_filter.mp hr).2
  rw [h]
  exact and_iff_left hlate

/-- **Forgetting is harmless**: the batches together keep what one pass over their
rows keeps. -/
theorem DedupCovers.append (h : DedupCovers key time w seen past) (rows : List ρ) :
    dropDuplicates key [] (past ++ onTime key time w rows) =
      dropDuplicates key [] past ++ (dedupBatch key time w seen rows).2 := by
  rw [dropDuplicates_append, h.fresh, List.append_nil]

/-- **A batch keeps the invariant.** -/
theorem DedupCovers.batch (h : DedupCovers key time w seen past) (rows : List ρ) (delay : ℤ)
    (ts : List (Option ℤ)) :
    DedupCovers key time (w.next delay ts) (dedupBatch key time w seen rows).1
      (past ++ onTime key time w rows) := by
  intro k
  have hfresh := h.fresh rows
  simp only [dedupBatch] at hfresh
  simp only [dedupBatch, hfresh, List.mem_filter, List.mem_append, List.map_append,
    Watermarks.next_late, decide_eq_true_eq]
  -- a key that is not behind the new watermark was not behind the old one
  refine and_congr_left fun hev => ?_
  have hlate : ¬Late w.late (time k) := fun hl => hev (hl.mono w.le)
  rw [h k, and_iff_left hlate]
  constructor
  · rintro (hk | hk)
    · obtain ⟨x, hx, rfl⟩ := List.mem_map.mp hk
      exact Or.inr (List.mem_map_of_mem (dropDuplicates_subset _ _ x hx).1)
    · exact Or.inl hk
  · rintro (hk | hk)
    · exact Or.inr hk
    · obtain ⟨x, hx, rfl⟩ := List.mem_map.mp hk
      by_cases hp : key x ∈ past.map key
      · exact Or.inr hp
      · obtain ⟨y, hy, hyx⟩ := exists_mem_dropDuplicates _ hx hp
        exact Or.inl (hyx ▸ List.mem_map_of_mem hy)

end Batches

end Streaming
