import Mathlib.Data.List.Nodup
import Mathlib.Data.List.ReduceOption
import Mathlib.Data.Int.ConditionallyCompleteOrder
import Mathlib.Data.Int.Order.Lemmas
import Mathlib.Order.WithBot
import Mathlib.Tactic.Linarith
import Mathlib.Tactic.Ring

/-!
# Event time: watermarks and sliding windows

A stream is cut into micro-batches, and the events of a batch may be out of order. A
*watermark* is a point in event time behind which nothing is expected any more: it
trails the newest event seen by a fixed delay and never goes back. Two watermarks
are in force while a batch runs – the one that drops late rows is the one that
evicted state at the end of the batch before (`Streaming.Watermarks`). So no row that
gets through can ask for state that was evicted, and that is what the stateful
operators of the next files rest on.

`Streaming.windowEnds` lists the sliding windows a point in time lies in, by their
ends.
-/

namespace Streaming

/-! ### Watermarks -/

/-- A watermark; `⊥` while no event has been seen. -/
abbrev Watermark := WithBot ℤ

/-- A point in time at or behind the watermark. A missing one is never late. -/
def Late (wm : Watermark) (t : Option ℤ) : Prop := ∃ x ∈ t, ((x : ℤ) : WithBot ℤ) ≤ wm

@[simp] theorem late_some {wm : Watermark} {x : ℤ} :
    Late wm (some x) ↔ ((x : ℤ) : WithBot ℤ) ≤ wm := by
  simp [Late]

instance : ∀ (wm : Watermark) t, Decidable (Late wm t)
  | _, none => isFalse (by simp [Late])
  | none, some x => isFalse fun h => WithBot.not_coe_le_bot x (late_some.mp h)
  | some w, some x => decidable_of_iff (x ≤ w) (WithBot.coe_le_coe.symm.trans late_some.symm)

theorem Late.mono {wm wm' : Watermark} {t : Option ℤ} (h : wm ≤ wm') : Late wm t → Late wm' t := by
  rintro ⟨x, hx, hle⟩
  exact ⟨x, hx, hle.trans h⟩

/-- The watermark after a batch: it trails the newest event by the delay, and never
goes back. -/
def advance (delay : ℤ) (wm : Watermark) (ts : List (Option ℤ)) : Watermark :=
  ts.reduceOption.foldl (fun w t => max w ((t - delay : ℤ) : WithBot ℤ)) wm

theorem le_advance (delay : ℤ) (wm : Watermark) (ts : List (Option ℤ)) :
    wm ≤ advance delay wm ts := by
  unfold advance
  induction ts.reduceOption generalizing wm with
  | nil => exact le_rfl
  | cons t ts ih => exact (le_max_left _ _).trans (ih _)

/-- A watermark stays behind every bound on the events, less the delay. -/
theorem advance_le {delay bound : ℤ} {wm : Watermark} {ts : List (Option ℤ)}
    (hwm : wm ≤ ((bound - delay : ℤ) : WithBot ℤ)) (hts : ∀ t ∈ ts, ∀ x ∈ t, x ≤ bound) :
    advance delay wm ts ≤ ((bound - delay : ℤ) : WithBot ℤ) := by
  have hts' : ∀ x ∈ ts.reduceOption, x ≤ bound := fun x hx =>
    hts _ (List.reduceOption_mem_iff.mp hx) x rfl
  unfold advance
  generalize ts.reduceOption = xs at hts' ⊢
  induction xs generalizing wm with
  | nil => exact hwm
  | cons t xs ih =>
    have ht : t - delay ≤ bound - delay := by linarith [hts' t List.mem_cons_self]
    exact ih (max_le hwm (WithBot.coe_le_coe.mpr ht)) fun x hx =>
      hts' x (List.mem_cons_of_mem _ hx)

/-- The two watermarks of a batch: late rows are dropped behind the one, state is
evicted behind the other. -/
structure Watermarks where
  late : Watermark
  evict : Watermark
  le : late ≤ evict

/-- Before the first batch. -/
def Watermarks.start : Watermarks := ⟨⊥, ⊥, le_rfl⟩

/-- **The watermarks of the next batch**: late rows are dropped where state was just
evicted. -/
def Watermarks.next (delay : ℤ) (w : Watermarks) (ts : List (Option ℤ)) : Watermarks :=
  ⟨w.evict, advance delay w.evict ts, le_advance delay w.evict ts⟩

@[simp] theorem Watermarks.next_late (delay : ℤ) (w : Watermarks) (ts : List (Option ℤ)) :
    (w.next delay ts).late = w.evict := rfl

/-! ### Sliding windows -/

/-- The ends of the windows a point in time lies in: windows of one size, a slide
apart, that start at multiples of the slide. -/
def windowEnds (size slide t : ℤ) : List ℤ :=
  ((List.range ((size + slide - 1) / slide).toNat).map fun i : ℕ =>
    t - t % slide + size - i * slide).filter (t < ·)

/-- **A window covers the points from its start up to its end**, the end excluded. -/
theorem mem_windowEnds {size slide t e : ℤ} (hs : 0 < slide) :
    e ∈ windowEnds size slide t ↔ slide ∣ e - size ∧ e - size ≤ t ∧ t < e := by
  have h0 := Int.emod_nonneg t hs.ne'
  have h1 := Int.emod_lt_of_pos t hs
  have hd : slide ∣ t - t % slide := Int.dvd_self_sub_emod
  simp only [windowEnds, List.mem_filter, List.mem_map, List.mem_range, decide_eq_true_eq]
  constructor
  · rintro ⟨⟨i, -, rfl⟩, hlt⟩
    refine ⟨?_, ?_, hlt⟩
    · have he : t - t % slide + size - i * slide - size = (t - t % slide) - i * slide := by ring
      rw [he]
      exact dvd_sub hd (Dvd.intro_left _ rfl)
    · have := mul_nonneg (Int.natCast_nonneg i) hs.le
      linarith
  · rintro ⟨hdvd, hle, hlt⟩
    obtain ⟨c, hc⟩ := dvd_sub hd hdvd
    -- the window starts `c` slides before the last one
    have hc0 : 0 ≤ c := by
      by_contra hneg
      have : slide * c ≤ slide * (-1) := mul_le_mul_of_nonneg_left (by omega) hs.le
      linarith
    have hcs : slide * c < size := by linarith
    refine ⟨⟨c.toNat, ?_, ?_⟩, hlt⟩
    · have hle' : c + 1 ≤ (size + slide - 1) / slide := by
        rw [Int.le_ediv_iff_mul_le hs]
        nlinarith
      omega
    · rw [Int.toNat_of_nonneg hc0]
      linarith

theorem nodup_windowEnds {size slide : ℤ} (hs : 0 < slide) (t : ℤ) :
    (windowEnds size slide t).Nodup := by
  refine (List.Nodup.map_on ?_ List.nodup_range).filter _
  intro i _ j _ h
  have : (i : ℤ) * slide = j * slide := by linarith
  exact_mod_cast mul_right_cancel₀ hs.ne' this

example : windowEnds 5 1 7 = [12, 11, 10, 9, 8] := by decide

end Streaming
