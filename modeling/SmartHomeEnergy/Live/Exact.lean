import Mathlib.Algebra.BigOperators.Group.List.Basic
import SmartHomeEnergy.Live.Session

/-!
# The live table is exact

What the live table is for: under a zone, a device type and the end of a window it
shows the sum and the mean of the power over the distinct events of that window
(`SmartHomeEnergy.windowEvents`), whatever order and however often they arrived in.

A session that starts over an empty table and reads a feed – processing time does not
go back, no event is from the future, and events of the same time and device are the
same event – shows exactly that after every micro-batch
(`SmartHomeEnergy.live_exact`). The point is that nothing is ever late: an event is at
most ten minutes old when it is read, the watermark is at least fifteen minutes behind
the clock, and so neither an event nor any window it lies in is behind the watermark.
-/

namespace SmartHomeEnergy

open Relational Streaming Transition

/-! ### What the table is for -/

/-- A stream of events, cut into micro-batches. -/
structure Feed (batches : List MicroBatch) : Prop where
  /-- Processing time does not go back. -/
  ordered : batches.Pairwise fun a b => a.currentTimestamp ≤ b.currentTimestamp
  /-- No event is from the future. -/
  past : ∀ b ∈ batches, ∀ r ∈ b.rows, ∀ t ∈ r.timestamp, t ≤ b.currentTimestamp
  /-- Events of the same time and device are the same event. -/
  identical : ∀ a ∈ batches.flatMap (·.rows), ∀ b ∈ batches.flatMap (·.rows),
    a.timestamp ≠ none → eventKey a = eventKey b → a = b

/-- The distinct events processed so far that passed both filters. -/
def processed (batches : List MicroBatch) : List (Reading ℤ) := (batches.flatMap accepted).dedup

/-- An event of a zone and a device type, inside the window that ends at `e`. -/
def InWindow (z d : String) (e : ℤ) (r : Reading ℤ) : Prop :=
  r.zone = some z ∧ r.deviceType = some d ∧ ∃ t ∈ r.timestamp, e - minutes 5 ≤ t ∧ t < e

instance (z d : String) (e : ℤ) (r : Reading ℤ) : Decidable (InWindow z d e r) := by
  unfold InWindow
  infer_instance

/-- The distinct events a row of the live table stands for. -/
def windowEvents (batches : List MicroBatch) (z d : String) (e : ℤ) : List (Reading ℤ) :=
  (processed batches).filter (InWindow z d e)

/-- The power of an event. -/
def power (r : Reading ℤ) : ℚ := r.powerConsumptionWatts.getD 0

/-- **What a row should show**: the sum and the mean of the power of its events. -/
def ShowsTotals (batches : List MicroBatch) (row : WindowedRow) : Prop :=
  ∃ z d e, row.zone = some z ∧ row.deviceType = some d ∧ row.windowEnd = some e ∧
    row.windowStart = some (e - minutes 5) ∧ windowEvents batches z d e ≠ [] ∧
    row.totalPowerWatts = some ((windowEvents batches z d e).map power).sum ∧
    row.avgPowerWatts = some (((windowEvents batches z d e).map power).sum /
      (windowEvents batches z d e).length)

/-! ### Nothing is late -/

section OnTime

variable {marks : Watermarks} {b : MicroBatch}

/-- The watermark of a session is fifteen minutes behind the clock. -/
def Behind (marks : Watermarks) (now : ℤ) : Prop :=
  marks.evict ≤ ((now - minutes 15 : ℤ) : WithBot ℤ)

theorem not_late_of_behind (h : Behind marks b.currentTimestamp) {t : ℤ}
    (ht : b.currentTimestamp - minutes 10 ≤ t) : ¬Late marks.late (some t) := by
  rw [late_some]
  intro hle
  have hle' := WithBot.coe_le_coe.mp ((hle.trans marks.le).trans h)
  unfold minutes at *
  omega

/-- **No event that passes the ten-minute filter is late**, and no window it lies in
is. -/
theorem not_late_of_filtered (h : Behind marks b.currentTimestamp) {r : Reading ℤ}
    (hr : r ∈ filteredTimeDf b) :
    ¬Late marks.late r.timestamp ∧ ∀ k ∈ windowKeys r, ¬Late marks.late k.time := by
  obtain ⟨t, ht, hge⟩ := (holds_test _ _).mp (of_decide_eq_true (List.mem_filter.mp hr).2)
  refine ⟨ht ▸ not_late_of_behind h hge, fun k hk => ?_⟩
  obtain ⟨t', ht', -, -, -, -, hlt⟩ := mem_windowKeys.mp hk
  obtain rfl : t = t' := Option.some.inj (ht.symm.trans ht')
  exact not_late_of_behind h (hge.trans hlt.le)

theorem onTime_accepted (h : Behind marks b.currentTimestamp) :
    onTime eventKey Prod.fst marks (accepted b) = accepted b := by
  refine List.filter_eq_self.mpr fun r hr => ?_
  exact decide_eq_true (not_late_of_filtered h (List.mem_filter.mp hr).1).1

theorem givenBy_eq {s : StreamState} (h : Behind s.marks b.currentTimestamp) :
    givenBy s b = contributed s b := by
  refine List.filter_eq_self.mpr fun p hp => ?_
  obtain ⟨r, hr, hk, -⟩ := mem_contributions.mp hp
  have hf := (List.mem_filter.mp (freshEvents_subset hr)).1
  exact decide_eq_true ((not_late_of_filtered h hf).2 _ hk)

end OnTime

/-! ### The invariant of a feed -/

/-- The events that were processed, each once. -/
def distinctEvents (batches : List MicroBatch) : List (Reading ℤ) :=
  dropDuplicates eventKey [] (batches.flatMap accepted)

/-- What they give to the groups. -/
def givenIn (batches : List MicroBatch) : List (WindowKey × PowerSum) :=
  contributions windowKeys powerSum (distinctEvents batches)

/-- **The invariant of a feed**: everything accepted so far was on time, the watermark
is behind the clock, and the table follows. -/
structure Exactly (batches : List MicroBatch) (s : LiveState) : Prop where
  tracks : Tracks s.stream (batches.flatMap accepted) (givenIn batches)
  behind : ∀ now, (∀ b ∈ batches, b.currentTimestamp ≤ now) → Behind s.stream.marks now
  follows : Follows .empty (givenIn batches) s.table
  keyed : ∀ r ∈ s.table.rows, windowedKey r ≠ none

theorem exactly_start : Exactly [] (LiveState.start .empty) where
  tracks := tracks_start
  behind _ _ := bot_le
  follows := follows_start _
  keyed := by simp [LiveState.start, Table.empty]

theorem Feed.of_append {l₁ l₂ : List MicroBatch} (h : Feed (l₁ ++ l₂)) : Feed l₁ where
  ordered := (List.pairwise_append.mp h.ordered).1
  past b hb := h.past b (List.mem_append_left _ hb)
  identical a ha b hb :=
    h.identical a (by rw [List.flatMap_append]; exact List.mem_append_left _ ha)
      b (by rw [List.flatMap_append]; exact List.mem_append_left _ hb)

section Batch

variable {batches : List MicroBatch} {s : LiveState} {b : MicroBatch}

/-- The clock has not gone back, so that the watermark is behind it in the next micro-batch
too. -/
theorem Exactly.behind_next (h : Exactly batches s) (hfeed : Feed (batches ++ [b])) :
    Behind s.stream.marks b.currentTimestamp :=
  h.behind _ fun x hx =>
    (List.pairwise_append.mp hfeed.ordered).2.2 x hx b List.mem_cons_self

/-- Everything that is accepted is on time. -/
theorem Exactly.accepted_next (h : Exactly batches s) (hfeed : Feed (batches ++ [b])) :
    (batches ++ [b]).flatMap accepted =
      batches.flatMap accepted ++ onTime eventKey Prod.fst s.stream.marks (accepted b) := by
  rw [onTime_accepted (h.behind_next hfeed)]
  simp

/-- The fresh events of a micro-batch are what it adds to the distinct ones. -/
theorem Exactly.givenIn_next (h : Exactly batches s) (hfeed : Feed (batches ++ [b])) :
    givenIn (batches ++ [b]) = givenIn batches ++ givenBy s.stream b := by
  rw [givenIn, distinctEvents, h.accepted_next hfeed, h.tracks.seen.append, contributions_append,
    givenBy_eq (h.behind_next hfeed)]
  rfl

end Batch

/-- **One micro-batch of a feed keeps the invariant.** -/
theorem Exactly.onBatch {hash : WindowedRow → Fin 4} {batches : List MicroBatch} {s : LiveState}
    {b : MicroBatch} (h : Exactly batches s) (hfeed : Feed (batches ++ [b])) :
    Exactly (batches ++ [b]) (SmartHomeEnergy.onBatch hash s b) := by
  have hacc := h.accepted_next hfeed
  have hgiven := h.givenIn_next hfeed
  refine ⟨?_, fun now hlast => ?_, ?_, ?_⟩
  · rw [hacc, hgiven]
    exact h.tracks.microBatch b
  · have hb := hlast b (by simp)
    refine advance_le (h.behind now fun x hx => hlast x (List.mem_append_left _ hx)) ?_
    intro t ht x hx
    obtain ⟨r, hr, rfl⟩ := List.mem_map.mp ht
    exact (hfeed.past b (by simp) r (List.mem_filter.mp hr).1 x hx).trans hb
  · rw [hgiven]
    exact h.follows.onBatch h.tracks b
  · exact keyed_onBatch h.keyed h.tracks b

theorem exactly_exec (hash : WindowedRow → Fin 4) {batches : List MicroBatch} (h : Feed batches) :
    Exactly batches (exec (onBatch hash) (LiveState.start .empty) batches) := by
  refine exec_induction _ (fun bs s => Feed bs → Exactly bs s) (fun _ => exactly_start)
    (fun bs b ih hfeed => ?_) batches h
  exact (ih hfeed.of_append).onBatch hfeed

/-! ### Reading the totals off -/

/-- The distinct events, as the operator keeps them and as the table should count
them. -/
theorem perm_distinctEvents {batches : List MicroBatch} (h : Feed batches) :
    (distinctEvents batches).Perm (processed batches) := by
  refine perm_dropDuplicates fun a ha b hb hk => ?_
  obtain ⟨ba, hba, haa⟩ := List.mem_flatMap.mp ha
  obtain ⟨bb, hbb, hbb'⟩ := List.mem_flatMap.mp hb
  obtain ⟨har, ⟨t, ht, -⟩, -⟩ := accepted_spec haa
  obtain ⟨hbr, -⟩ := accepted_spec hbb'
  exact h.identical a (List.mem_flatMap.mpr ⟨ba, hba, har⟩) b
    (List.mem_flatMap.mpr ⟨bb, hbb, hbr⟩) (by simp [ht]) hk

/-- Inside the windows that exist, an event has the group of its window. -/
theorem mem_windowKeys_tableKey {z d : String} {e : ℤ} (he : minutes 1 ∣ e - minutes 5)
    (r : Reading ℤ) : tableKey (z, d, e) ∈ windowKeys r ↔ InWindow z d e r := by
  rw [mem_windowKeys]
  simp only [tableKey, InWindow, Option.mem_def, he, true_and]
  constructor
  · rintro ⟨t, ht, hz, hd, hin⟩
    exact ⟨hz.symm, hd.symm, t, ht, hin⟩
  · rintro ⟨hz, hd, t, ht, hin⟩
    exact ⟨t, ht, hz.symm, hd.symm, hin⟩

/-- The sums of powers of accepted events: the powers, and how many there are. -/
theorem sum_powerSum_accepted {l : List (Reading ℤ)} (h : ∀ r ∈ l, (powerSum r).2 = 1) :
    (l.map powerSum).sum = ((l.map power).sum, l.length) := by
  induction l with
  | nil => rfl
  | cons r l ih =>
    have hr : powerSum r = (power r, 1) := by
      have := h r List.mem_cons_self
      cases hp : r.powerConsumptionWatts <;> simp_all [powerSum, power]
    rw [List.map_cons, List.sum_cons, ih fun x hx => h x (List.mem_cons_of_mem _ hx), hr]
    simp [add_comm]

/-- **The total of a key is the total of its events.** -/
theorem totalFor_givenIn {batches : List MicroBatch} (h : Feed batches) {z d : String} {e : ℤ}
    {a : PowerSum} (ha : totalFor (givenIn batches) (tableKey (z, d, e)) = some a) :
    windowEvents batches z d e ≠ [] ∧
      a = (((windowEvents batches z d e).map power).sum, (windowEvents batches z d e).length) := by
  have hperm : ((distinctEvents batches).filter (InWindow z d e)).Perm
      (windowEvents batches z d e) := (perm_distinctEvents h).filter _
  rw [totalFor, givenIn, givenTo_contributions nodup_windowKeys] at ha
  split at ha
  · exact absurd ha (by simp)
  next hne =>
    obtain ⟨r, hr⟩ := List.exists_mem_of_ne_nil _ (mt List.map_eq_nil_iff.mpr hne)
    have hkey : tableKey (z, d, e) ∈ windowKeys r := of_decide_eq_true (List.mem_filter.mp hr).2
    obtain ⟨-, -, -, -, hgrid, -⟩ := mem_windowKeys.mp hkey
    have hfilter : ((distinctEvents batches).filter fun r => tableKey (z, d, e) ∈ windowKeys r) =
        (distinctEvents batches).filter (InWindow z d e) :=
      List.filter_congr fun r _ => decide_eq_decide.mpr (mem_windowKeys_tableKey hgrid r)
    rw [hfilter] at ha hr
    -- every accepted event has a power, so that the average divides by how many there are
    have hone : ∀ x ∈ (distinctEvents batches).filter (InWindow z d e), (powerSum x).2 = 1 := by
      intro x hx
      have hx' := (dropDuplicates_subset _ _ x (List.mem_filter.mp hx).1).1
      obtain ⟨b, -, hb⟩ := List.mem_flatMap.mp hx'
      exact (powerSum_of_accepted hb).2
    rw [sum_powerSum_accepted hone, (hperm.map power).sum_eq, hperm.length_eq] at ha
    exact ⟨List.ne_nil_of_mem (hperm.mem_iff.mp hr), (Option.some.inj ha).symm⟩

/-- A row that follows a feed shows its totals. -/
theorem Exactly.showsTotals {batches : List MicroBatch} {s : LiveState} (h : Exactly batches s)
    (hfeed : Feed batches) {row : WindowedRow} (hrow : row ∈ s.table.rows) :
    ShowsTotals batches row := by
  obtain ⟨⟨z, d, e⟩, hk⟩ := Option.ne_none_iff_exists'.mp (h.keyed row hrow)
  have hsession := h.follows _ _ (Table.find_of_mem hrow hk)
  rw [sessionRow] at hsession
  cases ha : totalFor (givenIn batches) (tableKey (z, d, e)) with
  | none =>
    rw [ha] at hsession
    exact absurd hsession (by simp)
  | some a =>
    rw [ha] at hsession
    obtain rfl := Option.some.inj hsession
    obtain ⟨hne, rfl⟩ := totalFor_givenIn hfeed ha
    have hcount : (windowEvents batches z d e).length ≠ 0 := by simpa using hne
    exact ⟨z, d, e, rfl, rfl, rfl, rfl, hne, by simp [windowedRow, hcount],
      by simp [windowedRow, hcount]⟩

/-- **The live table is exact after every micro-batch**, and nothing that passes the
ten-minute filter is ever late. -/
theorem live_exact (hash : WindowedRow → Fin 4) (batches : List MicroBatch) (h : Feed batches) :
    (∀ pre post, batches = pre ++ post →
      ∀ row ∈ (exec (onBatch hash) (LiveState.start .empty) pre).table.rows,
        ShowsTotals pre row) ∧
      ∀ pre b post, batches = pre ++ b :: post → ∀ r ∈ filteredTimeDf b,
        ¬Late (exec (onBatch hash) (LiveState.start .empty) pre).stream.marks.late r.timestamp ∧
          ∀ k ∈ windowKeys r,
            ¬Late (exec (onBatch hash) (LiveState.start .empty) pre).stream.marks.late k.time := by
  constructor
  · rintro pre post rfl row hrow
    exact (exactly_exec hash h.of_append).showsTotals h.of_append hrow
  · rintro pre b post rfl r hr
    refine not_late_of_filtered ((exactly_exec hash h.of_append).behind _ fun x hx => ?_) hr
    exact (List.pairwise_append.mp h.ordered).2.2 x hx b List.mem_cons_self

/-- A healthy reading of the kitchen refrigerator. -/
def fridgeReading (t : ℤ) (p : ℚ) : Reading ℤ where
  timestamp := some t
  houseType := some "Smart_Luxury_Villa"
  currency := some "YER"
  zone := some "Kitchen"
  deviceId := some "KT_Fridge"
  deviceType := some "Critical_Appliance"
  isRoomOccupied := some true
  powerConsumptionWatts := some p
  status := some "ON"

/-- Two micro-batches: the second repeats an event of the first and brings an older
one. -/
def morning : List MicroBatch :=
  [⟨minutes 60, [fridgeReading (minutes 59) 150, fridgeReading (minutes 58) 140]⟩,
    ⟨minutes 61, [fridgeReading (minutes 59) 150, fridgeReading (minutes 57) 130]⟩]

theorem live_exact_morning :
    (exec (onBatch fun _ => 0) (LiveState.start .empty) morning).table.rows ≠ [] ∧
      ∀ row ∈ (exec (onBatch fun _ => 0) (LiveState.start .empty) morning).table.rows,
        ShowsTotals morning row := by
  have hfeed : Feed morning := ⟨by decide, by decide +kernel, by decide +kernel⟩
  exact ⟨by decide +kernel, (live_exact (fun _ => 0) morning hfeed).1 morning [] rfl⟩

end SmartHomeEnergy
