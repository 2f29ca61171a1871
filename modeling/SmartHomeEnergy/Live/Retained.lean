import SmartHomeEnergy.Dashboard.LiveView
import SmartHomeEnergy.Live.Faults

/-!
# How much is kept, and what is shown of it

The windows of the live layer end on the minute, and the table holds one row for a zone, a type
and an end. So there are eleven rows at most for a zone and a type whose windows ended within
ten minutes: whatever has failed before, **a purge that does not fail leaves a table of eleven
rows for each zone and type** (`SmartHomeEnergy.length_le_of_purged`), and the live view of the
dashboard is made of no more.

What it shows is then bounded too. In every run of the live layer, with whatever thresholds there
are, **the view lists a type once, the dearest first, at a cost between zero and a twentieth of
the cap of the stream** (`SmartHomeEnergy.liveView_exec`).
-/

namespace SmartHomeEnergy

open Relational Numeric Streaming Transition

/-! ### Windows within ten minutes -/

section Windows

variable {rows : List WindowedRow} {es : List LiveEvent} {newest : ℤ}

/-- The end of a window lies on the minute, within the ten minutes before the newest one. -/
def EndsWithin (newest : ℤ) (r : WindowedRow) : Prop :=
  ∃ e, r.windowEnd = some e ∧ minutes 1 ∣ e ∧ newest - minutes 10 ≤ e ∧ e ≤ newest

/-- **The end is one of eleven.** -/
theorem EndsWithin.mem {r : WindowedRow} (h : EndsWithin newest r) (hgrid : minutes 1 ∣ newest) :
    r.windowEnd ∈ (List.range 11).map fun k : ℕ => some (newest - minutes k) := by
  obtain ⟨e, he, ⟨a, rfl⟩, hlo, hhi⟩ := h
  obtain ⟨n, rfl⟩ := hgrid
  simp only [minutes] at hlo hhi he ⊢
  refine List.mem_map.mpr ⟨(n - a).toNat, List.mem_range.mpr (by omega), ?_⟩
  rw [he, Int.toNat_of_nonneg (by omega)]
  congr 1
  ring

/-- Rows of one zone and type that have different keys end at different times. -/
theorem nodup_windowEnd (hkeys : (rows.filterMap windowedKey).Nodup) {z d : String}
    (hzone : ∀ r ∈ rows, r.zone = some z ∧ r.deviceType = some d ∧ r.windowEnd ≠ none) :
    (rows.map (·.windowEnd)).Nodup := by
  refine List.pairwise_map.mpr ((List.pairwise_filterMap.mp hkeys).imp_of_mem ?_)
  intro r r' hr hr' hne he
  obtain ⟨hz, hd, hend⟩ := hzone r hr
  obtain ⟨hz', hd', -⟩ := hzone r' hr'
  obtain ⟨e, hr⟩ := Option.ne_none_iff_exists'.mp hend
  have hkey : windowedKey r = some (z, d, e) := windowedKey_eq_some.mpr ⟨hz, hd, hr⟩
  have hkey' : windowedKey r' = some (z, d, e) := windowedKey_eq_some.mpr ⟨hz', hd', he ▸ hr⟩
  exact hne _ hkey _ hkey' rfl

/-- **Eleven rows** at most have one zone and type. -/
theorem length_le_eleven (hkeys : (rows.filterMap windowedKey).Nodup) {z d : String}
    (hzone : ∀ r ∈ rows, r.zone = some z ∧ r.deviceType = some d) (hgrid : minutes 1 ∣ newest)
    (hends : ∀ r ∈ rows, EndsWithin newest r) : rows.length ≤ 11 := by
  have hnodup := nodup_windowEnd hkeys fun r hr => by
    obtain ⟨e, he, -⟩ := hends r hr
    exact ⟨(hzone r hr).1, (hzone r hr).2, by simp [he]⟩
  have hsub : rows.map (·.windowEnd) ⊆ (List.range 11).map fun k : ℕ => some (newest - minutes k) :=
    fun x hx => by
      obtain ⟨r, hr, rfl⟩ := List.mem_map.mp hx
      exact (hends r hr).mem hgrid
  simpa using (hnodup.subperm hsub).length_le

/-- What the rows of a window share with those of other windows. -/
def zoneAndType (r : WindowedRow) : Option String × Option String := (r.zone, r.deviceType)

/-- **Eleven rows for each zone and type.** -/
theorem length_le_of_endsWithin (hkeys : (rows.filterMap windowedKey).Nodup)
    (hkeyed : ∀ r ∈ rows, windowedKey r ≠ none) (hgrid : minutes 1 ∣ newest)
    (hends : ∀ r ∈ rows, EndsWithin newest r) (k : Option String × Option String) :
    (groupRows zoneAndType rows k).length ≤ 11 := by
  rcases (groupRows zoneAndType rows k).eq_nil_or_concat with hnil | ⟨_, r₀, hlast⟩
  · simp [hnil]
  · -- a group has a zone and a type, those of any of its rows
    have hr₀ : r₀ ∈ groupRows zoneAndType rows k := by simp [hlast]
    obtain ⟨key, hkey⟩ := Option.ne_none_iff_exists'.mp (hkeyed r₀ (mem_groupRows.mp hr₀).1)
    obtain ⟨hz, hd, -⟩ := windowedKey_eq_some.mp hkey
    have hsame : ∀ r ∈ groupRows zoneAndType rows k,
        r.zone = some key.1 ∧ r.deviceType = some key.2.1 := fun r hr => by
      have he : zoneAndType r = zoneAndType r₀ :=
        (mem_groupRows.mp hr).2.trans (mem_groupRows.mp hr₀).2.symm
      exact ⟨(congrArg Prod.fst he).trans hz, (congrArg Prod.snd he).trans hd⟩
    exact length_le_eleven (hkeys.sublist (List.filter_sublist.filterMap _)) hsame hgrid
      fun r hr => hends r (mem_groupRows.mp hr).1

end Windows

/-! ### After a purge -/

section Purge

variable {hash : WindowedRow → Fin 4} {es : List LiveEvent} {s : LiveState}

/-- A row that stands for events ends on the minute. -/
theorem StandsFor.grid {events : List (Reading ℤ)} {r : WindowedRow} (h : StandsFor events r) :
    ∃ e, r.windowEnd = some e ∧ minutes 1 ∣ e := by
  obtain ⟨-, -, e, -, -, -, he, -, hgrid, -⟩ := h
  refine ⟨e, he, ?_⟩
  have hfive : minutes 1 ∣ minutes 5 := ⟨5, by decide⟩
  simpa using dvd_add hgrid hfive

theorem runsFaulty_exec (hash : WindowedRow → Fin 4) (es : List LiveEvent) :
    RunsFaulty es (exec (liveEventStep hash) (LiveState.start .empty) es) :=
  exec_induction _ RunsFaulty runsFaulty_start (fun _ e ih => ih.step e) es

/-- **What a purge leaves** ended within ten minutes. -/
theorem endsWithin_of_purged (t : LiveTable)
    (hends : ∀ r ∈ (t.deleteWhere (Outdated t)).rows, ∃ e, r.windowEnd = some e ∧ minutes 1 ∣ e) :
    (t.deleteWhere (Outdated t)).rows = [] ∨ ∃ newest, minutes 1 ∣ newest ∧
      ∀ r ∈ (t.deleteWhere (Outdated t)).rows, EndsWithin newest r := by
  cases hnewest : (t.rows.filterMap (·.windowEnd)).max? with
  | none =>
    -- without an end there is no row
    left
    refine List.eq_nil_iff_forall_not_mem.mpr fun r hr => ?_
    obtain ⟨e, he, -⟩ := hends r hr
    have hmem : e ∈ t.rows.filterMap (·.windowEnd) :=
      List.mem_filterMap.mpr ⟨r, ((Table.mem_deleteWhere _).mp hr).1, he⟩
    rw [List.max?_eq_none_iff.mp hnewest] at hmem
    exact absurd hmem List.not_mem_nil
  | some newest =>
    right
    obtain ⟨hfound, hmax⟩ := List.max?_eq_some_iff.mp hnewest
    -- the newest row is not outdated itself
    obtain ⟨r₀, hr₀, he₀⟩ := List.mem_filterMap.mp hfound
    have hr₀' : r₀ ∈ (t.deleteWhere (Outdated t)).rows := by
      refine (Table.mem_deleteWhere _).mpr ⟨hr₀, ?_⟩
      rintro ⟨m, hm, e, he, hlt⟩
      obtain rfl : newest = m := Option.some.inj (hnewest.symm.trans hm)
      obtain rfl : newest = e := Option.some.inj (he₀.symm.trans he)
      rw [minutes] at hlt
      omega
    obtain ⟨e, he, hgrid⟩ := hends r₀ hr₀'
    obtain rfl : newest = e := Option.some.inj (he₀.symm.trans he)
    refine ⟨newest, hgrid, fun r hr => ?_⟩
    obtain ⟨e, he, hminute⟩ := hends r hr
    obtain ⟨hmem, hkept⟩ := (Table.mem_deleteWhere _).mp hr
    refine ⟨e, he, hminute, ?_, hmax e (List.mem_filterMap.mpr ⟨r, hmem, he⟩)⟩
    by_contra hlt
    exact hkept ⟨newest, hnewest, e, he, not_le.mp hlt⟩

/-- **After a purge that does not fail** there is no outdated row. -/
theorem writeToPostgresOnly_purged {n : ℕ} {partitions : Partitions} {purgeFault : Option Fault}
    (t : LiveTable) (hfifth : n % 5 = 0) (hne : ∃ p ∈ partitions, p.2 ≠ [])
    (hpurge : purgeFault = none ∨ purgeFault = some .close) :
    ∃ merged : LiveTable, (writeToPostgresOnly n partitions purgeFault t).state =
      merged.deleteWhere (Outdated merged) := by
  refine ⟨t.upsertAll windowedUpsert (committed partitions), ?_⟩
  have hnot : ¬∀ p ∈ partitions, p.2 = [] := fun h =>
    let ⟨p, hp, hrows⟩ := hne
    hrows (h p hp)
  rw [writeToPostgresOnly, if_neg hnot, foreachPartition_eq, Attempt.done_bind, if_pos hfifth,
    Attempt.caught_state]
  rcases hpurge with rfl | rfl <;> rfl

theorem exists_mem_spreadFaults {faults : Fin 4 → Option Fault} {rows : List WindowedRow}
    (h : rows ≠ []) : ∃ p ∈ spreadFaults hash faults rows, p.2 ≠ [] := by
  obtain ⟨r, hr⟩ := List.exists_mem_of_ne_nil _ h
  refine ⟨_, List.mem_map.mpr ⟨hash r, List.mem_finRange _, rfl⟩, ?_⟩
  exact List.ne_nil_of_mem (List.mem_filter.mpr ⟨hr, by simp⟩)

/-- **A table is small after a purge** that does not fail, whatever has failed before it: it has
eleven rows at most of each zone and type. -/
theorem length_le_of_purged (hash : WindowedRow → Fin 4) (es : List LiveEvent) (b : MicroBatch)
    (faults : Fin 4 → Option Fault) (purgeFault : Option Fault)
    (hfifth : (exec (liveEventStep hash) (LiveState.start .empty) es).batchId % 5 = 0)
    (hrows : (microBatch (exec (liveEventStep hash) (LiveState.start .empty) es).stream b).2 ≠ [])
    (hpurge : purgeFault = none ∨ purgeFault = some .close) :
    let t := (exec (liveEventStep hash) (LiveState.start .empty)
      (es ++ [.batch b faults purgeFault])).table
    ∀ k, (groupRows zoneAndType t.rows k).length ≤ 11 := by
  intro t k
  have hruns := runsFaulty_exec hash (es ++ [.batch b faults purgeFault])
  obtain ⟨merged, hmerged⟩ : ∃ merged : LiveTable, t = merged.deleteWhere (Outdated merged) := by
    show ∃ merged : LiveTable, (exec (liveEventStep hash) (LiveState.start .empty)
      (es ++ [.batch b faults purgeFault])).table = _
    rw [exec_append]
    exact writeToPostgresOnly_purged _ hfifth (exists_mem_spreadFaults hrows) hpurge
  have hends : ∀ r ∈ t.rows, ∃ e, r.windowEnd = some e ∧ minutes 1 ∣ e := fun r hr =>
    (hruns.rows r hr).grid
  rw [hmerged] at hends
  rcases endsWithin_of_purged merged hends with hempty | ⟨newest, hgrid, hwithin⟩
  · simp [hmerged, hempty, groupRows]
  · rw [← hmerged] at hwithin
    exact length_le_of_endsWithin t.unique hruns.keyed hgrid hwithin k

end Purge

/-- A batch before the program starts again. -/
def beforeRestart : List LiveEvent :=
  [.batch ⟨minutes 60, [fridgeReading (minutes 59) 300]⟩ (fun _ => none) none]

/-- The ids begin anew, and the windows from before are purged. -/
theorem length_le_of_purged_restarted :
    let t := (exec (liveEventStep fun _ => 0) (LiveState.start .empty)
      ((beforeRestart ++ [.restart]) ++
        [.batch ⟨minutes 80, [fridgeReading (minutes 79) 200]⟩ (fun _ => none)
          (some .close)])).table
    t.rows.length = 5 ∧ ∀ k, (groupRows zoneAndType t.rows k).length ≤ 11 :=
  ⟨by decide +kernel, length_le_of_purged (fun _ => 0) (beforeRestart ++ [.restart]) _ _ _
    (by decide +kernel) (by decide +kernel) (Or.inr rfl)⟩

/-! ### The live view -/

section View

variable {lower : String → String} {rows : List WindowedRow} {thresholds : List LimitRow}
  {d : String}

theorem twenty_dvd_liveCap (d : String) : 20 ∣ liveCap d := by
  rw [liveCap]
  split_ifs <;> decide

instance : Std.Total CostsMore := ⟨fun v w => by
  cases hv : v.current10minCost with
  | none => exact Or.inl fun a ha => absurd (hv.symm.trans ha) (by simp)
  | some a =>
    cases hw : w.current10minCost with
    | none => exact Or.inr fun b hb => absurd (hw.symm.trans hb) (by simp)
    | some b => simpa [CostsMore, hv, hw] using le_total b a⟩

instance : IsTrans ViolatedDevice CostsMore := ⟨fun _ _ _ hvw hwx a ha => by
  obtain ⟨b, hb, hle⟩ := hvw a ha
  obtain ⟨c, hc, hle'⟩ := hwx b hb
  exact ⟨c, hc, hle'.trans hle⟩⟩

/-- The cost of rows whose means lie under a cap. -/
theorem liveCost_bounds (hne : rows ≠ [])
    (h : ∀ r ∈ rows, ∃ w, r.avgPowerWatts = some w ∧ 0 ≤ w ∧ w ≤ liveCap d) :
    ∃ c, liveCost rows = some c ∧ 0 ≤ c ∧ c ≤ liveCap d / 20 := by
  have hmean : rows.map (·.avgPowerWatts) ≠ [] := fun h0 => hne (List.map_eq_nil_iff.mp h0)
  obtain ⟨w, hw, h0, -⟩ := nullAvg_of_nonneg hmean (List.forall_mem_map.mpr fun r hr => by
    obtain ⟨v, hv, h0, -⟩ := h r hr
    exact ⟨v, hv, h0⟩)
  have hcap : w ≤ liveCap d := nullAvg_le hw fun x hx => by
    obtain ⟨r, hr, hx⟩ := List.mem_map.mp hx
    obtain ⟨v, hv, -, hle⟩ := h r hr
    rwa [← Option.some.inj (hv.symm.trans hx)]
  obtain ⟨n, hn⟩ := twenty_dvd_liveCap d
  have hn' : (liveCap d : ℚ) / 20 = (n : ℤ) := by
    rw [hn]
    push_cast
    ring
  refine ⟨roundTo halfUp 2 (w * 0.05), by rw [liveCost, hw, Option.map_some],
    roundTo_nonneg nearest_halfUp (by positivity), ?_⟩
  rw [hn']
  exact roundTo_le_intCast nearest_halfUp (by rw [← hn']; linarith)

/-- **What the view shows** of rows that are bounded: each type once, the dearest first. -/
theorem devicesSummary_spec (lower : String → String) (thresholds : List LimitRow)
    (h : ∀ r ∈ rows, Bounded r) :
    let shown := getViolatedDevices lower false rows thresholds
    (shown.map (·.deviceName)).Nodup ∧
      (∀ v ∈ shown, ∃ d c, v.deviceName = some d ∧ v.current10minCost = some c ∧
        0 ≤ c ∧ c ≤ liveCap d / 20) ∧
      shown.Pairwise fun v w => ∃ a b, v.current10minCost = some a ∧
        w.current10minCost = some b ∧ b ≤ a := by
  intro shown
  have hperm := devicesSummary_perm lower rows thresholds
  have hcosts : ∀ v ∈ shown, ∃ d c, v.deviceName = some d ∧ v.current10minCost = some c ∧
      0 ≤ c ∧ c ≤ liveCap d / 20 := by
    intro v hv
    obtain ⟨k, hk, rfl⟩ := mem_groupBy.mp (hperm.mem_iff.mp hv)
    obtain ⟨r₀, hr₀, rfl⟩ := mem_groupKeys.mp hk
    obtain ⟨d, -, -, hd, -⟩ := h r₀ (List.mem_filter.mp hr₀).1
    obtain ⟨c, hc, hbounds⟩ := liveCost_bounds (d := d) (groupRows_ne_nil hk) fun r hr => by
      obtain ⟨hrecent, hsame⟩ := mem_groupRows.mp hr
      obtain ⟨d', w, -, hd', hw, -, h0, -, hcap⟩ := h r (List.mem_filter.mp hrecent).1
      obtain rfl : d' = d := Option.some.inj (hd'.symm.trans (hsame.trans hd))
      exact ⟨w, hw, h0, hcap⟩
    exact ⟨d, c, hd, hc, hbounds⟩
  refine ⟨?_, hcosts, ?_⟩
  · refine (hperm.map _).nodup_iff.mpr ?_
    exact nodup_map_groupBy fun _ _ => rfl
  · refine (List.pairwise_insertionSort CostsMore _).imp_of_mem fun hv hw hmore => ?_
    obtain ⟨-, a, -, ha, -⟩ := hcosts _ hv
    obtain ⟨b, hb, hle⟩ := hmore a ha
    exact ⟨a, b, ha, hb, hle⟩

end View

/-- **The live view is bounded**, in every run of the live layer, whatever fails and however often
it starts again, and whatever thresholds there are. -/
theorem liveView_exec (hash : WindowedRow → Fin 4) (es : List LiveEvent)
    (lower : String → String) (thresholds : List LimitRow) :
    let rows := (exec (liveEventStep hash) (LiveState.start .empty) es).table.rows
    let shown := getViolatedDevices lower false rows thresholds
    (shown.map (·.deviceName)).Nodup ∧
      (∀ v ∈ shown, ∃ d c, v.deviceName = some d ∧ v.current10minCost = some c ∧
        0 ≤ c ∧ c ≤ liveCap d / 20) ∧
      shown.Pairwise fun v w => ∃ a b, v.current10minCost = some a ∧
        w.current10minCost = some b ∧ b ≤ a :=
  devicesSummary_spec lower thresholds fun r hr => ((runsFaulty_exec hash es).rows r hr).bounded

end SmartHomeEnergy
