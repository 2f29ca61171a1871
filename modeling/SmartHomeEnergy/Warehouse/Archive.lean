import SmartHomeEnergy.Warehouse.Accounts
import SmartHomeEnergy.Warehouse.Refresh

/-!
# Reports beside the notebooks that feed them

The monthly report and the historical summary are computed from the silver rows there are at the
start of a job, and written part by part while the other notebooks go on; the job may fail, be
refused a part or be stopped, and is run again later. `SmartHomeEnergy.ArchiveStep` has such a
report, any of the two, beside the notebooks.

At every moment the report is a part of what a single job has computed, from silver rows that are
still there (`SmartHomeEnergy.oneRefresh_run`): two months, or two zones, are never reported from
different states of the archive. For the monthly report this means that **every month that is
there is there in full** (`SmartHomeEnergy.monthlyReport_run`): its energy is that of all
device-hours of the month that the job has read, and its cost lies between those at the lowest
and the highest price.
-/

namespace SmartHomeEnergy

open Numeric Relational Streaming Transition

/-! ### A report and the notebooks -/

/-- The three notebooks, a report over their silver rows, and what its last job has computed. -/
structure Archive (D ρ : Type) where
  medallion : Medallion D
  new : List ρ
  report : Target.Job ρ

/-- Before anything has happened. -/
def Archive.start {D ρ : Type} : Archive D ρ := ⟨.start, [], ⟨[], .ended⟩⟩

/-- What happens next. -/
inductive ArchiveEvent (D ι : Type)
  | notebook (e : MedallionEvent D)
  /-- The job of the report is started. -/
  | refresh (input : ι)
  /-- A step of it. -/
  | job (e : Target.Event)
  /-- It is stopped. -/
  | kill

section Archive

variable {D ρ κ ι : Type} [DecidableEq D] (constraints : List (List Column)) (time : SparkTime D)
  (fromJson : String → Reading String) (compute : ι → List (Reading String) → Option (List ρ))
  (t : Target ρ κ)

/-- **One step.** A job reads the silver rows that there are when it is started. -/
inductive ArchiveStep : Archive D ρ → ArchiveEvent D ι → Archive D ρ → Prop
  | notebook (s : Archive D ρ) (e : MedallionEvent D) : ArchiveStep s (.notebook e)
      { s with medallion := medallionStep constraints time fromJson s.medallion e }
  /-- There is nothing to report on. -/
  | idle {s : Archive D ρ} {input : ι} : s.report.phase = .ended →
      compute input s.medallion.silver.sink.rows = none → ArchiveStep s (.refresh input) s
  | refresh {s : Archive D ρ} {input : ι} {new : List ρ} : s.report.phase = .ended →
      compute input s.medallion.silver.sink.rows = some new →
      ArchiveStep s (.refresh input) ⟨s.medallion, new, ⟨s.report.rows, .computing⟩⟩
  | job {s : Archive D ρ} {e : Target.Event} {j : Target.Job ρ} :
      t.Step s.new s.report e j → ArchiveStep s (.job e) { s with report := j }
  | kill (s : Archive D ρ) : ArchiveStep s .kill { s with report := ⟨s.report.rows, .ended⟩ }

/-- What a job may compute, from silver rows that there are, or were; or nothing. -/
def Computed (P : ι → Prop) (silver : List (Reading String)) (v : List ρ) : Prop :=
  v = [] ∨ ∃ input snapshot, P input ∧ snapshot <+: silver ∧ compute input snapshot = some v

/-- **The invariant**: the report is a part of what one job has computed. -/
structure OneRefresh (P : ι → Prop) (s : Archive D ρ) : Prop where
  layered : Layered fromJson s.medallion
  version : t.PartOfVersion (Computed compute P s.medallion.silver.sink.rows) s.new s.report

variable {constraints time fromJson compute t} {P : ι → Prop} {s s' : Archive D ρ}
  {e : ArchiveEvent D ι} {es : List (ArchiveEvent D ι)}

omit [DecidableEq D] in
theorem oneRefresh_start :
    OneRefresh fromJson compute t P (Archive.start : Archive D ρ) where
  layered := layered_start fromJson
  version :=
    ⟨⟨[], Or.inl rfl, List.Subperm.refl _, fun _ hr => absurd hr List.not_mem_nil⟩, trivial⟩

/-- **Every step keeps it.** -/
theorem OneRefresh.step (h : OneRefresh fromJson compute t P s)
    (hstep : ArchiveStep constraints time fromJson compute t s e s')
    (he : ∀ input, e = .refresh input → P input) : OneRefresh fromJson compute t P s' := by
  obtain ⟨hlayered, hversion⟩ := h
  cases hstep with
  | notebook e =>
    refine ⟨hlayered.step e, hversion.mono ?_⟩
    rintro v (rfl | ⟨input, snapshot, hP, hinit, hv⟩)
    · exact Or.inl rfl
    · exact Or.inr ⟨input, snapshot, hP,
        hinit.trans (silver_prefix_step constraints time fromJson s.medallion e), hv⟩
  | idle => exact ⟨hlayered, hversion⟩
  | @refresh input new _ hnew =>
    exact ⟨hlayered, hversion.start (Or.inr ⟨input, _, he input rfl, List.prefix_rfl, hnew⟩)⟩
  | job hjob => exact ⟨hlayered, hversion.step hjob⟩
  | kill => exact ⟨hlayered, hversion.stop⟩

/-- **In every run** the report is a part of what one job has computed. -/
theorem oneRefresh_run
    (h : Run (ArchiveStep constraints time fromJson compute t) Archive.start es s)
    (hes : ∀ input, .refresh input ∈ es → P input) : OneRefresh fromJson compute t P s := by
  refine Run.invariant_of_forall (p := fun e => ∀ input, e = .refresh input → P input)
    (OneRefresh fromJson compute t P) oneRefresh_start (fun _ _ _ h hs he => h.step hs he) h ?_
  rintro e hmem input rfl
  exact hes input hmem

/-- The notebooks alone. -/
theorem run_notebooks (s : Archive D ρ) (es : List (MedallionEvent D)) :
    Run (ArchiveStep constraints time fromJson compute t) s (es.map .notebook)
      { s with medallion := exec (medallionStep constraints time fromJson) s.medallion es } := by
  induction es using List.reverseRecOn with
  | nil => exact .start
  | append_singleton es e ih =>
    rw [List.map_append, exec_append]
    exact ih.snoc (.notebook _ e)

end Archive

/-! ### The monthly report -/

section Monthly

variable {D : Type} [DecidableEq D] {constraints : List (List Column)} {time : SparkTime D}
  {fromJson : String → Reading String} {prices : List PriceRow} {snapshot : List (Reading String)}
  {lo hi : ℚ} {row : MonthRow}

/-- Part 2 of `spark_dwh_batch.ipynb`: what it writes. -/
def monthlyReport (time : SparkTime D) (prices : List PriceRow) (rows : List (Reading String)) :
    Option (List MonthRow) :=
  some (monthlyReportDf time prices rows)

/-- **A row reports a month in full**: all its device-hours, each at the mean of all its
readings and of at most 3.5 kWh. -/
structure ReportsMonth (time : SparkTime D) (snapshot : List (Reading String)) (lo hi : ℚ)
    (hours : List (HourRow D × Option PriceRow)) (row : MonthRow) : Prop where
  distinct : (hours.map fun p => p.1.key).Nodup
  measured : ∀ p ∈ hours, p.1 = hourOf time snapshot p.1.key ∧
    p.1.key.toMonth.reportMonth = row.reportMonth
  whole : ∀ r ∈ snapshot, reportMonth r = row.reportMonth → ∃ p ∈ hours, p.1.key = hourKey time r
  energy : row.totalKwh = some (roundTo halfUp 2 (energyOf hours))
  bounded : ∀ p ∈ hours, ∃ kwh, realKwh p.1.avgWatts = some kwh ∧ 0 ≤ kwh ∧ kwh ≤ 7 / 2
  cost : ∃ c, row.estimatedCostYer = some c ∧
    roundTo halfUp 2 (lo * energyOf (hours.filter fun p => HasPrice p)) ≤ c ∧
      c ≤ roundTo halfUp 2 (hi * energyOf (hours.filter fun p => HasPrice p))

/-- The device-hours of a month. -/
def hoursOfMonth (time : SparkTime D) (prices : List PriceRow) (snapshot : List (Reading String))
    (month : Option String) : List (HourRow D × Option PriceRow) :=
  (joinedBatch time prices snapshot).filter fun p => p.1.key.toMonth.reportMonth = month

theorem groupRows_enrichedDf (month : Option String) :
    groupRows (fun p => p.1.key.reportMonth) (enrichedDf time prices snapshot) month =
      (hoursOfMonth time prices snapshot month).map fun p => (p.1.toMonth, p.2) := by
  rw [groupRows, enrichedDf_eq, List.filter_map]
  rfl

/-- The device-hours of a month, each at the mean of all its readings. -/
theorem mem_hoursOfMonth {month : Option String} {p : HourRow D × Option PriceRow}
    (hp : p ∈ hoursOfMonth time prices snapshot month) :
    p ∈ joinedBatch time prices snapshot ∧ p.1 = hourOf time snapshot p.1.key ∧
      p.1.key.toMonth.reportMonth = month := by
  obtain ⟨hjoined, hmonth⟩ := List.mem_filter.mp hp
  obtain ⟨⟨h, -, he⟩, -⟩ := (mem_joinedBatch time prices).mp hjoined
  have hkey : p.1.key = h := congrArg HourRow.key he
  exact ⟨hjoined, by rw [hkey]; exact he, of_decide_eq_true hmonth⟩

/-- No device-hour of the month is missing. -/
theorem exists_hourOfMonth {r : Reading String} (hr : r ∈ snapshot) :
    ∃ p ∈ hoursOfMonth time prices snapshot (reportMonth r), p.1.key = hourKey time r := by
  obtain ⟨q, hq⟩ := exists_pricedHour prices (mem_groupKeys.mpr ⟨r, hr, rfl⟩ :
    hourKey time r ∈ groupKeys (hourKey time) snapshot)
  refine ⟨(hourOf time snapshot (hourKey time r), q), List.mem_filter.mpr ⟨?_, ?_⟩, rfl⟩
  · rw [joinedBatch_eq]
    exact List.mem_map_of_mem hq
  · exact decide_eq_true (reportMonth_of_hourKey time r)

/-- A decimal that is not null is a value, rounded. -/
theorem exists_of_castDecimal {n : ℕ} {x : Option ℚ}
    (h : (round2 x).bind (castDecimal n 2) ≠ none) :
    ∃ y, x = some y ∧ (round2 x).bind (castDecimal n 2) = some (roundTo halfUp 2 y) := by
  cases x with
  | none => exact absurd rfl h
  | some y => exact ⟨y, rfl, castDecimal_of_ne_none h⟩

/-- **Every row that is stored reports its month in full.** -/
theorem reportsMonth_of_mem (h0 : 0 ≤ lo) (hs : Silver snapshot)
    (hprices : PricesWithin lo hi prices) (hrow : row ∈ monthlyReportDf time prices snapshot)
    (hok : monthlyTarget.ok row) : ∃ hours, ReportsMonth time snapshot lo hi hours row := by
  obtain ⟨month, hmonth, rfl⟩ := mem_groupBy.mp (List.mem_mergeSort.mp hrow)
  have hne := groupRows_ne_nil hmonth
  rw [groupRows_enrichedDf] at hne hok ⊢
  set hours := hoursOfMonth time prices snapshot month
  have hspec : ∀ p ∈ hours, Plausible p ∧ ∀ q ∈ p.2.bind (·.pricePerKwh), lo ≤ q ∧ q ≤ hi :=
    fun p hp => (joined_spec hs (List.Subset.refl _) hprices (mem_hoursOfMonth hp).1).2
  have hbounds := fun p hp => (hspec p hp).1
  have hkwh : (hours.map fun p => (p.1.toMonth, p.2)).map
      (fun p => realKwh p.1.avgWattsPerHour) = hours.map fun p => realKwh p.1.avgWatts :=
    List.map_map
  have hcost : (hours.map fun p => (p.1.toMonth, p.2)).map
      (fun p => realCost p.1.avgWattsPerHour p.2) = hours.map fun p => realCost p.1.avgWatts p.2 :=
    List.map_map
  obtain ⟨kwh, hkwh', htotal⟩ := exists_of_castDecimal hok.2.1
  obtain ⟨cost, hcost', hbill⟩ := exists_of_castDecimal hok.2.2
  rw [hkwh, nullSum_realKwh hbounds fun h => hne (by rw [h, List.map_nil])] at hkwh'
  rw [hcost] at hcost'
  obtain ⟨hlo, hhi⟩ := (nullSum_realCost hbounds fun p hp => (hspec p hp).2).2 cost hcost'
  have hlo0 : 0 ≤ lo * energyOf (hours.filter fun p => HasPrice p) :=
    mul_nonneg h0 (energyOf_bounds fun p hp => hbounds p (List.mem_of_mem_filter hp)).1
  refine ⟨hours, ?_, fun p hp => (mem_hoursOfMonth hp).2, ?_, ?_, fun p hp => (hbounds p hp).kwh,
    _, hbill, roundTo_halfUp_mono hlo0 hlo, roundTo_halfUp_mono (hlo0.trans hlo) hhi⟩
  · exact (nodup_joinedBatch hprices).sublist (List.filter_sublist.map _)
  · rintro r hr rfl
    exact exists_hourOfMonth hr
  · rw [Option.some.inj hkwh']
    exact htotal

/-- **Every month that is reported is reported in full**, at any moment of any run of the
notebooks and the report, whatever fails, is refused or is stopped, and with any prices between
the bounds: the rows are of different months, and all of them from one state of the archive. -/
theorem monthlyReport_run {s : Archive D MonthRow} {es : List (ArchiveEvent D (List PriceRow))}
    (h0 : 0 ≤ lo)
    (hrun : Run (ArchiveStep constraints time fromJson (monthlyReport time) monthlyTarget)
      Archive.start es s)
    (hprices : ∀ prices, .refresh prices ∈ es → PricesWithin lo hi prices) :
    (s.report.rows.map (·.reportMonth)).Nodup ∧
      ∃ snapshot, snapshot <+: s.medallion.silver.sink.rows ∧
        ∀ row ∈ s.report.rows, ∃ hours, ReportsMonth time snapshot lo hi hours row := by
  obtain ⟨hlayered, hversion⟩ := oneRefresh_run (P := PricesWithin lo hi) hrun hprices
  obtain ⟨v, hv, ⟨part, hpart, hsub⟩, hok⟩ := hversion.rows
  rcases hv with rfl | ⟨prices, snapshot, hbounds, hinit, hv⟩
  · -- nothing was written yet
    obtain rfl := List.sublist_nil.mp hsub
    rw [List.nil_perm.mp hpart]
    exact ⟨List.nodup_nil, [], List.nil_prefix, fun row hrow => absurd hrow List.not_mem_nil⟩
  · obtain rfl := Option.some.inj hv
    have hs : Silver snapshot := fun r hr => hlayered.silver_rows r (hinit.subset hr)
    have hmonths : ((monthlyReportDf time prices snapshot).map (·.reportMonth)).Nodup :=
      ((List.mergeSort_perm _ _).map _).nodup_iff.mpr (nodup_map_groupBy fun _ _ => rfl)
    refine ⟨(hpart.map _).nodup_iff.mp (hmonths.sublist (hsub.map _)), snapshot, hinit,
      fun row hrow => reportsMonth_of_mem h0 hs hbounds ?_ (hok row hrow)⟩
    exact hsub.subset (hpart.mem_iff.mpr hrow)

end Monthly

/-- Readings of two months come to the silver rows. -/
def twoMonths : List (MedallionEvent String) :=
  .produce ["2026-01-01 12:00:00", "2026-02-01 13:00:00"] ::
    ((Execution.completeRun none).map .bronze ++ (Execution.completeRun none).map .silver)

/-- The second month has no price: its row is refused, and the first month is left. -/
theorem monthlyReport_run_refused :
    ∃ (s : Archive String MonthRow) (es : List (ArchiveEvent String (List PriceRow))),
      Run (ArchiveStep [analyticsTarget] isoTime fridgeAt (monthlyReport isoTime) monthlyTarget)
          Archive.start es s ∧
        s.report.rows = [⟨some "2026-01", some 0.15, some 3⟩] ∧
        (s.report.rows.map (·.reportMonth)).Nodup ∧
          ∃ snapshot, snapshot <+: s.medallion.silver.sink.rows ∧
            ∀ row ∈ s.report.rows, ∃ hours, ReportsMonth isoTime snapshot 20 20 hours row := by
  let jan : MonthRow := ⟨some "2026-01", some 0.15, some 3⟩
  let feb : MonthRow := ⟨some "2026-02", some 0.15, none⟩
  let m := exec (medallionStep [analyticsTarget] isoTime fridgeAt) Medallion.start twoMonths
  have hgroups : [jan, feb] = groupBy (fun p => p.1.key.reportMonth) monthRow
      (enrichedDf isoTime noonPrice m.silver.sink.rows) := by decide +kernel
  have hparts : [[jan], [feb]].flatten.Perm
      (monthlyReportDf isoTime noonPrice m.silver.sink.rows) :=
    (List.Perm.of_eq hgroups).trans (List.mergeSort_perm _ _).symm
  have haccepts : monthlyTarget.Accepts ([] ++ [jan]) :=
    ⟨List.forall_mem_singleton.mpr ⟨⟨_, rfl, by decide +kernel⟩, by simp [jan], by simp [jan]⟩,
      by simp⟩
  have hrefused : ¬monthlyTarget.Accepts ([jan] ++ [feb]) := fun h =>
    (h.1 feb (by simp)).2.2 rfl
  have hnew : monthlyReport isoTime noonPrice m.silver.sink.rows =
      some (monthlyReportDf isoTime noonPrice m.silver.sink.rows) := rfl
  have hrun := ((((run_notebooks Archive.start twoMonths).snoc (.refresh rfl hnew)).snoc
    (.job (.truncate rfl hparts))).snoc (.job (.insert [] [[feb]] rfl haccepts))).snoc
      (.job (.refuse rfl List.mem_cons_self hrefused))
  have hprices : ∀ prices : List PriceRow, prices = noonPrice → PricesWithin 20 20 prices := by
    rintro _ rfl
    simp [PricesWithin, noonPrice]
  exact ⟨_, _, hrun, rfl, monthlyReport_run (by norm_num) hrun fun prices hmem =>
    hprices prices (by simpa [twoMonths] using hmem)⟩

end SmartHomeEnergy
