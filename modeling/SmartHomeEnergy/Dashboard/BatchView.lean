import Mathlib.Data.List.TakeWhile
import Mathlib.Data.Prod.Lex
import Mathlib.Data.String.Basic
import SmartHomeEnergy.Warehouse.Archive

/-!
# The batch view

`get_batch_analytics_page` lists `historical_analytics_summary` by zone, and within a zone by
falling average. The table is overwritten once a day by `process_parquet_batch.ipynb`, part by
part, from whatever silver rows there are by then; the page may be asked for at any moment, and
also while a refresh is on its way, or after one that was stopped.

The page never mixes two refreshes: at every moment its entries are those of the silver rows that
one refresh has read, each with the number of its readings and with their peak
(`SmartHomeEnergy.batchView_exec`). Nor need it be complete. In the order of the query a null sorts
as the largest value, so it comes first in its zone; `float` raises on it, and the handler keeps
what was listed before. There is a null exactly where the energies of a zone and a device type
add up to more than the column holds.
-/

namespace SmartHomeEnergy

open Numeric Relational Streaming Transition

/-! ### The page -/

/-- An entry of `analytics_list`. -/
structure AnalyticsEntry where
  key : SummaryKey
  overallAvgWatts : ℚ
  peakPowerWatts : ℚ
  totalRecords : ℕ
  lastUpdated : String
  deriving DecidableEq

/-- What the query orders by: the zone, and the average, the largest first. A null is larger than
any value. -/
def summaryOrder (r : SummaryRow) : WithTop String ×ₗ (WithTop ℚ)ᵒᵈ :=
  toLex (r.key.zone, OrderDual.toDual r.overallAvgWatts)

/-- **An answer of the query** to a table. -/
structure IsAnswer (rows fetched : List SummaryRow) : Prop where
  perm : fetched.Perm rows
  sorted : fetched.Pairwise fun a b => summaryOrder a ≤ summaryOrder b

/-- The entry of a row; `float` raises on a null. -/
def analyticsEntry (row : SummaryRow) : Option AnalyticsEntry :=
  match row.overallAvgWatts, row.peakPowerWatts with
  | some average, some peak =>
    some ⟨row.key, average, peak, row.totalRecordsAnalyzed, row.lastUpdated⟩
  | _, _ => none

/-- The loop over the rows. -/
def appendEntries : List SummaryRow → List AnalyticsEntry → Attempt (List AnalyticsEntry)
  | [], analyticsList => .done analyticsList
  | row :: rows, analyticsList =>
    match analyticsEntry row with
    | none => .raise analyticsList
    | some entry => appendEntries rows (analyticsList ++ [entry])

/-- `get_batch_analytics_page`: the entries it hands to the template. `fetched` is nothing when the
query raises. -/
def getBatchAnalyticsPage (fetched : Option (List SummaryRow)) : List AnalyticsEntry :=
  ((fetched.map fun rows => appendEntries rows []).getD (.raise [])).caught.state

/-- `max_peak` of the template. -/
def maxPeak (page : List AnalyticsEntry) : ℚ :=
  page.foldl
    (fun value item => if value < item.peakPowerWatts then item.peakPowerWatts else value) 0

/-- `total_p` of the template. -/
def totalPoints (page : List AnalyticsEntry) : ℕ :=
  page.foldl (fun value item => value + item.totalRecords) 0

/-- The order of the entries. -/
def ListedBefore (e f : AnalyticsEntry) : Prop :=
  ∀ z ∈ e.key.zone, ∀ z' ∈ f.key.zone, z ≤ z' ∧ (z = z' → f.overallAvgWatts ≤ e.overallAvgWatts)

/-! ### What the loop lists -/

section Page

variable {row : SummaryRow} {rows fetched : List SummaryRow} {e : AnalyticsEntry}
  {page : List AnalyticsEntry}

theorem analyticsEntry_eq_some : analyticsEntry row = some e ↔
    row.key = e.key ∧ row.overallAvgWatts = some e.overallAvgWatts ∧
      row.peakPowerWatts = some e.peakPowerWatts ∧ row.totalRecordsAnalyzed = e.totalRecords ∧
      row.lastUpdated = e.lastUpdated := by
  obtain ⟨key, average, peak, total, updated⟩ := row
  obtain ⟨key', average', peak', total', updated'⟩ := e
  cases average <;> cases peak <;> simp [analyticsEntry]

/-- **What is listed**: the rows up to the first one on which `float` raises. -/
theorem appendEntries_state : ∀ (rows : List SummaryRow) (analyticsList : List AnalyticsEntry),
    (appendEntries rows analyticsList).state =
      analyticsList ++ (rows.takeWhile fun r => (analyticsEntry r).isSome).filterMap analyticsEntry
  | [], analyticsList => (List.append_nil analyticsList).symm
  | row :: rows, analyticsList => by
    rw [appendEntries]
    cases hrow : analyticsEntry row with
    | none => simp [hrow]
    | some entry =>
      simp only
      rw [appendEntries_state rows, List.takeWhile_cons_of_pos (by simp [hrow]),
        List.filterMap_cons_some hrow, List.append_assoc, List.singleton_append]

theorem getBatchAnalyticsPage_some (fetched : List SummaryRow) :
    getBatchAnalyticsPage (some fetched) =
      (fetched.takeWhile fun r => (analyticsEntry r).isSome).filterMap analyticsEntry := by
  show (appendEntries fetched []).state = _
  rw [appendEntries_state, List.nil_append]

/-- Without a null all rows are listed. -/
theorem getBatchAnalyticsPage_of_all (h : ∀ r ∈ fetched, (analyticsEntry r).isSome) :
    getBatchAnalyticsPage (some fetched) = fetched.filterMap analyticsEntry := by
  rw [getBatchAnalyticsPage_some, List.takeWhile_eq_self_iff.mpr h]

/-- Whatever is listed is the entry of a row, in the order of the rows. -/
theorem exists_sublist_page (fetched : List SummaryRow) : ∃ listed : List SummaryRow,
    listed.Sublist fetched ∧ (∀ r ∈ listed, (analyticsEntry r).isSome) ∧
      getBatchAnalyticsPage (some fetched) = listed.filterMap analyticsEntry :=
  ⟨_, List.takeWhile_sublist _, fun _ => List.mem_takeWhile_imp, getBatchAnalyticsPage_some fetched⟩

/-- The rows that are listed, field by field. -/
theorem map_filterMap_analyticsEntry {β : Type*} {f : SummaryRow → β} {g : AnalyticsEntry → β}
    (hfg : ∀ r e, analyticsEntry r = some e → g e = f r) {listed : List SummaryRow}
    (h : ∀ r ∈ listed, (analyticsEntry r).isSome) :
    (listed.filterMap analyticsEntry).map g = listed.map f := by
  induction listed with
  | nil => rfl
  | cons r listed ih =>
    obtain ⟨e, he⟩ := Option.isSome_iff_exists.mp (h r List.mem_cons_self)
    rw [List.filterMap_cons_some he, List.map_cons, List.map_cons, hfg r e he,
      ih fun r hr => h r (List.mem_cons_of_mem _ hr)]

/-- **The order of the query is that of the entries.** -/
theorem listedBefore_of_le {a b : SummaryRow} {e f : AnalyticsEntry}
    (he : analyticsEntry a = some e) (hf : analyticsEntry b = some f)
    (h : summaryOrder a ≤ summaryOrder b) : ListedBefore e f := by
  obtain ⟨hkey, havg, -⟩ := analyticsEntry_eq_some.mp he
  obtain ⟨hkey', havg', -⟩ := analyticsEntry_eq_some.mp hf
  intro z hz z' hz'
  rw [summaryOrder, summaryOrder, hkey, hkey', Option.mem_def.mp hz, Option.mem_def.mp hz',
    havg, havg', Prod.Lex.toLex_le_toLex] at h
  rcases h with hlt | ⟨heq, hle⟩
  · have hlt' : z < z' := WithTop.coe_lt_coe.mp hlt
    exact ⟨hlt'.le, fun h => absurd h hlt'.ne⟩
  · have heq' : z = z' := WithTop.coe_injective heq
    exact ⟨heq'.le, fun _ => WithTop.coe_le_coe.mp (OrderDual.toDual_le_toDual.mp hle)⟩

theorem totalPoints_eq (page : List AnalyticsEntry) :
    totalPoints page = (page.map (·.totalRecords)).sum := by
  rw [totalPoints, List.sum_eq_foldl, List.foldl_map]

/-- **The peak of the page** is at least every peak, and one of them, or zero. -/
theorem maxPeak_spec (page : List AnalyticsEntry) :
    (∀ e ∈ page, e.peakPowerWatts ≤ maxPeak page) ∧ 0 ≤ maxPeak page ∧
      (maxPeak page = 0 ∨ ∃ e ∈ page, e.peakPowerWatts = maxPeak page) := by
  induction page using List.reverseRecOn with
  | nil => exact ⟨by simp, le_rfl, Or.inl rfl⟩
  | append_singleton page item ih =>
    obtain ⟨hle, h0, hone⟩ := ih
    have hlast : maxPeak (page ++ [item]) =
        if maxPeak page < item.peakPowerWatts then item.peakPowerWatts else maxPeak page := by
      rw [maxPeak, List.foldl_append]
      rfl
    rw [hlast]
    split
    next hlt =>
      refine ⟨fun e he => ?_, h0.trans hlt.le, Or.inr ⟨item, by simp, rfl⟩⟩
      rcases List.mem_append.mp he with he | he
      · exact (hle e he).trans hlt.le
      · rw [List.mem_singleton.mp he]
    next hge =>
      refine ⟨fun e he => ?_, h0, hone.imp_right fun ⟨e, he, hpeak⟩ =>
        ⟨e, List.mem_append_left _ he, hpeak⟩⟩
      rcases List.mem_append.mp he with he | he
      · exact hle e he
      · rw [List.mem_singleton.mp he]
        exact not_lt.mp hge

end Page

/-! ### What an entry says -/

section Entries

variable {currentTime : String} {snapshot : List (Reading String)} {k : SummaryKey} {p : ℚ}
  {row : SummaryRow} {e : AnalyticsEntry}

/-- The energies of a zone and a device type add up to what the column holds. -/
def EnergyFits (snapshot : List (Reading String)) (k : SummaryKey) : Prop :=
  roundTo halfUp 2 ((groupPowers snapshot k).sum / 1000) < 10 ^ 8

/-- **An entry sums up** the readings of its zone and device type. -/
structure SumsUp (snapshot : List (Reading String)) (e : AnalyticsEntry) : Prop where
  readings : groupPowers snapshot e.key ≠ []
  records : e.totalRecords = (groupPowers snapshot e.key).length
  average : e.overallAvgWatts = roundTo halfUp 2 ((groupPowers snapshot e.key).sum / 1000)
  peak : ∃ m ∈ groupPowers snapshot e.key, (∀ p ∈ groupPowers snapshot e.key, p ≤ m) ∧
    e.peakPowerWatts = roundTo halfUp 2 m
  bounded : 0 ≤ e.peakPowerWatts ∧ e.peakPowerWatts ≤ 3500

theorem bounds_of_mem_groupPowers (hs : Silver snapshot) (hp : p ∈ groupPowers snapshot k) :
    0 ≤ p ∧ p ≤ 3500 := by
  obtain ⟨r, hr, hrp⟩ := List.mem_map.mp (List.reduceOption_mem_iff.mp hp)
  have hmem : r ∈ snapshot := List.mem_of_mem_filter (mem_groupRows.mp hr).1
  obtain ⟨v, hv, h0, hcap, -⟩ := holds_silverCleanedDf.mp (hs r hmem)
  obtain rfl : v = p := Option.some.inj (hv.symm.trans hrp)
  exact ⟨h0, hcap⟩

theorem roundTo_power_bounds (h : 0 ≤ p ∧ p ≤ 3500) :
    0 ≤ roundTo halfUp 2 p ∧ roundTo halfUp 2 p ≤ 3500 := by
  refine ⟨roundTo_nonneg nearest_halfUp h.1, ?_⟩
  have hle := roundTo_le_intCast nearest_halfUp (d := 2) (x := p) (n := 3500)
    (by exact_mod_cast h.2)
  exact_mod_cast hle

/-- **A row of the summary** of silver rows. Its peak is always there. -/
theorem summaryDf_spec (hs : Silver snapshot) (hrow : row ∈ summaryDf currentTime snapshot) :
    groupPowers snapshot row.key ≠ [] ∧
      row.totalRecordsAnalyzed = (groupPowers snapshot row.key).length ∧
      (∀ a, row.overallAvgWatts = some a ↔ EnergyFits snapshot row.key ∧
        a = roundTo halfUp 2 ((groupPowers snapshot row.key).sum / 1000)) ∧
      ∃ m ∈ groupPowers snapshot row.key, (∀ p ∈ groupPowers snapshot row.key, p ≤ m) ∧
        row.peakPowerWatts = some (roundTo halfUp 2 m) := by
  obtain ⟨k, hk, rfl⟩ := mem_groupBy.mp hrow
  have hne := groupPowers_ne_nil hk
  refine ⟨hne, rfl, fun a => ?_, ?_⟩
  · have hsum : 0 ≤ (groupPowers snapshot k).sum / 1000 := div_nonneg
      (List.sum_nonneg fun p hp => (bounds_of_mem_groupPowers hs hp).1) (by norm_num)
    show (round2 (nullSum _)).bind (castDecimal 10 2) = some a ↔
      EnergyFits snapshot k ∧ a = roundTo halfUp 2 ((groupPowers snapshot k).sum / 1000)
    rw [nullSum_kwhConsumed hk, round2_bind_castDecimal, round2, Option.map_some,
      Option.filter_some, abs_of_nonneg (roundTo_nonneg nearest_halfUp hsum), EnergyFits]
    by_cases hfits : roundTo halfUp 2 ((groupPowers snapshot k).sum / 1000) < 10 ^ 8
    · simp [hfits, eq_comm]
    · simp [hfits]
  · obtain ⟨m, hm⟩ : ∃ m, (groupPowers snapshot k).max? = some m :=
      Option.isSome_iff_exists.mp (List.isSome_max?_of_ne_nil hne)
    obtain ⟨hmem, hle⟩ := List.max?_eq_some_iff.mp hm
    obtain ⟨h0, hcap⟩ := roundTo_power_bounds (bounds_of_mem_groupPowers hs hmem)
    refine ⟨m, hmem, hle, ?_⟩
    show (round2 (groupPowers snapshot k).max?).bind (castDecimal 10 2) = _
    rw [hm, round2_bind_castDecimal, round2, Option.map_some, Option.filter_some,
      abs_of_nonneg h0, if_pos (by simpa using hcap.trans_lt (by norm_num))]

/-- **Every entry sums up** its readings. -/
theorem sumsUp_of_mem (hs : Silver snapshot) (hrow : row ∈ summaryDf currentTime snapshot)
    (he : analyticsEntry row = some e) : SumsUp snapshot e := by
  obtain ⟨hkey, havg, hpeak, htotal, -⟩ := analyticsEntry_eq_some.mp he
  obtain ⟨hne, hrecords, haverage, m, hm, hle, hmax⟩ := summaryDf_spec hs hrow
  rw [hkey] at hne hrecords haverage hm hle
  have hpeak' : e.peakPowerWatts = roundTo halfUp 2 m := Option.some.inj (hpeak.symm.trans hmax)
  exact ⟨hne, htotal.symm.trans hrecords, ((haverage _).mp havg).2, ⟨m, hm, hle, hpeak'⟩,
    hpeak' ▸ roundTo_power_bounds (bounds_of_mem_groupPowers hs hm)⟩

/-- A row has an entry exactly when its energies fit. -/
theorem isSome_analyticsEntry (hs : Silver snapshot) (hrow : row ∈ summaryDf currentTime snapshot) :
    (analyticsEntry row).isSome ↔ EnergyFits snapshot row.key := by
  obtain ⟨-, -, haverage, m, -, -, hmax⟩ := summaryDf_spec hs hrow
  rw [analyticsEntry, hmax]
  constructor
  · cases havg : row.overallAvgWatts with
    | none => simp
    | some a => exact fun _ => ((haverage a).mp havg).1
  · intro hfits
    rw [(haverage _).mpr ⟨hfits, rfl⟩]
    rfl

/-- **A page is a view** of silver rows, by way of the rows of the table. -/
structure ViewOf (snapshot : List (Reading String)) (rows : List SummaryRow)
    (page : List AnalyticsEntry) : Prop where
  once : (page.map (·.key)).Nodup
  order : page.Pairwise ListedBefore
  named : ∀ e ∈ page, (∃ z, e.key.zone = some z) ∧ ∃ d, e.key.deviceType = some d
  sums : ∀ e ∈ page, SumsUp snapshot e
  total : totalPoints page ≤ snapshot.length
  peak : 0 ≤ maxPeak page ∧ maxPeak page ≤ 3500 ∧ ∀ e ∈ page, e.peakPowerWatts ≤ maxPeak page
  complete : (∀ r ∈ rows, EnergyFits snapshot r.key) →
    (page.map (·.key)).Perm (rows.map (·.key))

/-- **The page of a part of a summary** is a view of what was summed up. -/
theorem viewOf_page {rows fetched : List SummaryRow} (hs : Silver snapshot)
    (hrows : rows.Subperm (summaryDf currentTime snapshot)) (hok : ∀ r ∈ rows, summaryTarget.ok r)
    (hfetched : IsAnswer rows fetched) :
    ViewOf snapshot rows (getBatchAnalyticsPage (some fetched)) := by
  have hmem : ∀ r ∈ fetched, r ∈ summaryDf currentTime snapshot := fun r hr =>
    hrows.subset (hfetched.perm.mem_iff.mp hr)
  obtain ⟨listed, hlisted, hsome, hpage⟩ := exists_sublist_page fetched
  obtain ⟨part, hpart, hsub⟩ := hlisted.subperm.trans (hfetched.perm.subperm.trans hrows)
  have hentry : ∀ e ∈ getBatchAnalyticsPage (some fetched),
      ∃ r ∈ fetched, analyticsEntry r = some e := by
    intro e he
    rw [hpage] at he
    obtain ⟨r, hr, hre⟩ := List.mem_filterMap.mp he
    exact ⟨r, hlisted.subset hr, hre⟩
  have hsums : ∀ e ∈ getBatchAnalyticsPage (some fetched), SumsUp snapshot e := by
    intro e he
    obtain ⟨r, hr, hre⟩ := hentry e he
    exact sumsUp_of_mem hs (hmem r hr) hre
  have hkey : ∀ r e, analyticsEntry r = some e → e.key = r.key := fun r e he =>
    (analyticsEntry_eq_some.mp he).1.symm
  obtain ⟨hpeaks, h0, hone⟩ := maxPeak_spec (getBatchAnalyticsPage (some fetched))
  refine ⟨?_, ?_, fun e he => ?_, hsums, ?_, ⟨h0, ?_, hpeaks⟩, fun hfits => ?_⟩
  · rw [hpage, map_filterMap_analyticsEntry hkey hsome]
    exact (hpart.map _).nodup_iff.mp
      ((nodup_map_groupBy fun _ _ => rfl : (List.map _ _).Nodup).sublist (hsub.map _))
  · rw [hpage]
    exact (hfetched.sorted.sublist hlisted).filterMap _ fun a b hab e he f hf =>
      listedBefore_of_le he hf hab
  · obtain ⟨r, hr, hre⟩ := hentry e he
    obtain ⟨⟨z, hz, -⟩, ⟨d, hd, -⟩, -⟩ := hok r (hfetched.perm.mem_iff.mp hr)
    rw [← hkey r e hre] at hz hd
    exact ⟨⟨z, hz⟩, d, hd⟩
  · rw [totalPoints_eq, hpage, map_filterMap_analyticsEntry
      (fun r e he => (analyticsEntry_eq_some.mp he).2.2.2.1.symm) hsome]
    calc (listed.map (·.totalRecordsAnalyzed)).sum
        = (part.map (·.totalRecordsAnalyzed)).sum := (hpart.map _).sum_eq.symm
      _ ≤ ((summaryDf currentTime snapshot).map (·.totalRecordsAnalyzed)).sum :=
          (hsub.map _).sum_le_sum fun _ _ => Nat.zero_le _
      _ = snapshot.length := by rw [sum_totalRecordsAnalyzed, numericRows_of_silver hs]
  · rcases hone with hzero | ⟨e, he, hpeak⟩
    · rw [hzero]
      norm_num
    · exact hpeak ▸ (hsums e he).bounded.2
  · have hall : ∀ r ∈ fetched, (analyticsEntry r).isSome := fun r hr =>
      (isSome_analyticsEntry hs (hmem r hr)).mpr (hfits r (hfetched.perm.mem_iff.mp hr))
    rw [getBatchAnalyticsPage_of_all hall, map_filterMap_analyticsEntry hkey hall]
    exact hfetched.perm.map _

end Entries

/-! ### The page of a run -/

section Run

variable {D : Type} [DecidableEq D] {constraints : List (List Column)} {time : SparkTime D}
  {fromJson : String → Reading String} {s : Archive D SummaryRow}
  {es : List (ArchiveEvent D String)}

/-- **The batch view is a view of one refresh**, whatever runs, fails or is stopped, and whenever
the page is asked for. -/
theorem batchView_exec {fetched : List SummaryRow}
    (hrun : Run (ArchiveStep constraints time fromJson processParquetBatch summaryTarget)
      Archive.start es s)
    (hfetched : IsAnswer s.report.rows fetched) :
    ∃ snapshot, snapshot <+: s.medallion.silver.sink.rows ∧
      ViewOf snapshot s.report.rows (getBatchAnalyticsPage (some fetched)) := by
  obtain ⟨hlayered, hversion⟩ := oneRefresh_run (P := fun _ => True) hrun fun _ _ => trivial
  obtain ⟨v, hv, hsub, hok⟩ := hversion.rows
  rcases hv with rfl | ⟨currentTime, snapshot, -, hinit, hv⟩
  · -- nothing was written yet
    have hnone : s.report.rows.Subperm (summaryDf "" []) := hsub
    exact ⟨[], List.nil_prefix, viewOf_page (by simp [Silver]) hnone hok hfetched⟩
  · obtain ⟨-, rfl⟩ := processParquetBatch_eq_some.mp hv
    have hs : Silver snapshot := fun r hr => hlayered.silver_rows r (hinit.subset hr)
    exact ⟨snapshot, hinit, viewOf_page hs hsub hok hfetched⟩

end Run

/-- A message of the bedroom, and one of the kitchen. -/
def twoZones (message : String) : Reading String :=
  { fridgeAt message with
    zone := some (if message = "2026-01-01 12:00:00" then "Bedroom" else "Kitchen") }

/-- Both messages come to the silver rows. -/
def bothSilver : List (MedallionEvent String) :=
  .produce ["2026-01-01 12:00:00", "2026-01-01 13:00:00"] ::
    ((Execution.completeRun none).map .bronze ++ (Execution.completeRun none).map .silver)

/-- A refresh is stopped between its two parts, and the page has one zone. -/
theorem batchView_exec_stopped :
    ∃ (s : Archive String SummaryRow) (es : List (ArchiveEvent String String)),
      Run (ArchiveStep [analyticsTarget] isoTime twoZones processParquetBatch summaryTarget)
          Archive.start es s ∧
        (getBatchAnalyticsPage (some s.report.rows)).map (·.overallAvgWatts) = [0.15] ∧
        ∃ snapshot, snapshot <+: s.medallion.silver.sink.rows ∧
          ViewOf snapshot s.report.rows (getBatchAnalyticsPage (some s.report.rows)) := by
  let m := exec (medallionStep [analyticsTarget] isoTime twoZones) Medallion.start bothSilver
  let row : String → SummaryRow := fun zone =>
    ⟨⟨some zone, some "Critical_Appliance"⟩, some 0.15, some 150, 1, "2026-01-02 01:00:00"⟩
  have hnew : processParquetBatch "2026-01-02 01:00:00" m.silver.sink.rows =
      some [row "Bedroom", row "Kitchen"] := by decide +kernel
  have hparts : [[row "Bedroom"], [row "Kitchen"]].flatten.Perm [row "Bedroom", row "Kitchen"] :=
    List.Perm.refl _
  have haccepts : summaryTarget.Accepts ([] ++ [row "Kitchen"]) :=
    ⟨List.forall_mem_singleton.mpr
      ⟨⟨_, rfl, by decide +kernel⟩, ⟨_, rfl, by decide +kernel⟩, by decide⟩, by simp⟩
  have hrun := (((((run_notebooks Archive.start bothSilver).snoc (.refresh rfl hnew)).snoc
    (.job (.truncate rfl hparts))).snoc
    (.job (.insert [[row "Bedroom"]] [] rfl haccepts))).snoc (.kill _))
  exact ⟨_, _, hrun, by decide +kernel,
    batchView_exec hrun ⟨List.Perm.refl _, List.pairwise_singleton _ _⟩⟩

end SmartHomeEnergy
