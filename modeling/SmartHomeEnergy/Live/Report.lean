import SmartHomeEnergy.Live.Exact

/-!
# The household report and the sampling rate

`ai_report_generator.ipynb` takes the latest row of every zone and device type from the
live table, adds up `total_power_watts` and reads the result as the power the house
draws: divided by 1000 it is the consumption of an hour, and with the price its cost.

But `total_power_watts` is a sum over *samples*. A house that sends every reading `k`
times as often is reported with `k` times the consumption
(`SmartHomeEnergy.report_windowTable`, `SmartHomeEnergy.sum_readingWatts_resample`), and
only a house that draws nothing is reported alike (`SmartHomeEnergy.report_sampling_iff`).
-/

namespace SmartHomeEnergy

open Relational Streaming Transition

/-! ### The report -/

/-- The order of `window_end DESC`, in which a null comes first. -/
def Later (x y : WindowedRow) : Prop :=
  match x.windowEnd, y.windowEnd with
  | none, _ => False
  | some _, none => True
  | some a, some b => a < b

instance (x y : WindowedRow) : Decidable (Later x y) := by
  unfold Later
  split <;> infer_instance

/-- The latest of some rows. -/
def latest (rows : List WindowedRow) : Option WindowedRow :=
  rows.foldl (fun acc r => match acc with
    | none => some r
    | some x => if Later x r then some r else some x) none

/-- `query_latest_energy`: the latest row of every zone and device type. -/
def queryLatestEnergy (t : LiveTable) : List WindowedRow :=
  (groupBy (fun r => (r.zone, r.deviceType)) (fun _ rows => latest rows) t.rows).reduceOption

/-- The two totals of a report. -/
structure ReportTotals where
  totalConsumptionKwh : ℚ
  totalHourlyCostYer : ℚ
  deriving DecidableEq

/-- The power of a row, as `float` reads it. -/
def rowWatts (r : WindowedRow) : ℚ := r.totalPowerWatts.getD 0

/-- The totals of `generate_grand_ai_report`; there is no report without a row, and none
when a power is missing. -/
def generateGrandAiReport (actualPricePerKwh : ℚ) (t : LiveTable) : Option ReportTotals :=
  let energyRows := queryLatestEnergy t
  if energyRows = [] ∨ ∃ r ∈ energyRows, r.avgPowerWatts = none ∨ r.totalPowerWatts = none then none
  else
    let totalConsumptionWatts := (energyRows.map rowWatts).sum
    let totalConsumptionKwh := totalConsumptionWatts / 1000
    some ⟨totalConsumptionKwh, totalConsumptionKwh * actualPricePerKwh⟩

/-! ### One window of readings -/

/-- Clean readings inside the window that ends at `e`, no two of the same time and
device. -/
structure CleanWindow (e : ℤ) (rs : List (Reading ℤ)) : Prop where
  grid : minutes 1 ∣ e - minutes 5
  clean : ∀ r ∈ rs, (contextCleanDf r).Holds
  inside : ∀ r ∈ rs, ∃ t ∈ r.timestamp, e - minutes 5 ≤ t ∧ t < e
  distinct : (rs.map eventKey).Nodup

/-- The rows of one window, as a query that starts on the readings hands them over. -/
def windowRows (e : ℤ) (rs : List (Reading ℤ)) : List WindowedRow :=
  (microBatch StreamState.start ⟨e, rs⟩).2.filter fun r => r.windowEnd = some e

/-- The table after the upsert of that window. -/
def windowTable (hash : WindowedRow → Fin 4) (e : ℤ) (rs : List (Reading ℤ)) : LiveTable :=
  (foreachPartition (spread hash (windowRows e rs)) .empty).state

/-- Every reading is replaced by readings at other times. -/
def resample (times : Reading ℤ → List ℤ) (rs : List (Reading ℤ)) : List (Reading ℤ) :=
  rs.flatMap fun r => (times r).map fun t => { r with timestamp := some t }

/-- What a reading adds to the table: its power, if it has a zone. -/
def readingWatts (r : Reading ℤ) : ℚ := if r.zone = none then 0 else power r

section Window

variable {hash : WindowedRow → Fin 4} {e : ℤ} {rs : List (Reading ℤ)}

theorem accepted_of_cleanWindow (h : CleanWindow e rs) : accepted ⟨e, rs⟩ = rs := by
  have hfiltered : filteredTimeDf ⟨e, rs⟩ = rs := by
    refine List.filter_eq_self.mpr fun r hr => decide_eq_true ?_
    obtain ⟨t, ht, hge, -⟩ := h.inside r hr
    have hten : e - minutes 10 ≤ t := by
      unfold minutes at *
      omega
    exact (holds_test _ _).mpr ⟨t, ht, hten⟩
  rw [accepted, hfiltered]
  exact List.filter_eq_self.mpr fun r hr => decide_eq_true (h.clean r hr)

/-- What the readings of a window give to the groups: nothing is late and nothing is
dropped. -/
theorem givenBy_start (h : CleanWindow e rs) :
    givenBy StreamState.start ⟨e, rs⟩ = contributions windowKeys powerSum rs := by
  have hnotLate : ∀ t, ¬Late StreamState.start.marks.late t := by
    rintro t ⟨x, -, hle⟩
    exact absurd (le_bot_iff.mp hle) WithBot.coe_ne_bot
  have hfresh : freshEvents StreamState.start ⟨e, rs⟩ = rs := by
    have hon : onTime eventKey Prod.fst StreamState.start.marks rs = rs :=
      List.filter_eq_self.mpr fun r _ => decide_eq_true (hnotLate _)
    rw [freshEvents, dedupBatch, accepted_of_cleanWindow h, hon]
    exact dropDuplicates_of_nodup h.distinct fun r _ => List.not_mem_nil
  rw [givenBy, contributed, hfresh]
  exact List.filter_eq_self.mpr fun p _ => decide_eq_true (hnotLate _)

/-- The rows of a window, group by group. -/
theorem windowRows_eq (h : CleanWindow e rs) :
    windowRows e rs =
      ((groupKeys Prod.fst (contributions windowKeys powerSum rs)).filter
        fun k => k.windowEnd = e).map fun k =>
          windowedRow k (givenTo (contributions windowKeys powerSum rs) k).sum := by
  have hgiven := givenBy_start h
  rw [givenBy] at hgiven
  rw [windowRows, microBatch, aggregateBatch]
  simp only [hgiven, List.map_map, List.filter_map]
  have hfilter : ∀ (l : List WindowKey) (p : WindowKey → PowerSum),
      l.filter ((fun r => decide (r.windowEnd = some e)) ∘
        (fun p => windowedRow p.1 p.2) ∘ fun k => (k, p k)) = l.filter fun k => k.windowEnd = e :=
    fun l p => List.filter_congr fun k _ => by simp [windowedRow]
  rw [hfilter]
  refine List.map_congr_left fun k hk => ?_
  have hne := givenTo_ne_nil.mpr (List.mem_filter.mp hk).1
  simp [StreamState.start, addTo, hne]

theorem numeric_windowRows (e : ℤ) (rs : List (Reading ℤ)) :
    Numeric (windowRows e rs) := fun r hr =>
  numeric_microBatch (s := LiveState.start .empty) tracks_start ⟨e, rs⟩ r (List.mem_filter.mp hr).1

/-- The rows of one window differ in their zone or their device type. -/
theorem nodup_windowRows (h : CleanWindow e rs) :
    ((windowRows e rs).map fun r => (r.zone, r.deviceType)).Nodup := by
  rw [windowRows_eq h, List.map_map]
  refine List.Nodup.map_on (fun a ha b hb hab => ?_) ((nodup_groupKeys _ _).filter _)
  have hea : a.windowEnd = e := of_decide_eq_true (List.mem_filter.mp ha).2
  have heb : b.windowEnd = e := of_decide_eq_true (List.mem_filter.mp hb).2
  obtain ⟨ea, za, da⟩ := a
  obtain ⟨eb, zb, db⟩ := b
  simp_all [windowedRow]

/-- **The table of a window** holds the rows of the window that have a zone. -/
theorem perm_windowTable (hash : WindowedRow → Fin 4) (h : CleanWindow e rs) :
    (windowTable hash e rs).rows.Perm (keyed (windowRows e rs)) := by
  have hperm : (committed (spread hash (windowRows e rs))).Perm (keyed (windowRows e rs)) :=
    perm_committed_spread (numeric_windowRows e rs)
  have hpair : ((committed (spread hash (windowRows e rs))).map
      fun r => (r.zone, r.deviceType)).Nodup := by
    refine ((hperm.map _).nodup_iff).mpr ((nodup_windowRows h).sublist ?_)
    exact List.filter_sublist.map _
  have hkeys : ((committed (spread hash (windowRows e rs))).filterMap windowedKey).Nodup := by
    refine List.pairwise_filterMap.mpr ((List.pairwise_map.mp hpair).imp ?_)
    rintro x y hne k hx k' hy rfl
    obtain ⟨hz, hd, -⟩ := windowedKey_eq_some.mp hx
    obtain ⟨hz', hd', -⟩ := windowedKey_eq_some.mp hy
    exact hne (by rw [hz, hd, hz', hd'])
  rw [windowTable, foreachPartition_eq, Attempt.done_state,
    Table.rows_upsertAll_of_nodup _ (by simpa [Table.empty] using hkeys)]
  simpa [Table.empty] using hperm

/-- Every row of the table of a window is the latest one of its zone and type. -/
theorem queryLatestEnergy_windowTable (hash : WindowedRow → Fin 4) (h : CleanWindow e rs) :
    queryLatestEnergy (windowTable hash e rs) = (windowTable hash e rs).rows := by
  have hn : ((windowTable hash e rs).rows.map fun r => (r.zone, r.deviceType)).Nodup := by
    refine (((perm_windowTable hash h).map _).nodup_iff).mpr ((nodup_windowRows h).sublist ?_)
    exact List.filter_sublist.map _
  rw [queryLatestEnergy, groupBy_of_nodup hn]
  induction (windowTable hash e rs).rows with
  | nil => rfl
  | cons r rows ih => simpa [latest] using ih

/-! ### What is reported -/

/-- Over one window, the groups of a reading carry its power once. -/
theorem sum_windowKeys (h : CleanWindow e rs) {r : Reading ℤ} (hr : r ∈ rs) :
    ((windowKeys r).map fun k =>
      if k.windowEnd = e ∧ k.zone ≠ none then (powerSum r).1 else 0).sum = readingWatts r := by
  obtain ⟨t, ht, hin⟩ := h.inside r hr
  have hkey : (⟨e, r.zone, r.deviceType⟩ : WindowKey) ∈ windowKeys r :=
    mem_windowKeys.mpr ⟨t, ht, rfl, rfl, h.grid, hin⟩
  have hpower : (powerSum r).1 = power r := by
    cases hp : r.powerConsumptionWatts <;> simp [powerSum, power, hp]
  -- of the windows the reading lies in, only the one that ends at `e` is reported
  have hite : ∀ k ∈ windowKeys r, (if k.windowEnd = e ∧ k.zone ≠ none then (powerSum r).1 else 0) =
      if k = ⟨e, r.zone, r.deviceType⟩ then readingWatts r else 0 := by
    intro k hk
    obtain ⟨-, -, hz, hd, -⟩ := mem_windowKeys.mp hk
    obtain ⟨ke, kz, kd⟩ := k
    simp only at hz hd
    subst hz hd
    by_cases hke : ke = e <;> by_cases hrz : r.zone = none <;> simp [hke, hrz, readingWatts, hpower]
  rw [List.map_congr_left hite, List.sum_map_ite_eq,
    List.count_eq_one_of_mem (nodup_windowKeys r) hkey]
  simp

/-- **The watts a report adds up** are those of the readings with a zone. -/
theorem sum_rowWatts_windowTable (hash : WindowedRow → Fin 4) (h : CleanWindow e rs) :
    ((windowTable hash e rs).rows.map rowWatts).sum = (rs.map readingWatts).sum := by
  have htype : ∀ k ∈ groupKeys Prod.fst (contributions windowKeys powerSum rs),
      k.deviceType ≠ none := by
    intro k hk
    obtain ⟨p, hp, rfl⟩ := mem_groupKeys.mp hk
    obtain ⟨r, hr, hkr, -⟩ := mem_contributions.mp hp
    obtain ⟨-, -, -, hd, -⟩ := mem_windowKeys.mp hkr
    obtain ⟨-, d, -, -, hrd, -⟩ := holds_contextCleanDf.mp (h.clean r hr)
    simp [hd, hrd]
  -- the rows that reach the table are those of the groups with a zone: a clean reading has
  -- a device type
  have hkeyed : keyed (windowRows e rs) =
      ((groupKeys Prod.fst (contributions windowKeys powerSum rs)).filter
        fun k => k.windowEnd = e ∧ k.zone ≠ none).map fun k =>
          windowedRow k (givenTo (contributions windowKeys powerSum rs) k).sum := by
    rw [windowRows_eq h, keyed, List.filter_map, List.filter_filter]
    congr 1
    refine List.filter_congr fun k hk => ?_
    obtain ⟨d, hd⟩ := Option.ne_none_iff_exists'.mp (htype k hk)
    cases hz : k.zone <;> simp [windowedKey, windowedRow, hd, hz]
  have hwatts : ∀ k ∈ (groupKeys Prod.fst (contributions windowKeys powerSum rs)).filter
      (fun k => k.windowEnd = e ∧ k.zone ≠ none),
      rowWatts (windowedRow k (givenTo (contributions windowKeys powerSum rs) k).sum) =
        AddMonoidHom.fst ℚ ℕ (givenTo (contributions windowKeys powerSum rs) k).sum := by
    intro k hk
    have hne := givenTo_ne_nil.mpr (List.mem_filter.mp hk).1
    have hpowers := powers_givenBy StreamState.start ⟨e, rs⟩
    rw [givenBy_start h] at hpowers
    have hcount := (total_spec hpowers (if_neg hne)).2
    simp [rowWatts, windowedRow, hcount]
  rw [((perm_windowTable hash h).map _).sum_eq, hkeyed, List.map_map, Function.comp_def,
    List.map_congr_left hwatts, sum_totals]
  exact congrArg List.sum (List.map_congr_left fun r hr => sum_windowKeys h hr)

/-- The table of a window is empty when no reading has a zone. -/
theorem windowTable_eq_nil (hash : WindowedRow → Fin 4) (h : CleanWindow e rs) :
    (windowTable hash e rs).rows = [] ↔ ∀ r ∈ rs, r.zone = none := by
  have hnil : (windowTable hash e rs).rows = [] ↔ keyed (windowRows e rs) = [] := by
    rw [← List.length_eq_zero_iff, (perm_windowTable hash h).length_eq, List.length_eq_zero_iff]
  rw [hnil, keyed, windowRows_eq h, List.filter_eq_nil_iff]
  constructor
  · intro hno r hr
    by_contra hz
    obtain ⟨z, hz⟩ := Option.ne_none_iff_exists'.mp hz
    obtain ⟨-, d, -, -, hd, -⟩ := holds_contextCleanDf.mp (h.clean r hr)
    obtain ⟨t, ht, hin⟩ := h.inside r hr
    have hkey : tableKey (z, d, e) ∈ windowKeys r :=
      mem_windowKeys.mpr ⟨t, ht, hz.symm, hd.symm, h.grid, hin⟩
    have hmem : tableKey (z, d, e) ∈ groupKeys Prod.fst (contributions windowKeys powerSum rs) :=
      mem_groupKeys.mpr ⟨(_, powerSum r), mem_contributions.mpr ⟨r, hr, hkey, rfl⟩, rfl⟩
    refine hno _ (List.mem_map_of_mem (List.mem_filter.mpr ⟨hmem, decide_eq_true rfl⟩)) ?_
    simp [windowedKey_windowedRow.mpr rfl]
  · intro hz w hw
    obtain ⟨k, hk, rfl⟩ := List.mem_map.mp hw
    obtain ⟨p, hp, rfl⟩ := mem_groupKeys.mp (List.mem_filter.mp hk).1
    obtain ⟨r, hr, hkr, -⟩ := mem_contributions.mp hp
    obtain ⟨-, -, hzr, -⟩ := mem_windowKeys.mp hkr
    simp [windowedKey, windowedRow, hzr, hz r hr]

/-- **What is reported for one window of readings**: the sum of their powers, read as
the power of the house. -/
theorem report_windowTable (hash : WindowedRow → Fin 4) (h : CleanWindow e rs) (price : ℚ) :
    generateGrandAiReport price (windowTable hash e rs) =
      if ∀ r ∈ rs, r.zone = none then none
      else some ⟨(rs.map readingWatts).sum / 1000, (rs.map readingWatts).sum / 1000 * price⟩ := by
  have hnumeric : ¬∃ r ∈ (windowTable hash e rs).rows,
      r.avgPowerWatts = none ∨ r.totalPowerWatts = none := by
    rintro ⟨r, hr, hnone⟩
    have hr' := (List.mem_filter.mp ((perm_windowTable hash h).mem_iff.mp hr)).1
    exact hnone.elim (numeric_windowRows e rs r hr').1 (numeric_windowRows e rs r hr').2
  rw [generateGrandAiReport, queryLatestEnergy_windowTable hash h, sum_rowWatts_windowTable hash h]
  simp only [hnumeric, or_false, windowTable_eq_nil hash h]

end Window

/-! ### The sampling rate -/

section Resample

variable {e : ℤ} {rs : List (Reading ℤ)} {times : Reading ℤ → List ℤ} {k : ℕ}

/-- Readings at other times of the same window are clean readings of the window. -/
theorem CleanWindow.resample (h : CleanWindow e rs)
    (hin : ∀ r ∈ rs, ∀ t ∈ times r, e - minutes 5 ≤ t ∧ t < e)
    (hdist : ((SmartHomeEnergy.resample times rs).map eventKey).Nodup) :
    CleanWindow e (SmartHomeEnergy.resample times rs) where
  grid := h.grid
  distinct := hdist
  clean x hx := by
    obtain ⟨r, hr, hx⟩ := List.mem_flatMap.mp hx
    obtain ⟨t, -, rfl⟩ := List.mem_map.mp hx
    exact h.clean r hr
  inside x hx := by
    obtain ⟨r, hr, hx⟩ := List.mem_flatMap.mp hx
    obtain ⟨t, ht, rfl⟩ := List.mem_map.mp hx
    exact ⟨t, rfl, hin r hr t ht⟩

/-- **Sampling `k` times as often** multiplies the watts that are added up by `k`. -/
theorem sum_readingWatts_resample (hlen : ∀ r ∈ rs, (times r).length = k) :
    ((resample times rs).map readingWatts).sum = k * (rs.map readingWatts).sum := by
  induction rs with
  | nil => simp [resample]
  | cons r rs ih =>
    have hcopies : (((times r).map fun t => { r with timestamp := some t }).map readingWatts).sum =
        k * readingWatts r := by
      have hconst : readingWatts ∘ (fun t => { r with timestamp := some t }) =
          fun _ => readingWatts r := rfl
      rw [List.map_map, hconst, ← hlen r List.mem_cons_self]
      simp
    have hsplit : resample times (r :: rs) =
        ((times r).map fun t => { r with timestamp := some t }) ++ resample times rs := rfl
    rw [hsplit, List.map_append, List.sum_append, hcopies,
      ih fun x hx => hlen x (List.mem_cons_of_mem _ hx), List.map_cons, List.sum_cons, mul_add]

theorem readingWatts_nonneg {r : Reading ℤ} (h : (contextCleanDf r).Holds) :
    0 ≤ readingWatts r := by
  obtain ⟨p, -, -, hp, -, -, -, h0, -⟩ := holds_contextCleanDf.mp h
  rw [readingWatts, power, hp]
  split
  · exact le_rfl
  · exact h0

/-- The watts of clean readings add up to nothing only when each of them is nothing. -/
theorem sum_readingWatts_eq_zero (h : ∀ r ∈ rs, (contextCleanDf r).Holds) :
    (rs.map readingWatts).sum = 0 ↔ ∀ r ∈ rs, r.zone ≠ none → power r = 0 := by
  induction rs with
  | nil => simp
  | cons r rs ih =>
    have hr := readingWatts_nonneg (h r List.mem_cons_self)
    have hrs : 0 ≤ (rs.map readingWatts).sum := List.sum_nonneg fun x hx => by
      obtain ⟨y, hy, rfl⟩ := List.mem_map.mp hx
      exact readingWatts_nonneg (h y (List.mem_cons_of_mem _ hy))
    rw [List.map_cons, List.sum_cons, add_eq_zero_iff_of_nonneg hr hrs,
      ih fun x hx => h x (List.mem_cons_of_mem _ hx), List.forall_mem_cons]
    refine and_congr_left fun _ => ?_
    rw [readingWatts]
    split
    next hz => simp [hz]
    next hz => simp [hz]

/-- **Exactly when the report does not depend on the sampling rate**: when the rate
stays, or when the house draws nothing. -/
theorem report_sampling_iff (hash : WindowedRow → Fin 4) (e : ℤ) (rs : List (Reading ℤ))
    (times : Reading ℤ → List ℤ) (k : ℕ) (hk : 1 ≤ k) (h : CleanWindow e rs)
    (hlen : ∀ r ∈ rs, (times r).length = k)
    (hin : ∀ r ∈ rs, ∀ t ∈ times r, e - minutes 5 ≤ t ∧ t < e)
    (hdist : ((resample times rs).map eventKey).Nodup) :
    (∀ price, generateGrandAiReport price (windowTable hash e (resample times rs)) =
        generateGrandAiReport price (windowTable hash e rs)) ↔
      k = 1 ∨ ∀ r ∈ rs, r.zone ≠ none → power r = 0 := by
  have hzones : (∀ x ∈ resample times rs, x.zone = none) ↔ ∀ r ∈ rs, r.zone = none := by
    constructor
    · intro hx r hr
      obtain ⟨t, ht⟩ := List.exists_mem_of_length_pos (l := times r) (by rw [hlen r hr]; exact hk)
      exact hx { r with timestamp := some t }
        (List.mem_flatMap.mpr ⟨r, hr, List.mem_map.mpr ⟨t, ht, rfl⟩⟩)
    · intro hr x hx
      obtain ⟨r, hr', hx⟩ := List.mem_flatMap.mp hx
      obtain ⟨t, -, rfl⟩ := List.mem_map.mp hx
      exact hr r hr'
  -- nothing is drawn when the watts add up to zero, since no power is negative
  have hsum : (∀ r ∈ rs, r.zone ≠ none → power r = 0) ↔ (rs.map readingWatts).sum = 0 :=
    (sum_readingWatts_eq_zero h.clean).symm
  simp only [report_windowTable hash (h.resample hin hdist), report_windowTable hash h, hzones,
    sum_readingWatts_resample hlen, hsum]
  by_cases hnone : ∀ r ∈ rs, r.zone = none
  · have hzero := hsum.mp fun r hr hz => absurd (hnone r hr) hz
    simp [hzero]
  · simp only [hnone, if_false, Option.some.injEq, ReportTotals.mk.injEq]
    constructor
    · intro hall
      have hkwh : k * (rs.map readingWatts).sum = 1 * (rs.map readingWatts).sum := by
        linarith [(hall 0).1]
      exact (mul_eq_mul_right_iff.mp hkwh).imp_left fun hk1 => by exact_mod_cast hk1
    · rintro (rfl | hzero) price
      · simp
      · simp [hzero]

/-- One reading of 150 watts, and the same sent twice: 0.15 and 0.3 kilowatt hours. -/
theorem report_depends_on_sampling :
    generateGrandAiReport 350 (windowTable (fun _ => 0) (minutes 60)
        (resample (fun _ => [minutes 58, minutes 59]) [fridgeReading (minutes 58) 150])) ≠
      generateGrandAiReport 350 (windowTable (fun _ => 0) (minutes 60)
        [fridgeReading (minutes 58) 150]) := by
  decide +kernel

theorem report_sampling_iff_fridge :
    (∀ price, generateGrandAiReport price (windowTable (fun _ => 0) (minutes 60)
          (resample (fun _ => [minutes 58, minutes 59]) [fridgeReading (minutes 58) 150])) =
        generateGrandAiReport price (windowTable (fun _ => 0) (minutes 60)
          [fridgeReading (minutes 58) 150])) ↔
      2 = 1 ∨ ∀ r ∈ [fridgeReading (minutes 58) 150], r.zone ≠ none → power r = 0 :=
  report_sampling_iff (fun _ => 0) (minutes 60) [fridgeReading (minutes 58) 150]
    (fun _ => [minutes 58, minutes 59]) 2 (by decide)
    ⟨by decide, by decide +kernel, by decide +kernel, by decide +kernel⟩ (by decide +kernel)
    (by decide +kernel) (by decide +kernel)

end Resample

end SmartHomeEnergy
