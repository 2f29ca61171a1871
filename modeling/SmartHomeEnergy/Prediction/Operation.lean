import SmartHomeEnergy.Live.Faults
import SmartHomeEnergy.Prediction.Savings
import SmartHomeEnergy.Warehouse.Monthly

/-!
# The reports of a running house

The stream writes the live table, the training reads it from time to time and leaves a model on
the disk, and the report reads both, with the devices and the prices as they stand. All of them
may fail, and run in any order. What the report relies on is then nobody's assumption any more:
the rows it reads stand for accepted events, and so do the rows that the model was trained on,
whose predictions are means of their powers.

So **every report that is ever stored is sound** (`SmartHomeEnergy.reports_sound`): it has at
most one alert for a zone and a type, each with a power between its limit and the cap of the
stream for its type, no saving is negative, and all savings together are below the hourly cost,
up to rounding. What has to be known is that no device has a negative power, that no price is
negative, and that the regressor is a tree.
-/

namespace SmartHomeEnergy

open Relational Numeric Transition

/-! ### The steps of a running house -/

/-- What is inserted into `ai_home_reports`. -/
structure AiHomeReport where
  totalConsumptionKwh : ℚ
  totalHourlyCostYer : ℚ
  averagePricePerKwh : ℚ
  statusLevel : StatusLevel
  criticalAlerts : List Alert
  aiRecommendations : List Recommendation
  aiPersonalizedMessage : PersonalizedMessage

/-- The `INSERT`, which raises when a number does not fit into its column. -/
def insertReport (report : HomeReport) : Option AiHomeReport := do
  let totalConsumptionKwh ← castDecimal 12 4 report.totals.totalConsumptionKwh
  let totalHourlyCostYer ← castDecimal 12 2 report.totals.totalHourlyCostYer
  let averagePricePerKwh ← castDecimal 6 2 report.averagePricePerKwh
  some ⟨totalConsumptionKwh, totalHourlyCostYer, averagePricePerKwh, report.statusLevel,
    report.criticalAlerts, report.aiRecommendations, report.aiPersonalizedMessage⟩

/-- `actual_price_per_kwh`: a price that is null raises. -/
def actualPrice (prices : List PriceRow) (currentHour : ℕ) : Option ℚ :=
  match prices.find? fun row => row.hour = some currentHour with
  | none => some 350
  | some row => row.pricePerKwh

/-- `generate_grand_ai_report`, up to the commit. -/
def storedReport (model : Option Model) (currentHour : ℕ) (prices : List PriceRow)
    (devicesRef : DevicesStatus) (t : LiveTable) : Option AiHomeReport := do
  let price ← actualPrice prices currentHour
  let report ← grandAiReport model currentHour price (queryLatestEnergy t) devicesRef
  insertReport report

/-- `fetch_historical_data_with_spark`, `hour` being `HOUR`; every row has all the columns. -/
def trainingRows (hour : ℤ → ℕ) (t : LiveTable) : Option (List TrainingRow) :=
  t.rows.mapM fun row => do
    let windowEnd ← row.windowEnd
    let zone ← row.zone
    let deviceType ← row.deviceType
    let avgPowerWatts ← row.avgPowerWatts
    some ⟨hour windowEnd, zone, deviceType, avgPowerWatts⟩

/-- The live layer, the file of the model, and the reports that are stored. -/
structure AiState where
  live : LiveState
  model : Option Model
  reports : List AiHomeReport

/-- What happens to the three. -/
inductive AiEvent
  /-- A step of the live layer. -/
  | live (e : LiveEvent)
  /-- The model is trained by this regressor; when there is none, the file is left alone. -/
  | train (fit : Frame → List Cell → Option (Frame → Option ℚ))
  /-- A report is generated; loading the model may fail, and so may a call to the database. -/
  | report (currentHour : ℕ) (prices : List PriceRow) (devicesRef : DevicesStatus)
      (loads fails : Bool)

/-- **One step.** -/
def aiStep (hash : WindowedRow → Fin 4) (hour : ℤ → ℕ) (s : AiState) : AiEvent → AiState
  | .live e => { s with live := liveEventStep hash s.live e }
  | .train fit =>
    { s with
      model := ((trainingRows hour s.live.table).bind (trainPredictiveModel fit)).or s.model }
  | .report currentHour prices devicesRef loads fails =>
    if fails then s
    else
      { s with reports := s.reports ++ (storedReport (if loads then s.model else none) currentHour
          prices devicesRef s.live.table).toList }

/-- Nothing has happened yet. -/
def AiState.start : AiState := ⟨LiveState.start .empty, none, []⟩

/-- The steps of the live layer among some. -/
def liveEventsIn (es : List AiEvent) : List LiveEvent :=
  es.filterMap fun e => match e with
    | .live e => some e
    | _ => none

/-! ### What is known of the steps -/

/-- **A regression tree** predicts the mean of the values in a leaf. -/
def LeafMeans (fit : Frame → List Cell → Option (Frame → Option ℚ)) : Prop :=
  ∀ x y predict, fit x y = some predict → ∀ input w, predict input = some w →
    ∃ leaf : List ℚ, leaf ≠ [] ∧ (∀ q ∈ leaf, Cell.number q ∈ y) ∧ w = leaf.sum / leaf.length

/-- The regressor is a tree, and no device and no price is negative. -/
def AiEvent.Sane : AiEvent → Prop
  | .live _ => True
  | .train fit => LeafMeans fit
  | .report _ prices devicesRef _ _ => (∀ d ∈ devicesRef.rows, ∀ w ∈ d.baseWatts, 0 ≤ w) ∧
      ∀ row ∈ prices, ∀ p ∈ row.pricePerKwh, 0 ≤ p

/-- **A sound report.** -/
structure SoundReport (report : AiHomeReport) : Prop where
  distinct : (report.criticalAlerts.map fun a => (a.zone, a.deviceType)).Nodup
  alerts : ∀ a ∈ report.criticalAlerts, ∃ d, a.deviceType = some d ∧ 0 ≤ a.baseLimitWatts ∧
    a.baseLimitWatts ≤ a.actualWatts ∧ a.actualWatts ≤ liveCap d
  nonneg : ∀ r ∈ report.aiRecommendations, 0 ≤ r.potentialHourlySavingsYer
  savings_le : (report.aiRecommendations.map (·.potentialHourlySavingsYer)).sum ≤
    report.totalHourlyCostYer + 0.005 +
      report.criticalAlerts.length * (0.0051 + report.averagePricePerKwh / 100000)

/-! ### The rows that are read -/

section Rows

variable {t : LiveTable}

theorem mem_of_latest : ∀ {rows : List WindowedRow} {r : WindowedRow},
    latest rows = some r → r ∈ rows := by
  intro rows
  induction rows using List.reverseRecOn with
  | nil => exact fun h => absurd h (by simp [latest])
  | append_singleton rows x ih =>
    intro r h
    rw [latest, List.foldl_append, ← latest, List.foldl_cons, List.foldl_nil] at h
    cases hlatest : latest rows with
    | none =>
      simp only [hlatest, Option.some.injEq] at h
      simp [h]
    | some y =>
      simp only [hlatest] at h
      split at h
      next =>
        obtain rfl := Option.some.inj h
        simp
      next =>
        obtain rfl := Option.some.inj h
        exact List.mem_append_left _ (ih hlatest)

/-- The report reads rows of the table. -/
theorem mem_queryLatestEnergy {r : WindowedRow} (h : r ∈ queryLatestEnergy t) : r ∈ t.rows := by
  obtain ⟨k, hk, hlatest⟩ := mem_groupBy.mp (List.reduceOption_mem_iff.mp h)
  exact (mem_groupRows.mp (mem_of_latest hlatest)).1

/-- It reads one row of each zone and type. -/
theorem nodup_queryLatestEnergy (t : LiveTable) :
    ((queryLatestEnergy t).map fun r => (r.zone, r.deviceType)).Nodup := by
  have hkeys : ((queryLatestEnergy t).map fun r => (r.zone, r.deviceType)) =
      (groupKeys (fun r : WindowedRow => (r.zone, r.deviceType)) t.rows).filterMap fun k =>
        (latest (groupRows (fun r : WindowedRow => (r.zone, r.deviceType)) t.rows k)).map
          fun r => (r.zone, r.deviceType) := by
    rw [queryLatestEnergy, groupBy, List.reduceOption, List.filterMap_map, List.map_filterMap]
    rfl
  rw [hkeys]
  refine nodup_filterMap_key (f := id) (by simpa using nodup_groupKeys _ t.rows) ?_
  intro k k' key hk hk'
  obtain ⟨r, hr, rfl⟩ := Option.map_eq_some_iff.mp hk
  obtain ⟨r', hr', he⟩ := Option.map_eq_some_iff.mp hk'
  have hkey := (mem_groupRows.mp (mem_of_latest hr)).2
  have hkey' := (mem_groupRows.mp (mem_of_latest hr')).2
  exact hkey.symm.trans (he.symm.trans hkey')

/-- The rows that the training reads have powers between zero and a cap. -/
theorem avgPowerWatts_of_trainingRows {hour : ℤ → ℕ} {rows : List TrainingRow}
    (hbounded : ∀ r ∈ t.rows, Bounded r) (h : trainingRows hour t = some rows) :
    ∀ r ∈ rows, 0 ≤ r.avgPowerWatts := by
  intro r hr
  obtain ⟨row, hrow, hread⟩ := exists_of_mem_mapM h r hr
  obtain ⟨d, mean, total, -, hmean, -, hnonneg, -⟩ := hbounded row hrow
  simp only [Option.bind_eq_bind, Option.bind_eq_some_iff] at hread
  obtain ⟨windowEnd, -, zone, -, deviceType, -, avgPowerWatts, havg, hrow'⟩ := hread
  obtain rfl := Option.some.inj hrow'
  obtain rfl : mean = avgPowerWatts := Option.some.inj (hmean.symm.trans havg)
  exact hnonneg

end Rows

/-! ### The model on the disk -/

/-- A mean of powers that are not negative is not negative. -/
theorem nonneg_of_leafMeans {fit : Frame → List Cell → Option (Frame → Option ℚ)}
    (hfit : LeafMeans fit) {rows : List TrainingRow} (hrows : ∀ r ∈ rows, 0 ≤ r.avgPowerWatts)
    {m : Model} (h : trainPredictiveModel fit rows = some m) :
    ∀ input, ∀ w ∈ m.predict input, 0 ≤ w := by
  intro input w hw
  rw [trainPredictiveModel_eq] at h
  split at h
  next => exact absurd h (by simp)
  next =>
    obtain ⟨x, -, h⟩ := Option.bind_eq_some_iff.mp h
    obtain ⟨predict, hpredict, rfl⟩ := Option.map_eq_some_iff.mp h
    obtain ⟨leaf, -, hleaf, rfl⟩ := hfit x _ predict hpredict input w hw
    refine div_nonneg (List.sum_nonneg fun q hq => ?_) (Nat.cast_nonneg _)
    obtain ⟨r, hr, hcell⟩ := List.mem_map.mp (hleaf q hq)
    exact Cell.number.inj hcell ▸ hrows r hr

/-! ### One report -/

/-- A row that is bounded has a mean power that is part of its total power. -/
theorem Bounded.ordered {row : WindowedRow} (h : Bounded row) : ∀ avgPower ∈ row.avgPowerWatts,
    ∀ totalPower ∈ row.totalPowerWatts, 0 ≤ avgPower ∧ avgPower ≤ totalPower := by
  intro avgPower havg totalPower htotal
  obtain ⟨d, mean, total, -, hmean, htotal', hnonneg, hle, -⟩ := h
  obtain rfl : mean = avgPower := Option.some.inj (hmean.symm.trans havg)
  obtain rfl : total = totalPower := Option.some.inj (htotal'.symm.trans htotal)
  exact ⟨hnonneg, hle⟩

/-- A number that is stored to the cent is half a cent off at most. -/
theorem le_of_castDecimal {p : ℕ} {x y : ℚ} (h : castDecimal p 2 x = some y) :
    x ≤ y + 0.005 := by
  rw [castDecimal] at h
  split at h
  next =>
    obtain rfl := Option.some.inj h
    have habs := (abs_le.mp (abs_roundTo_sub_le nearest_halfUp 2 x)).1
    norm_num at habs ⊢
    linarith
  next => exact absurd h (by simp)

/-- What is stored of a report: its numbers, rounded. -/
theorem insertReport_eq_some {report : HomeReport} {stored : AiHomeReport}
    (h : insertReport report = some stored) : ∃ kwh cost avgPrice,
      castDecimal 12 2 report.totals.totalHourlyCostYer = some cost ∧
        castDecimal 6 2 report.averagePricePerKwh = some avgPrice ∧
          stored = ⟨kwh, cost, avgPrice, report.statusLevel, report.criticalAlerts,
            report.aiRecommendations, report.aiPersonalizedMessage⟩ := by
  simp only [insertReport, Option.bind_eq_bind, Option.bind_eq_some_iff] at h
  obtain ⟨kwh, -, cost, hcost, avgPrice, hprice, h⟩ := h
  exact ⟨kwh, cost, avgPrice, hcost, hprice, (Option.some.inj h).symm⟩

section Report

variable {model : Option Model} {currentHour : ℕ} {devicesRef : DevicesStatus}
  {energyRows : List WindowedRow} {price : ℚ} {report : HomeReport} {stored : AiHomeReport}

/-- An alert stays between its limit and the cap of its type. -/
theorem alert_bounds (hbounded : ∀ r ∈ energyRows, Bounded r)
    (hmodel : ∀ m ∈ model, ∀ input, ∀ w ∈ m.predict input, 0 ≤ w)
    (hdevices : ∀ d ∈ devicesRef.rows, ∀ w ∈ d.baseWatts, 0 ≤ w) {row : WindowedRow}
    (hrow : row ∈ energyRows) {a : Alert}
    (ha : rowAlert model currentHour devicesRef.rows row = some (some a)) :
    ∃ d, a.deviceType = some d ∧ 0 ≤ a.baseLimitWatts ∧ a.baseLimitWatts ≤ a.actualWatts ∧
      a.actualWatts ≤ liveCap d := by
  obtain ⟨avgPower, totalPower, smartLimit, havg, -, hlimit, hle, hactual, hbase⟩ :=
    exists_limit_of_rowAlert hmodel hdevices ha
  obtain ⟨d, mean, total, hd, hmean, -, -, -, hcap⟩ := hbounded row hrow
  obtain rfl : mean = avgPower := Option.some.inj (hmean.symm.trans havg)
  refine ⟨d, (key_of_rowAlert ha).2.trans hd, ?_, ?_, ?_⟩
  · rw [hbase]
    exact roundTo_nonneg nearest_halfEven hlimit
  · rw [hbase, hactual]
    exact roundTo_halfEven_mono hle
  · rw [hactual]
    exact_mod_cast roundTo_le_intCast nearest_halfEven (n := liveCap d) (by exact_mod_cast hcap)

/-- What is found for some of the rows is a part of what there is of all of them. -/
theorem filterMap_sublist_map {α β γ : Type*} (g : α → Option β) (f : α → γ) : ∀ l : List α,
    (l.filterMap fun a => (g a).map fun _ => f a).Sublist (l.map f)
  | [] => List.Sublist.refl _
  | a :: l => by
    have ih := filterMap_sublist_map g f l
    cases ha : g a with
    | none => simpa [ha] using ih.cons (f a)
    | some b => simpa [ha] using ih.cons_cons (f a)

/-- There is at most one alert of a zone and a type. -/
theorem nodup_foundAlerts (h : (energyRows.map fun r => (r.zone, r.deviceType)).Nodup)
    (devices : List DeviceRow) :
    ((foundAlerts model currentHour energyRows devices).map fun a => (a.zone, a.deviceType)).Nodup
    := by
  have hsub : ((foundAlerts model currentHour energyRows devices).map
      fun a => (a.zone, a.deviceType)).Sublist
        (energyRows.map fun r => (r.zone, r.deviceType)) := by
    have hkeys : (foundAlerts model currentHour energyRows devices).map
        (fun a => (a.zone, a.deviceType)) = energyRows.filterMap fun r =>
          ((rowAlert model currentHour devices r).join.map fun _ => (r.zone, r.deviceType)) := by
      rw [foundAlerts, List.map_filterMap]
      refine List.filterMap_congr fun r _ => ?_
      cases ha : (rowAlert model currentHour devices r).join with
      | none => rfl
      | some a =>
        obtain ⟨hzone, htype⟩ := key_of_rowAlert (Option.join_eq_some_iff.mp ha)
        simp [hzone, htype]
    exact hkeys ▸ filterMap_sublist_map _ _ energyRows
  exact h.sublist hsub

/-- **A report that is stored is sound**, on rows that are bounded, one of each zone and type. -/
theorem soundReport (hbounded : ∀ r ∈ energyRows, Bounded r)
    (hdistinct : (energyRows.map fun r => (r.zone, r.deviceType)).Nodup) (hprice : 0 ≤ price)
    (hmodel : ∀ m ∈ model, ∀ input, ∀ w ∈ m.predict input, 0 ≤ w)
    (hdevices : ∀ d ∈ devicesRef.rows, ∀ w ∈ d.baseWatts, 0 ≤ w)
    (hreport : grandAiReport model currentHour price energyRows devicesRef = some report)
    (hstored : insertReport report = some stored) : SoundReport stored := by
  have hrows : ∀ row ∈ energyRows, ∀ avgPower ∈ row.avgPowerWatts,
      ∀ totalPower ∈ row.totalPowerWatts, 0 ≤ avgPower ∧ avgPower ≤ totalPower :=
    fun row hrow => (hbounded row hrow).ordered
  have hne : energyRows ≠ [] := by
    rintro rfl
    exact absurd hreport (by simp [grandAiReport])
  rw [grandAiReport_eq hne] at hreport
  split at hreport
  next => exact absurd hreport (by simp)
  next hraise =>
    obtain rfl := Option.some.inj hreport
    have hassessed : ∀ row ∈ energyRows,
        rowAlert model currentHour devicesRef.rows row ≠ none := fun row hrow hnone =>
      hraise ⟨row, hrow, hnone⟩
    have hsum := sum_savings_le hrows hprice hdevices hmodel hassessed
    have hfound : ∀ a ∈ foundAlerts model currentHour energyRows devicesRef.rows,
        ∃ row ∈ energyRows, rowAlert model currentHour devicesRef.rows row = some (some a) := by
      intro a ha
      obtain ⟨row, hrow, hjoin⟩ := List.mem_filterMap.mp ha
      exact ⟨row, hrow, Option.join_eq_some_iff.mp hjoin⟩
    obtain ⟨kwh, cost, avgPrice, hcost, havgPrice, rfl⟩ := insertReport_eq_some hstored
    refine ⟨nodup_foundAlerts hdistinct _, fun a ha => ?_, fun r hr => ?_, ?_⟩
    · obtain ⟨row, hrow, halert⟩ := hfound a ha
      exact alert_bounds hbounded hmodel hdevices hrow halert
    · simp only [recommendations_reportOn] at hr
      split at hr
      next =>
        rw [List.mem_singleton.mp hr]
        exact le_rfl
      next =>
        obtain ⟨a, ha, rfl⟩ := List.mem_map.mp hr
        obtain ⟨row, hrow, halert⟩ := hfound a ha
        exact (saving_bounds_of_rowAlert hrows hprice hdevices hmodel hrow halert).1
    · simp only [sum_recommendations_reportOn]
      have hstoredCost : (energyRows.map rowWatts).sum / 1000 * price ≤ cost + 0.005 :=
        le_of_castDecimal hcost
      have hstoredPrice : price ≤ avgPrice + 0.005 := le_of_castDecimal havgPrice
      refine hsum.trans (add_le_add hstoredCost (mul_le_mul_of_nonneg_left ?_ (Nat.cast_nonneg _)))
      norm_num at hstoredPrice ⊢
      linarith

end Report

/-! ### Whole runs -/

/-- **The invariant of a running house**: the rows of the table stand for accepted events, the
model on the disk predicts nothing negative, and the reports that are stored are sound. -/
structure Operates (es : List AiEvent) (s : AiState) : Prop where
  live : RunsFaulty (liveEventsIn es) s.live
  model : ∀ m ∈ s.model, ∀ input, ∀ w ∈ m.predict input, 0 ≤ w
  reports : ∀ report ∈ s.reports, SoundReport report

theorem operates_start : Operates [] AiState.start :=
  ⟨runsFaulty_start, by simp [AiState.start], by simp [AiState.start]⟩

section Steps

variable {es : List AiEvent} {s : AiState}

/-- The rows of the table are bounded. -/
theorem Operates.bounded (h : Operates es s) : ∀ r ∈ s.live.table.rows, Bounded r :=
  fun r hr => (h.live.rows r hr).bounded

/-- A price that is found is not negative. -/
theorem actualPrice_nonneg {prices : List PriceRow} {currentHour : ℕ} {price : ℚ}
    (hprices : ∀ row ∈ prices, ∀ p ∈ row.pricePerKwh, 0 ≤ p)
    (h : actualPrice prices currentHour = some price) : 0 ≤ price := by
  rw [actualPrice] at h
  split at h
  next =>
    obtain rfl := Option.some.inj h
    norm_num
  next row hrow => exact hprices row (List.mem_of_find?_eq_some hrow) price h

/-- **A report of a running house is sound**, whether the model was loaded or not. -/
theorem Operates.storedReport (h : Operates es s) {currentHour : ℕ} {prices : List PriceRow}
    {devicesRef : DevicesStatus} {loads fails : Bool} {stored : AiHomeReport}
    (hsane : AiEvent.Sane (.report currentHour prices devicesRef loads fails))
    (hstored : storedReport (if loads then s.model else none) currentHour prices devicesRef
      s.live.table = some stored) : SoundReport stored := by
  obtain ⟨hdevices, hprices⟩ := hsane
  rw [SmartHomeEnergy.storedReport] at hstored
  obtain ⟨price, hprice, hstored⟩ := Option.bind_eq_some_iff.mp hstored
  obtain ⟨report, hreport, hinsert⟩ := Option.bind_eq_some_iff.mp hstored
  refine soundReport (fun r hr => h.bounded r (mem_queryLatestEnergy hr))
    (nodup_queryLatestEnergy _) (actualPrice_nonneg hprices hprice) (fun m hm => ?_) hdevices
    hreport hinsert
  cases loads with
  | true => exact h.model m hm
  | false => exact absurd hm (by simp)

/-- **A step keeps the invariant.** -/
theorem Operates.step {hash : WindowedRow → Fin 4} {hour : ℤ → ℕ} (h : Operates es s)
    {e : AiEvent} (he : e.Sane) : Operates (es ++ [e]) (aiStep hash hour s e) := by
  cases e with
  | live e =>
    have hevents : liveEventsIn (es ++ [.live e]) = liveEventsIn es ++ [e] := by
      simp [liveEventsIn]
    exact ⟨hevents ▸ h.live.step e, h.model, h.reports⟩
  | train fit =>
    have hevents : liveEventsIn (es ++ [.train fit]) = liveEventsIn es := by simp [liveEventsIn]
    refine ⟨hevents ▸ h.live, fun m hm => ?_, h.reports⟩
    rcases Option.or_eq_some_iff.mp hm with htrained | ⟨-, hold⟩
    · obtain ⟨rows, hrows, hm⟩ := Option.bind_eq_some_iff.mp htrained
      exact nonneg_of_leafMeans he (avgPowerWatts_of_trainingRows h.bounded hrows) hm
    · exact h.model m hold
  | report currentHour prices devicesRef loads fails =>
    have hevents : liveEventsIn (es ++ [.report currentHour prices devicesRef loads fails]) =
        liveEventsIn es := by simp [liveEventsIn]
    rw [aiStep]
    split
    next => exact ⟨hevents ▸ h.live, h.model, h.reports⟩
    next =>
      refine ⟨hevents ▸ h.live, h.model, fun report hreport => ?_⟩
      rcases List.mem_append.mp hreport with hold | hnew
      · exact h.reports report hold
      · exact h.storedReport he (Option.mem_toList.mp hnew)

end Steps

/-- **Every report is sound**: in every run of the stream, the training and the report, whatever
fails and in whatever order they run, when the regressors are trees, no device has a negative
power and no price is negative. -/
theorem reports_sound (hash : WindowedRow → Fin 4) (hour : ℤ → ℕ) (es : List AiEvent)
    (h : ∀ e ∈ es, e.Sane) :
    ∀ report ∈ (exec (aiStep hash hour) AiState.start es).reports, SoundReport report := by
  have hoperates : Operates es (exec (aiStep hash hour) AiState.start es) := by
    refine exec_induction (aiStep hash hour)
      (fun ls s => (∀ e ∈ ls, e.Sane) → Operates ls s) (fun _ => operates_start)
      (fun ls l ih hall => ?_) es h
    exact (ih fun e he => hall e (List.mem_append_left _ he)).step (hall l (by simp))
  exact hoperates.reports

/-- A tree without a split. -/
def stump (_ : Frame) (y : List Cell) : Option (Frame → Option ℚ) :=
  let values := y.filterMap fun c => match c with
    | .number q => some q
    | .text _ => none
  if values = [] then none else some fun _ => some (values.sum / values.length)

theorem leafMeans_stump : LeafMeans stump := by
  intro x y predict h input w hw
  simp only [stump] at h
  split at h
  next => exact absurd h (by simp)
  next hne =>
    obtain rfl := Option.some.inj h
    refine ⟨_, hne, fun q hq => ?_, (Option.some.inj hw).symm⟩
    obtain ⟨c, hc, hq⟩ := List.mem_filterMap.mp hq
    cases c with
    | number q' => exact Option.some.inj hq ▸ hc
    | text s => exact absurd hq (by simp)

/-- The fridge draws the double of the power of its device, a model is trained, and two reports
are generated, one without the model. -/
def fridgeDay : List AiEvent :=
  [.live (.batch ⟨minutes 60, [{ fridgeReading (minutes 59) 300 with deviceType := some "Fridge" }]⟩
      (fun _ => none) none),
    .train stump, .report 12 [⟨some 12, some 200⟩] kitchenFirst true false,
    .report 12 [] kitchenFirst false false]

theorem reports_sound_fridgeDay :
    let s := exec (aiStep (fun _ => 0) fun _ => 12) AiState.start fridgeDay
    s.reports.length = 2 ∧ ∀ report ∈ s.reports, SoundReport report := by
  refine ⟨by decide +kernel, reports_sound _ _ fridgeDay ?_⟩
  simp only [fridgeDay, List.forall_mem_cons, AiEvent.Sane]
  exact ⟨trivial, leafMeans_stump, ⟨by decide +kernel, by decide +kernel⟩,
    ⟨by decide +kernel, by simp⟩, by simp⟩

end SmartHomeEnergy
