import SmartHomeEnergy.Ingestion.Medallion

/-!
# What the warehouse accounts for

A row of `dwh_energy_analytics` outlives its batch. Later batches come and go, merges fail, the
notebook is killed and merges a batch again with other prices, and nobody looks at the row again
but the dashboard and its reader.

**Every row that is ever stored accounts for device-hours that were measured**
(`SmartHomeEnergy.accountsFor_exec`): its energy is the sum of the means of clean silver
readings, at most three and a half kilowatt-hours for each device and hour; what is wasted is
all of it, or nothing; it counts no more faults than it has device-hours; and its cost lies
between those of the energy at the lowest and at the highest price. Nothing is said about
which device-hours these are: a merge that fails, or a later batch of the same day, leaves some
of them out.
-/

namespace SmartHomeEnergy

open Numeric Relational Streaming Transition

variable {D : Type} [DecidableEq D]

/-! ### The account of a row -/

/-- The energy of device-hours. -/
def energyOf (hours : List (HourRow D × Option PriceRow)) : ℚ :=
  (hours.map fun p => (realKwh p.1.avgWatts).getD 0).sum

/-- The device-hour has a price. -/
def HasPrice (p : HourRow D × Option PriceRow) : Prop := p.2.bind (·.pricePerKwh) ≠ none

omit [DecidableEq D] in
instance : DecidablePred (HasPrice (D := D)) := fun p =>
  inferInstanceAs (Decidable (p.2.bind (·.pricePerKwh) ≠ none))

/-- The prices are those of different hours, and lie between two bounds. -/
def PricesWithin (lo hi : ℚ) (prices : List PriceRow) : Prop :=
  (prices.filterMap (·.hour)).Nodup ∧ ∀ p ∈ prices, ∀ q ∈ p.pricePerKwh, lo ≤ q ∧ q ≤ hi

/-- A device-hour that was measured: the row of some readings of one device and hour. -/
def Measured (time : SparkTime D) (silver : List (Reading String)) (h : HourRow D) : Prop :=
  ∃ readings, readings ≠ [] ∧ readings ⊆ silver ∧ (∀ r ∈ readings, hourKey time r = h.key) ∧
    h = hourRow h.key readings

/-- **A row accounts for device-hours**, the prices being between two bounds. -/
structure AccountsFor (time : SparkTime D) (silver : List (Reading String)) (lo hi : ℚ)
    (hours : List (HourRow D × Option PriceRow)) (row : DayRow D) : Prop where
  nonempty : hours ≠ []
  distinct : (hours.map fun p => p.1.key).Nodup
  measured : ∀ p ∈ hours, Measured time silver p.1 ∧ p.1.dayKey = row.key
  energy : row.rawKwhSum = some (energyOf hours) ∧ row.totalPowerKwh = some (energyOf hours)
  bounded : 0 ≤ energyOf hours ∧ energyOf hours ≤ 7 / 2 * hours.length
  wasted : row.wastedEnergyKwh = some
    (if row.key.isRoomOccupied = some false then roundTo halfUp 2 (energyOf hours) else 0)
  faults : row.sensorFaultCount + row.lostSignalCount ≤ hours.length
  unpriced : row.estimatedCostYer = none ↔ ∀ p ∈ hours, ¬HasPrice p
  cost : ∀ c ∈ row.estimatedCostYer,
    roundTo halfUp 2 (lo * energyOf (hours.filter fun p => HasPrice p)) ≤ c ∧
      c ≤ roundTo halfUp 2 (hi * energyOf (hours.filter fun p => HasPrice p))

/-! ### The sums of a day -/

section Sums

variable {time : SparkTime D} {prices : List PriceRow} {b silver : List (Reading String)}
  {K : DayKey D} {lo hi : ℚ} {hours : List (HourRow D × Option PriceRow)}
  {p : HourRow D × Option PriceRow}

/-- A device-hour with a mean that is plausible. -/
def Plausible (p : HourRow D × Option PriceRow) : Prop :=
  ∃ w, p.1.avgWatts = some w ∧ 0 ≤ w ∧ w ≤ 3500

omit [DecidableEq D] in
theorem Plausible.kwh (h : Plausible p) : ∃ kwh, realKwh p.1.avgWatts = some kwh ∧ 0 ≤ kwh ∧
    kwh ≤ 7 / 2 := by
  obtain ⟨w, hw, h0, hle⟩ := h
  exact ⟨w / 1000, by rw [hw, realKwh_some], by positivity, by linarith⟩

omit [DecidableEq D] in
/-- What is wasted in a device-hour: all of it in a room known to be empty, and else nothing. -/
theorem Plausible.wasted (h : Plausible p) : wastedKwh p.1 = some
    (if p.1.isRoomOccupied = some false then (realKwh p.1.avgWatts).getD 0 else 0) := by
  obtain ⟨w, hw, h0, -⟩ := h
  rw [wastedKwh, hw, realKwh_some]
  by_cases hempty : p.1.isRoomOccupied = some false
  · rcases h0.eq_or_lt with rfl | hpos
    · simp [hempty]
    · simp [hempty, hpos]
  · have hnot : ¬((test (· = false) p.1.isRoomOccupied).and (test (0 < ·) (some w))).Holds := by
      simp [hempty]
    rw [if_neg hnot, if_neg hempty]

omit [DecidableEq D] in
/-- A cost is there when there is a price, and lies between the bounds of the prices. -/
theorem Plausible.cost (h : Plausible p)
    (hprice : ∀ q ∈ p.2.bind (·.pricePerKwh), lo ≤ q ∧ q ≤ hi) :
    (realCost p.1.avgWatts p.2 = none ↔ ¬HasPrice p) ∧
      ∀ c ∈ realCost p.1.avgWatts p.2, lo * (realKwh p.1.avgWatts).getD 0 ≤ c ∧
        c ≤ hi * (realKwh p.1.avgWatts).getD 0 := by
  obtain ⟨kwh, hkwh, h0, -⟩ := h.kwh
  rw [realCost, hkwh, HasPrice]
  cases hq : p.2.bind (·.pricePerKwh) with
  | none => simp
  | some q =>
    obtain ⟨hlo, hhi⟩ := hprice q hq
    refine ⟨by simp, ?_⟩
    rintro c ⟨⟩
    exact ⟨by simpa [mul_comm] using mul_le_mul_of_nonneg_right hlo h0,
      by simpa [mul_comm] using mul_le_mul_of_nonneg_right hhi h0⟩

omit [DecidableEq D] in
theorem energyOf_bounds (h : ∀ p ∈ hours, Plausible p) :
    0 ≤ energyOf hours ∧ energyOf hours ≤ 7 / 2 * hours.length := by
  have hkwh : ∀ x ∈ hours.map fun p => (realKwh p.1.avgWatts).getD 0, 0 ≤ x ∧ x ≤ 7 / 2 := by
    refine List.forall_mem_map.mpr fun p hp => ?_
    obtain ⟨kwh, hkwh, hbounds⟩ := (h p hp).kwh
    rwa [hkwh, Option.getD_some]
  refine ⟨List.sum_nonneg fun x hx => (hkwh x hx).1, ?_⟩
  have hle := List.sum_le_card_nsmul _ _ fun x hx => (hkwh x hx).2
  rw [List.length_map, nsmul_eq_mul] at hle
  rw [energyOf, mul_comm]
  exact hle

omit [DecidableEq D] in
/-- **The energy of a day** is that of its device-hours. -/
theorem nullSum_realKwh (h : ∀ p ∈ hours, Plausible p) (hne : hours ≠ []) :
    nullSum (hours.map fun p => realKwh p.1.avgWatts) = some (energyOf hours) := by
  obtain ⟨p, hp⟩ := List.exists_mem_of_ne_nil _ hne
  obtain ⟨kwh, hkwh, -⟩ := (h p hp).kwh
  rw [nullSum_of_mem (List.mem_map.mpr ⟨p, hp, hkwh⟩), List.map_map]
  rfl

omit [DecidableEq D] in
/-- **What is wasted on a day**: all of its energy, or nothing. -/
theorem nullSum_wastedKwh (h : ∀ p ∈ hours, Plausible p) (hne : hours ≠ [])
    (hday : ∀ p ∈ hours, p.1.dayKey = K) :
    nullSum (hours.map fun p => wastedKwh p.1) =
      some (if K.isRoomOccupied = some false then energyOf hours else 0) := by
  have hwasted : hours.map (fun p => wastedKwh p.1) = hours.map fun p => some
      (if K.isRoomOccupied = some false then (realKwh p.1.avgWatts).getD 0 else 0) := by
    refine List.map_congr_left fun p hp => ?_
    rw [(h p hp).wasted, ← hday p hp]
    rfl
  rw [hwasted, nullSum_map_some hne]
  by_cases hempty : K.isRoomOccupied = some false
  · simp [hempty, energyOf]
  · simp [hempty]

omit [DecidableEq D] in
/-- **The faults of a day** are at most its device-hours, of which each has one status. -/
theorem sum_hasStatus_le (hours : List (HourRow D × Option PriceRow)) :
    (hours.map fun p => hasStatus "SENSOR_FAULT" p.1).sum +
      (hours.map fun p => hasStatus "LOST_SIGNAL" p.1).sum ≤ hours.length := by
  rw [← List.sum_map_add]
  refine (List.sum_le_card_nsmul _ 1 (List.forall_mem_map.mpr fun p _ => ?_)).trans (by simp)
  by_cases hlost : p.1.status = some "LOST_SIGNAL"
  · have hsensor : hasStatus "SENSOR_FAULT" p.1 = 0 := hasStatus_eq_zero.mpr (by simp [hlost])
    rw [hsensor, hasStatus]
    split <;> simp
  · rw [hasStatus_eq_zero.mpr hlost, hasStatus]
    split <;> simp

omit [DecidableEq D] in
/-- Costs add up between the bounds of the prices. -/
theorem sum_realCost_bounds (h : ∀ p ∈ hours, Plausible p)
    (hprice : ∀ p ∈ hours, ∀ q ∈ p.2.bind (·.pricePerKwh), lo ≤ q ∧ q ≤ hi) :
    let total := (hours.map fun p => (realCost p.1.avgWatts p.2).getD 0).sum
    lo * energyOf (hours.filter fun p => HasPrice p) ≤ total ∧
      total ≤ hi * energyOf (hours.filter fun p => HasPrice p) := by
  induction hours with
  | nil => simp [energyOf]
  | cons p hours ih =>
    obtain ⟨hlo, hhi⟩ := ih (fun x hx => h x (List.mem_cons_of_mem _ hx))
      fun x hx => hprice x (List.mem_cons_of_mem _ hx)
    obtain ⟨hnone, hcost⟩ := (h p List.mem_cons_self).cost (hprice p List.mem_cons_self)
    rw [List.map_cons, List.sum_cons]
    by_cases hp : HasPrice p
    · obtain ⟨c, hc⟩ := Option.ne_none_iff_exists'.mp fun h0 => hnone.mp h0 hp
      obtain ⟨hlo', hhi'⟩ := hcost c hc
      rw [List.filter_cons_of_pos (by simpa using hp), energyOf, List.map_cons, List.sum_cons,
        ← energyOf, hc, Option.getD_some, mul_add, mul_add]
      exact ⟨add_le_add hlo' hlo, add_le_add hhi' hhi⟩
    · rw [List.filter_cons_of_neg (by simpa using hp), hnone.mpr hp, Option.getD_none, zero_add]
      exact ⟨hlo, hhi⟩

omit [DecidableEq D] in
/-- **The cost of a day**, before it is rounded. -/
theorem nullSum_realCost (h : ∀ p ∈ hours, Plausible p)
    (hprice : ∀ p ∈ hours, ∀ q ∈ p.2.bind (·.pricePerKwh), lo ≤ q ∧ q ≤ hi) :
    (nullSum (hours.map fun p => realCost p.1.avgWatts p.2) = none ↔ ∀ p ∈ hours, ¬HasPrice p) ∧
      ∀ c ∈ nullSum (hours.map fun p => realCost p.1.avgWatts p.2),
        lo * energyOf (hours.filter fun p => HasPrice p) ≤ c ∧
          c ≤ hi * energyOf (hours.filter fun p => HasPrice p) := by
  constructor
  · rw [nullSum_eq_none, List.forall_mem_map]
    exact forall₂_congr fun p hp => ((h p hp).cost (hprice p hp)).1
  · intro c hc
    have htotal := getD_nullSum (hours.map fun p => realCost p.1.avgWatts p.2)
    rw [Option.mem_def.mp hc, Option.getD_some, List.map_map] at htotal
    rw [htotal]
    exact sum_realCost_bounds h hprice

end Sums

/-! ### The rows of a batch -/

section Batch

variable {time : SparkTime D} {prices : List PriceRow} {b silver : List (Reading String)}
  {lo hi : ℚ} {row : DayRow D} {p : HourRow D × Option PriceRow}

/-- An hour has one price at most. -/
theorem countP_sameHour_le {α : Type*} {hour : α → Option ℕ} (h : PricesWithin lo hi prices)
    (a : α) : prices.countP (fun q => SameHour (hour a) q) ≤ 1 := by
  cases hhour : hour a with
  | none => simp [SameHour]
  | some n =>
    refine le_of_eq_of_le ?_ (List.nodup_iff_count_le_one.mp h.1 n)
    rw [List.count, List.countP_filterMap]
    refine List.countP_congr fun q _ => ?_
    cases hq : q.hour <;> simp [SameHour, hq]

/-- **Every device-hour is joined once.** -/
theorem nodup_joinedBatch (h : PricesWithin lo hi prices) :
    ((joinedBatch time prices b).map fun p => p.1.key).Nodup := by
  have hkeys : (joinedBatch time prices b).map (fun p => p.1.key) =
      (pricedHours time prices b).map Prod.fst := by
    rw [joinedBatch_eq, List.map_map]
    rfl
  rw [hkeys, pricedHours, map_fst_leftJoin _ _ fun a _ => countP_sameHour_le h a]
  exact nodup_groupKeys _ _

/-- **A joined device-hour** was measured, is plausible, and has a price within the bounds. -/
theorem joined_spec (hb : Silver b) (hsub : b ⊆ silver) (hprices : PricesWithin lo hi prices)
    (hp : p ∈ joinedBatch time prices b) :
    Measured time silver p.1 ∧ Plausible p ∧
      ∀ q ∈ p.2.bind (·.pricePerKwh), lo ≤ q ∧ q ≤ hi := by
  obtain ⟨⟨h, hh, he⟩, hmatch⟩ := (mem_joinedBatch time prices).mp hp
  have hclean : ∀ r ∈ groupRows (hourKey time) b h, (silverCleanedDf r).Holds := fun r hr =>
    hb r (mem_groupRows.mp hr).1
  refine ⟨?_, ?_, fun q hq => ?_⟩
  · rw [he]
    refine ⟨groupRows (hourKey time) b h, groupRows_ne_nil hh, fun r hr => ?_, fun r hr => ?_, rfl⟩
    · exact hsub (mem_groupRows.mp hr).1
    · exact (mem_groupRows.mp hr).2
  · obtain ⟨w, hw, h0, -⟩ := avgWatts_hourOf hb hh
    refine ⟨w, by rw [he, hw], h0, nullAvg_le hw fun x hx => ?_⟩
    obtain ⟨r, hr, hx⟩ := List.mem_map.mp hx
    obtain ⟨v, hv, -, hcap, -⟩ := holds_silverCleanedDf.mp (hclean r hr)
    rwa [← Option.some.inj (hv.symm.trans hx)]
  · cases hq' : p.2 with
    | none => simp [hq'] at hq
    | some price =>
      rw [hq'] at hq hmatch
      exact hprices.2 price ((some_mem_joinMatches _ _).mp hmatch).1 q hq

/-- **Every row of a batch accounts for device-hours of it.** -/
theorem accountsFor_of_mem (h0 : 0 ≤ lo) (hb : Silver b) (hsub : b ⊆ silver)
    (hprices : PricesWithin lo hi prices) (hrow : row ∈ finalAnalyticsDf time prices b) :
    ∃ hours, AccountsFor time silver lo hi hours row := by
  obtain ⟨K, hK, rfl⟩ := mem_groupBy.mp hrow
  set hours := groupRows (fun p => p.1.dayKey) (joinedBatch time prices b) K
  have hne : hours ≠ [] := groupRows_ne_nil hK
  have hspec : ∀ p ∈ hours, Measured time silver p.1 ∧ Plausible p ∧
      ∀ q ∈ p.2.bind (·.pricePerKwh), lo ≤ q ∧ q ≤ hi := fun p hp =>
    joined_spec hb hsub hprices (mem_groupRows.mp hp).1
  have hday : ∀ p ∈ hours, p.1.dayKey = K := fun p hp => (mem_groupRows.mp hp).2
  have hplausible := fun p hp => (hspec p hp).2.1
  obtain ⟨hunpriced, hcost⟩ := nullSum_realCost hplausible fun p hp => (hspec p hp).2.2
  have henergy := nullSum_realKwh hplausible hne
  refine ⟨hours, hne, ?_, fun p hp => ⟨(hspec p hp).1, hday p hp⟩, ⟨henergy, henergy⟩,
    energyOf_bounds hplausible, ?_, sum_hasStatus_le hours, ?_, ?_⟩
  · exact (nodup_joinedBatch hprices).sublist (List.filter_sublist.map _)
  · show round2 (nullSum (hours.map fun p => wastedKwh p.1)) =
      some (if K.isRoomOccupied = some false then roundTo halfUp 2 (energyOf hours) else 0)
    rw [nullSum_wastedKwh hplausible hne hday, round2, Option.map_some]
    split
    next => rfl
    next => rw [roundTo_zero nearest_halfUp]
  · show round2 _ = none ↔ _
    rw [round2, Option.map_eq_none_iff]
    exact hunpriced
  · intro c hc
    obtain ⟨total, htotal, rfl⟩ := Option.map_eq_some_iff.mp hc
    obtain ⟨hlo, hhi⟩ := hcost total htotal
    have hpriced : 0 ≤ energyOf (hours.filter fun p => HasPrice p) :=
      (energyOf_bounds fun p hp => hplausible p (List.mem_of_mem_filter hp)).1
    have hlo0 := mul_nonneg h0 hpriced
    exact ⟨roundTo_halfUp_mono hlo0 hlo, roundTo_halfUp_mono (hlo0.trans hlo) hhi⟩

end Batch

/-! ### The rows of a run -/

section Run

variable {constraints : List (List Column)} {time : SparkTime D}
  {fromJson : String → Reading String} {lo hi : ℚ} {s : Medallion D} {e : MedallionEvent D}
  {w : Warehouse D} {b : List (Reading String)} {row : DayRow D}

/-- **What a merge leaves** was there, or was staged. -/
theorem mem_mergeStaging {fault : Option Fault} {n : ℕ}
    (h : row ∈ (mergeStaging constraints fault n w).state.analytics) :
    row ∈ w.staged n ∨ row ∈ w.analytics := by
  rw [mergeStaging] at h
  split at h
  next => exact Or.inr h
  next =>
    split at h
    next => exact Or.inr h
    next =>
      split at h
      next => exact Or.inr h
      next => exact Table.mem_foldl_upsertRows dayUpsert_overwrites h

/-- **What a call of the callback leaves** was there, or comes from its batch. -/
theorem mem_writeToPostgres {prices : List PriceRow} {staging : Option (List (DayRow D))}
    {fault : Option Fault} {n : ℕ}
    (h : row ∈ (writeToPostgres constraints time prices staging fault n b w).state.analytics) :
    row ∈ finalAnalyticsDf time prices b ∨ row ∈ w.analytics := by
  rw [writeToPostgres] at h
  split at h
  next => exact Or.inr h
  next =>
    cases staging with
    | some written => exact Or.inr h
    | none =>
      rw [writeStaging, Attempt.done_bind, Attempt.caught_state] at h
      have hmerged := mem_mergeStaging h
      rwa [Warehouse.staged_stage, Warehouse.stage_analytics] at hmerged

theorem mem_dailyBatch {run : List PriceRow × CallbackFault D} {n : ℕ}
    (h : row ∈ (dailyBatch constraints time run n b w).state.analytics) :
    row ∈ finalAnalyticsDf time run.1 b ∨ row ∈ w.analytics := by
  obtain ⟨prices, ⟨staging, merge⟩ | _ | _⟩ := run
  · exact mem_writeToPostgres h
  · right
    rw [dailyBatch, Attempt.raise_state] at h
    split at h <;> exact h
  · exact mem_writeToPostgres h

/-- The prices that the event reads are within the bounds. -/
def MedallionEvent.PricesWithin (lo hi : ℚ) : MedallionEvent D → Prop
  | .daily (.write run) => SmartHomeEnergy.PricesWithin lo hi run.1
  | _ => True

/-- **The invariant of a run**: every row comes from a batch of silver rows, with prices that were
read. -/
def Billed (time : SparkTime D) (lo hi : ℚ) (s : Medallion D) : Prop :=
  ∀ row ∈ s.daily.sink.analytics, ∃ prices b, PricesWithin lo hi prices ∧
    b ⊆ s.silver.sink.rows ∧ row ∈ finalAnalyticsDf time prices b

/-- **A step keeps it**: silver rows stay, and what a merge brings in comes from a batch of them. -/
theorem Billed.step (h : Billed time lo hi s) (he : e.PricesWithin lo hi) :
    Billed time lo hi (medallionStep constraints time fromJson s e) := by
  intro row hrow
  cases e with
  | silver e =>
    obtain ⟨prices, b, hprices, hsub, hb⟩ := h row hrow
    have hprefix := silver_prefix_step constraints time fromJson s (.silver e)
    exact ⟨prices, b, hprices, fun r hr => hprefix.subset (hsub hr), hb⟩
  | daily e =>
    rcases Execution.sink_step (dailyBatch constraints time) s.silver.sink.rows s.daily e with
      hsame | ⟨run, n, b, rfl, hsub, hwritten⟩
    · exact h row (hsame ▸ hrow)
    · have hmem : row ∈ (dailyBatch constraints time run n b s.daily.sink).state.analytics :=
        hwritten ▸ hrow
      rcases mem_dailyBatch hmem with hnew | hold
      · exact ⟨run.1, b, he, hsub, hnew⟩
      · exact h row hold
  | _ => exact h row hrow

theorem billed_exec (constraints : List (List Column)) (time : SparkTime D)
    (fromJson : String → Reading String) {es : List (MedallionEvent D)}
    (hes : ∀ e ∈ es, e.PricesWithin lo hi) :
    Billed time lo hi (exec (medallionStep constraints time fromJson) Medallion.start es) := by
  refine exec_induction (medallionStep constraints time fromJson)
    (fun ls s => (∀ e ∈ ls, e.PricesWithin lo hi) → Billed time lo hi s)
    (fun _ row hrow => absurd hrow List.not_mem_nil) (fun ls l ih hall => ?_) es hes
  exact (ih fun e he => hall e (List.mem_append_left _ he)).step (hall l (by simp))

/-- Rows that come from batches of clean silver rows account for device-hours. -/
theorem Billed.exists_accountsFor (h : Billed time lo hi s) (hlayered : Layered fromJson s)
    (h0 : 0 ≤ lo) (hrow : row ∈ s.daily.sink.analytics) :
    ∃ hours, AccountsFor time s.silver.sink.rows lo hi hours row := by
  obtain ⟨prices, b, hprices, hsub, hb⟩ := h row hrow
  exact accountsFor_of_mem h0 (fun r hr => hlayered.silver_rows r (hsub hr)) hsub hprices hb

/-- **Every row accounts for what was measured**, in every run of the three notebooks, whichever
of them stop, fail and run again, and whatever prices they read between the bounds, which are
not negative. -/
theorem accountsFor_exec (constraints : List (List Column)) (time : SparkTime D)
    (fromJson : String → Reading String) (es : List (MedallionEvent D)) (h0 : 0 ≤ lo)
    (hes : ∀ e ∈ es, e.PricesWithin lo hi) :
    let s := exec (medallionStep constraints time fromJson) Medallion.start es
    ∀ row ∈ s.daily.sink.analytics,
      ∃ hours, AccountsFor time s.silver.sink.rows lo hi hours row := fun _ hrow =>
  (billed_exec constraints time fromJson hes).exists_accountsFor
    (layered_exec constraints time fromJson es) h0 hrow

end Run

theorem accountsFor_exec_twiceMerged :
    let s := exec (medallionStep [analyticsTarget] isoTime fridgeAt) Medallion.start twiceMerged
    s.daily.sink.analytics.map (·.estimatedCostYer) = [some (9 / 2)] ∧
      ∀ row ∈ s.daily.sink.analytics,
        ∃ hours, AccountsFor isoTime s.silver.sink.rows 20 30 hours row := by
  have hprices : ∀ q : ℚ, 20 ≤ q → q ≤ 30 → PricesWithin 20 30 [⟨some 12, some q⟩] :=
    fun q hlo hhi => ⟨by simp, by simp [hlo, hhi]⟩
  refine ⟨by decide +kernel, accountsFor_exec _ _ _ twiceMerged (by norm_num) ?_⟩
  simp only [twiceMerged, List.forall_mem_cons, MedallionEvent.PricesWithin, true_and]
  exact ⟨hprices 20 (by norm_num) (by norm_num), hprices 30 (by norm_num) (by norm_num), by simp⟩

end SmartHomeEnergy
