import SmartHomeEnergy.Dashboard.Operation
import SmartHomeEnergy.Warehouse.EndToEnd

/-!
# What the spending stands for

The dashboard shows what was spent in a month: the sum of the costs of the rows of
`dwh_energy_analytics` that are dated in it. The rows come from many batches and were merged with
the prices of different runs, and a row has no device any more, so that nothing in the table says
whether two rows were not charged for the same hour of the same device.

They may have been, once: a device-hour that is cut by two batches is charged for in both when
its room was occupied at the start of one part and not at the start of the other, and each
charges for the mean of its own part. But this is all there is to it
(`SmartHomeEnergy.spending_endToEnd`): **no device-hour is charged for more than twice**, and
with the occupancy it was charged for, never twice. Up to half a hundredth for each rounding, what
is shown lies between the costs of the energy of these device-hours at the lowest and the highest
price, and they are all device-hours of registered devices, and of the month.
-/

namespace SmartHomeEnergy

open Numeric Relational Streaming Transition

/-! ### Keys stay different -/

section Keys

variable {D : Type} [DecidableEq D] {constraints : List (List Column)} {time : SparkTime D}
  {fromJson : String → Reading String} {w : Warehouse D} {b : List (Reading String)}

/-- No two rows of the warehouse are stored under the same key. -/
def KeysDiffer (w : Warehouse D) : Prop := (w.analytics.filterMap conflictKey).Nodup

omit [DecidableEq D] in
theorem keysDiffer_start : KeysDiffer (Medallion.start : Medallion D).daily.sink := List.nodup_nil

/-- **A merge keeps the keys different**, whether there is a constraint or not. -/
theorem keysDiffer_mergeStaging (h : KeysDiffer w) (fault : Option Fault) (n : ℕ) :
    KeysDiffer (mergeStaging constraints fault n w).state := by
  rw [mergeStaging]
  split
  next => exact h
  next =>
    split
    next => exact h
    next =>
      split
      next => exact h
      next => exact Table.nodup_foldl_upsertRows dayUpsert h

theorem keysDiffer_writeToPostgres (h : KeysDiffer w) (prices : List PriceRow)
    (staging : Option (List (DayRow D))) (fault : Option Fault) (n : ℕ) :
    KeysDiffer (writeToPostgres constraints time prices staging fault n b w).state := by
  rw [writeToPostgres]
  split
  next => exact h
  next =>
    cases staging with
    | some written => exact h
    | none =>
      rw [writeStaging, Attempt.done_bind, Attempt.caught_state]
      exact keysDiffer_mergeStaging (w := w.stage n _) h fault n

theorem keysDiffer_dailyBatch (h : KeysDiffer w) (run : List PriceRow × CallbackFault D) (n : ℕ) :
    KeysDiffer (dailyBatch constraints time run n b w).state := by
  obtain ⟨prices, ⟨staging, merge⟩ | _ | _⟩ := run
  · exact keysDiffer_writeToPostgres h prices staging merge n
  · rw [dailyBatch, Attempt.raise_state]
    split <;> exact h
  · exact keysDiffer_writeToPostgres h prices none none n

theorem keysDiffer_step {s : Medallion D} (h : KeysDiffer s.daily.sink) (e : MedallionEvent D) :
    KeysDiffer (medallionStep constraints time fromJson s e).daily.sink := by
  cases e with
  | daily e =>
    rcases Execution.sink_step (dailyBatch constraints time) s.silver.sink.rows s.daily e with
      hsame | ⟨run, n, b, -, -, hwritten⟩
    · exact hsame.symm ▸ h
    · exact hwritten.symm ▸ keysDiffer_dailyBatch h run n
  | _ => exact h

/-- **The keys are different** after any run of the notebooks. -/
theorem keysDiffer_exec (constraints : List (List Column)) (time : SparkTime D)
    (fromJson : String → Reading String) (es : List (MedallionEvent D)) :
    KeysDiffer (exec (medallionStep constraints time fromJson) Medallion.start es).daily.sink :=
  exec_induction (medallionStep constraints time fromJson) (fun _ s => KeysDiffer s.daily.sink)
    keysDiffer_start (fun _ e ih => keysDiffer_step ih e) es

end Keys

/-! ### The device-hours of several rows -/

section Rows

variable {D : Type} {time : SparkTime D} {silver : List (Reading String)} {lo hi : ℚ}
  {t : DevicesStatus} {es : List Event} {rows : List (DayRow D)} {row : DayRow D}
  {hours : List (HourRow D × Option PriceRow)}
  {hoursOf : DayRow D → List (HourRow D × Option PriceRow)}

/-- A device-hour with the occupancy it is charged for. -/
def chargedAs (p : HourRow D × Option PriceRow) : HourKey D × Option Bool :=
  (p.1.key, p.1.isRoomOccupied)

/-- A device-hour as the simulator sends it: traced, and known to be occupied or not. -/
structure SentHour (es : List Event) (t : DevicesStatus) (h : HourRow D) : Prop where
  traced : TracedHour es t h
  occupancy : h.isRoomOccupied ≠ none

/-- The day of a sent device-hour follows from what it is charged as: its zone and its type are
those of its device. -/
theorem SentHour.dayKey_eq {h h' : HourRow D} (hs : SentHour es t h) (hs' : SentHour es t h')
    (hkey : h.key = h'.key) (hocc : h.isRoomOccupied = h'.isRoomOccupied) :
    h.dayKey = h'.dayKey := by
  obtain ⟨x, hx, hid, htype, hzone, -⟩ := hs.traced
  obtain ⟨y, hy, hid', htype', hzone', -⟩ := hs'.traced
  obtain rfl : x = y := by
    refine Table.eq_of_key t.unique hx rfl hy ?_
    rw [deviceKey, ← hid', ← hkey, hid]
  rw [HourRow.dayKey, HourRow.dayKey, hkey, hocc, htype, htype', hzone, hzone']

/-- Rows that are stored under different keys are of different days, if they have keys. -/
theorem pairwise_key_ne (hkeys : (rows.filterMap conflictKey).Nodup)
    (hnamed : ∀ row ∈ rows, conflictKey row ≠ none) :
    rows.Pairwise fun a b => a.key ≠ b.key := by
  refine (List.pairwise_filterMap.mp hkeys).imp_of_mem fun {a b} ha _ hne hkey => ?_
  obtain ⟨k, hk⟩ := Option.ne_none_iff_exists'.mp (hnamed a ha)
  have hk' : conflictKey b = some k := conflictKey_eq_some.mpr (hkey ▸ conflictKey_eq_some.mp hk)
  exact hne k hk k hk' rfl

/-- **Different days have different device-hours**, or charge for them with another occupancy. -/
theorem nodup_chargedAs (hdays : rows.Pairwise fun a b => a.key ≠ b.key)
    (hrows : ∀ row ∈ rows, AccountsFor time silver lo hi (hoursOf row) row)
    (hsent : ∀ row ∈ rows, ∀ p ∈ hoursOf row, SentHour es t p.1) :
    ((rows.flatMap hoursOf).map chargedAs).Nodup := by
  rw [List.map_flatMap, List.nodup_flatMap]
  constructor
  · intro row hrow
    refine List.Nodup.of_map Prod.fst ?_
    rw [List.map_map]
    exact (hrows row hrow).distinct
  · refine hdays.imp_of_mem fun {a b} ha hb hne => ?_
    rw [Function.onFun, List.disjoint_left]
    intro c hc hc'
    obtain ⟨p, hp, rfl⟩ := List.mem_map.mp hc
    obtain ⟨q, hq, heq⟩ := List.mem_map.mp hc'
    refine hne ?_
    calc a.key = p.1.dayKey := ((hrows a ha).measured p hp).2.symm
      _ = q.1.dayKey := (hsent a ha p hp).dayKey_eq (hsent b hb q hq)
          (congrArg Prod.fst heq).symm (congrArg Prod.snd heq).symm
      _ = b.key := ((hrows b hb).measured q hq).2

/-- What is told apart by its occupancy is there twice at most. -/
theorem count_le_two [DecidableEq D] (hn : (hours.map chargedAs).Nodup)
    (hocc : ∀ p ∈ hours, p.1.isRoomOccupied ≠ none) (k : HourKey D) :
    (hours.map fun p => p.1.key).count k ≤ 2 := by
  have hsub : ((hours.filter fun p => p.1.key = k).map chargedAs).Subperm
      [(k, some true), (k, some false)] := by
    refine (hn.sublist (List.filter_sublist.map _)).subperm fun c hc => ?_
    obtain ⟨p, hp, rfl⟩ := List.mem_map.mp hc
    obtain ⟨hp, hk⟩ := List.mem_filter.mp hp
    obtain ⟨occ, hoccupied⟩ := Option.ne_none_iff_exists'.mp (hocc p hp)
    rw [chargedAs, of_decide_eq_true hk, hoccupied]
    cases occ <;> simp
  have hlength := hsub.length_le
  rw [List.length_map, ← List.countP_eq_length_filter] at hlength
  rw [List.count, List.countP_map]
  exact hlength

/-- A device-hour of messages that were sent has an occupancy. -/
theorem occupancy_ne_none {h : HourRow D} (hm : Measured time silver h)
    (hsent : ∀ r ∈ silver, ∃ p ∈ sentIn es, p.toReading = r) : h.isRoomOccupied ≠ none := by
  obtain ⟨readings, hne, hsub, -, hrow⟩ := hm
  cases readings with
  | nil => exact absurd rfl hne
  | cons r readings =>
    obtain ⟨p, -, rfl⟩ := hsent r (hsub List.mem_cons_self)
    rw [hrow]
    exact Option.some_ne_none p.isRoomOccupied

/-- A row of the month that accounts for device-hours as the simulator sends them has a key, when
the devices have types. -/
theorem conflictKey_of_sent (htyped : ∀ x ∈ t.rows, x.deviceType ≠ none)
    (h : AccountsFor time silver lo hi hours row) (hsent : ∀ p ∈ hours, SentHour es t p.1)
    (hdate : row.key.reportDate ≠ none) : conflictKey row ≠ none := by
  obtain ⟨p, hp⟩ := List.exists_mem_of_ne_nil _ h.nonempty
  obtain ⟨x, hx, -, htype, hzone, -⟩ := (hsent p hp).traced
  rw [conflictKey_ne_none]
  refine ⟨hdate, ?_, ?_, ?_⟩ <;> rw [← (h.measured p hp).2]
  · show p.1.zone ≠ none
    rw [hzone]
    exact Option.some_ne_none _
  · show p.1.deviceType ≠ none
    rw [htype]
    exact htyped x hx
  · exact (hsent p hp).occupancy

/-- The cost of a row, up to its rounding; a row without a cost has nothing to pay for. -/
theorem AccountsFor.getD_cost (h : AccountsFor time silver lo hi hours row) :
    lo * energyOf (hours.filter fun p => HasPrice p) - 1 / 200 ≤ row.estimatedCostYer.getD 0 ∧
      row.estimatedCostYer.getD 0 ≤ hi * energyOf (hours.filter fun p => HasPrice p) + 1 / 200 := by
  have hround : ∀ x : ℚ, |roundTo halfUp 2 x - x| ≤ 1 / 200 := fun x =>
    (abs_roundTo_sub_le nearest_halfUp 2 x).trans_eq (by norm_num)
  cases hcost : row.estimatedCostYer with
  | none =>
    have hnone : (hours.filter fun p => HasPrice p) = [] :=
      List.filter_eq_nil_iff.mpr fun p hp => by simpa using h.unpriced.mp hcost p hp
    rw [hnone]
    norm_num [energyOf]
  | some c =>
    obtain ⟨hlow, hhigh⟩ := h.cost c hcost
    rw [Option.getD_some]
    constructor
    · linarith [(abs_le.mp (hround (lo * energyOf (hours.filter fun p => HasPrice p)))).1]
    · linarith [(abs_le.mp (hround (hi * energyOf (hours.filter fun p => HasPrice p)))).2]

/-- **The costs of several rows**, up to the rounding of each. -/
theorem sum_cost_bounds (hrows : ∀ row ∈ rows, AccountsFor time silver lo hi (hoursOf row) row) :
    let priced := (rows.flatMap hoursOf).filter fun p => HasPrice p
    let spent := (rows.map fun row => row.estimatedCostYer.getD 0).sum
    lo * energyOf priced - rows.length / 200 ≤ spent ∧
      spent ≤ hi * energyOf priced + rows.length / 200 := by
  induction rows with
  | nil => simp [energyOf]
  | cons row rows ih =>
    obtain ⟨hlow, hhigh⟩ := ih fun r hr => hrows r (List.mem_cons_of_mem _ hr)
    obtain ⟨hlow', hhigh'⟩ := (hrows row List.mem_cons_self).getD_cost
    have henergy : energyOf (((row :: rows).flatMap hoursOf).filter fun p => HasPrice p) =
        energyOf ((hoursOf row).filter fun p => HasPrice p) +
          energyOf ((rows.flatMap hoursOf).filter fun p => HasPrice p) := by
      simp only [List.flatMap_cons, List.filter_append, energyOf, List.map_append, List.sum_append]
    simp only [henergy, List.map_cons, List.sum_cons, List.length_cons, Nat.cast_add, Nat.cast_one]
    constructor <;> linarith

theorem energyOf_flatMap_bounds
    (hrows : ∀ row ∈ rows, AccountsFor time silver lo hi (hoursOf row) row) :
    0 ≤ energyOf (rows.flatMap hoursOf) ∧
      energyOf (rows.flatMap hoursOf) ≤ 7 / 2 * (rows.flatMap hoursOf).length := by
  induction rows with
  | nil => simp [energyOf]
  | cons row rows ih =>
    obtain ⟨hlow, hhigh⟩ := ih fun r hr => hrows r (List.mem_cons_of_mem _ hr)
    obtain ⟨hlow', hhigh'⟩ := (hrows row List.mem_cons_self).bounded
    have henergy : energyOf ((row :: rows).flatMap hoursOf) =
        energyOf (hoursOf row) + energyOf (rows.flatMap hoursOf) := by
      simp only [List.flatMap_cons, energyOf, List.map_append, List.sum_append]
    rw [henergy, List.flatMap_cons, List.length_append, Nat.cast_add]
    constructor <;> linarith

end Rows

/-! ### The month on the page -/

section Month

variable {D : Type} [DecidableEq D] {time : SparkTime D} {es : List Event} {s : House}
  {t : DevicesStatus} {toChar : D → String} {yearMonth : String}

/-- **What the spending of a month stands for**: device-hours of registered devices in this month,
none of which is charged for twice as the same; and it is what they cost, up to `n` roundings. -/
structure SpendingOf (es : List Event) (t : DevicesStatus) (time : SparkTime D)
    (silver : List (Reading String)) (toChar : D → String) (yearMonth : String) (lo hi : ℚ) (n : ℕ)
    (hours : List (HourRow D × Option PriceRow)) (spent : ℚ) : Prop where
  measured : ∀ p ∈ hours, Measured time silver p.1 ∧ TracedHour es t p.1
  dated : ∀ p ∈ hours, p.1.key.reportDate.map toChar = some yearMonth
  distinct : (hours.map chargedAs).Nodup
  twice : ∀ k, (hours.map fun p => p.1.key).count k ≤ 2
  bounded : 0 ≤ energyOf hours ∧ energyOf hours ≤ 7 / 2 * hours.length
  lowest : lo * energyOf (hours.filter fun p => HasPrice p) - n / 200 ≤ spent
  highest : spent ≤ hi * energyOf (hours.filter fun p => HasPrice p) + n / 200

/-- **The spending of a month**, from the rows it adds up. -/
theorem exists_spendingOf {silver : List (Reading String)} {lo hi : ℚ} {rows : List (DayRow D)}
    (htyped : ∀ x ∈ t.rows, x.deviceType ≠ none) (hkeys : (rows.filterMap conflictKey).Nodup)
    (hrows : ∀ row ∈ rows, ∃ hours, AccountsFor time silver lo hi hours row ∧
      ∀ p ∈ hours, SentHour es t p.1)
    (hmonth : ∀ row ∈ rows, row.key.reportDate.map toChar = some yearMonth) :
    ∃ hours, SpendingOf es t time silver toChar yearMonth lo hi rows.length hours
      ((nullSum (rows.map (·.estimatedCostYer))).getD 0) := by
  choose! hoursOf haccounts hsent using hrows
  have hmem : ∀ p ∈ rows.flatMap hoursOf, ∃ row ∈ rows, p ∈ hoursOf row := fun p hp =>
    List.mem_flatMap.mp hp
  have hnamed : ∀ row ∈ rows, conflictKey row ≠ none := fun row hrow =>
    conflictKey_of_sent htyped (haccounts row hrow) (hsent row hrow) fun hnone => by
      simpa [hnone] using hmonth row hrow
  have hdistinct : ((rows.flatMap hoursOf).map chargedAs).Nodup :=
    nodup_chargedAs (pairwise_key_ne hkeys hnamed) haccounts hsent
  obtain ⟨hlow, hhigh⟩ := sum_cost_bounds haccounts
  refine ⟨rows.flatMap hoursOf, fun p hp => ?_, fun p hp => ?_, hdistinct,
    count_le_two hdistinct fun p hp => ?_, energyOf_flatMap_bounds haccounts, ?_, ?_⟩
  · obtain ⟨row, hrow, hp⟩ := hmem p hp
    exact ⟨((haccounts row hrow).measured p hp).1, (hsent row hrow p hp).traced⟩
  · obtain ⟨row, hrow, hp⟩ := hmem p hp
    rw [← hmonth row hrow, ← ((haccounts row hrow).measured p hp).2]
    rfl
  · obtain ⟨row, hrow, hp⟩ := hmem p hp
    exact (hsent row hrow p hp).occupancy
  · rw [getD_nullSum, List.map_map]
    exact hlow
  · rw [getD_nullSum, List.map_map]
    exact hhigh

/-- One more rounding. -/
theorem SpendingOf.rounded {silver : List (Reading String)} {lo hi spent : ℚ} {n : ℕ}
    {hours : List (HourRow D × Option PriceRow)}
    (h : SpendingOf es t time silver toChar yearMonth lo hi n hours spent) :
    SpendingOf es t time silver toChar yearMonth lo hi (n + 1) hours
      (roundTo halfEven 2 spent) := by
  have hround : |roundTo halfEven 2 spent - spent| ≤ 1 / 200 :=
    (abs_roundTo_sub_le nearest_halfEven 2 spent).trans_eq (by norm_num)
  obtain ⟨hlow, hhigh⟩ := abs_le.mp hround
  refine { h with lowest := ?_, highest := ?_ }
  · rw [Nat.cast_add, Nat.cast_one]
    linarith [h.lowest]
  · rw [Nat.cast_add, Nat.cast_one]
    linarith [h.highest]

variable {constraints : List (List Column)} {fromJson : String → Reading String}
  {toJson : Payload → String} {notebooks : List (MedallionEvent D)} {tables : DashboardTables D}
  {fails : DashboardQuery → Bool} {lower : String → String} {hour : ℕ}
  {metabaseUrl : Option String} {shown : DashboardContext}

/-- **From the panel to the spending on the page**: in every run of the simulator beside the panel,
and every run of the notebooks over messages that it has sent, with prices between two bounds, the
spending that the dashboard shows stands for device-hours of the month, up to half a hundredth for
each of its rows and for the page. -/
theorem spending_endToEnd {lo hi : ℚ} (hrun : Run Step (House.new t) es s)
    (htyped : ∀ x ∈ s.table.rows, x.deviceType ≠ none)
    (hjson : ∀ p ∈ sentIn es, fromJson (toJson p) = p.toReading)
    (hpublished : PublishedFrom toJson es notebooks) (h0 : 0 ≤ lo)
    (hprices : ∀ e ∈ notebooks, e.PricesWithin lo hi)
    (htables : tables.dwhEnergyAnalytics = (exec (medallionStep constraints time fromJson)
      Medallion.start notebooks).daily.sink.analytics)
    (hfails : fails .spending = false)
    (hshown : getDashboardPage fails tables toChar lower yearMonth hour metabaseUrl = some shown) :
    let m := exec (medallionStep constraints time fromJson) Medallion.start notebooks
    let month := m.daily.sink.analytics.filter fun row =>
      row.key.reportDate.map toChar = some yearMonth
    ∃ hours, SpendingOf es s.table time m.silver.sink.rows toChar yearMonth lo hi (month.length + 1)
      hours shown.actualSpendingYer := by
  intro m month
  have hlayered := layered_exec constraints time fromJson notebooks
  have hsent : ∀ r ∈ m.silver.sink.rows, ∃ p ∈ sentIn es, p.toReading = r :=
    sent_of_silver hlayered hjson hpublished
  have hbilled := billed_exec constraints time fromJson hprices
  have hmonth : ∀ row ∈ month, row ∈ m.daily.sink.analytics ∧
      row.key.reportDate.map toChar = some yearMonth := fun row hrow =>
    ⟨List.mem_of_mem_filter hrow, of_decide_eq_true (List.mem_filter.mp hrow).2⟩
  have hrows : ∀ row ∈ month, ∃ hours, AccountsFor time m.silver.sink.rows lo hi hours row ∧
      ∀ p ∈ hours, SentHour es s.table p.1 := by
    intro row hrow
    obtain ⟨hours, haccounts⟩ := hbilled.exists_accountsFor hlayered h0 (hmonth row hrow).1
    refine ⟨hours, haccounts, fun p hp => ?_⟩
    have hmeasured := (haccounts.measured p hp).1
    exact ⟨tracedHour_of_measured (traced_run hrun) hmeasured hsent,
      occupancy_ne_none hmeasured hsent⟩
  obtain ⟨hours, hspending⟩ := exists_spendingOf htyped
    ((keysDiffer_exec constraints time fromJson notebooks).sublist
      (List.filter_sublist.filterMap _)) hrows fun row hrow => (hmonth row hrow).2
  obtain ⟨target, htarget⟩ := exists_boundBudget hshown
  rw [getDashboardPage_eq metabaseUrl htarget] at hshown
  obtain rfl := Option.some.inj hshown
  refine ⟨hours, ?_⟩
  have hspent : shownSpending fails tables toChar yearMonth =
      (nullSum (month.map (·.estimatedCostYer))).getD 0 := by
    rw [shownSpending, hfails, if_neg Bool.false_ne_true, DashboardTables.totalSpent, htables]
  simp only [hspent]
  exact hspending.rounded

end Month

/-- Half an hour later nobody is in the kitchen. -/
def vacantDraws : Draws :=
  { noonDraws with occupancy := ⟨9 / 10, by norm_num, by norm_num⟩ }

/-- What the simulator sends then. -/
def vacantPayload : Payload := payload "2026-01-01 12:30:00" 12 false fridge vacantDraws

/-- The message of it. -/
def vacantMessage : String :=
  "\x7b\"timestamp\": \"2026-01-01 12:30:00\", \"house_type\": \"Smart_Luxury_Villa\", " ++
    "\"currency\": \"YER\", \"zone\": \"Kitchen\", \"device_id\": \"KT_Fridge\", " ++
    "\"device_type\": \"Critical_Appliance\", \"is_room_occupied\": false, " ++
    "\"power_consumption_watts\": 80.0, \"status\": \"ON\"\x7d"

/-- An iteration at noon and one half an hour later. -/
def twoIterations : List Event :=
  oneIteration ++ [.iterate ⟨"2026-01-01 12:30:00", 12⟩ 1900, .selectDevices, .preferencesFail,
    .send (emit "2026-01-01 12:30:00" 12 false fridge vacantDraws), .rest]

/-- Two messages of one device-hour come to the warehouse in two batches. -/
def twoBatches : List (MedallionEvent String) :=
  noonNotebooks ++ .produce [vacantMessage] ::
    ((Execution.completeRun none).map .bronze ++ ((Execution.completeRun none).map .silver ++
      (Execution.completeRun ([⟨some 12, some 20⟩], .raises none none)).map .daily))

/-- The message of a reading of the refrigerator. -/
def fridgeJson (p : Payload) : String := if p = noonPayload then noonMessage else vacantMessage

/-- The reading of a message. -/
def fridgeFromJson (message : String) : Reading String :=
  if message = noonMessage then noonPayload.toReading else vacantPayload.toReading

/-- The tables of a house that has only been billed. -/
def billedTables (rows : List (DayRow String)) : DashboardTables String where
  userPreferences := savedBudget.userPreferences
  dwhEnergyAnalytics := rows
  electricityPrices := []
  devicesStatus := []
  sparkWindowedEnergy := []
  deviceThresholds := []

/-- The hour is charged for twice: once as occupied, and once as empty. -/
theorem spending_endToEnd_twoBatches :
    let m := exec (medallionStep [analyticsTarget] isoTime fridgeFromJson) Medallion.start
      twoBatches
    let month := m.daily.sink.analytics.filter fun row =>
      row.key.reportDate.map (fun _ => "2026-01") = some "2026-01"
    let page := getDashboardPage (fun _ => false) (billedTables m.daily.sink.analytics)
      (fun _ => "2026-01") asciiLower "2026-01" 12 none
    page.map (·.actualSpendingYer) = some (16 / 5) ∧
      ∀ shown ∈ page, ∃ hours, SpendingOf twoIterations kitchen.table isoTime m.silver.sink.rows
        (fun _ => "2026-01") "2026-01" 20 20 (month.length + 1) hours shown.actualSpendingYer := by
  have hrun : Run Step (House.new kitchen.table) twoIterations
      ⟨kitchen.table, ⟨[fridge], false, 0⟩, .idle⟩ :=
    ((((run_oneIteration.snoc (.iterateStale rfl (Or.inl (by norm_num)))).snoc
      (.selectDevices rfl (List.Perm.refl _))).snoc (.preferencesFail rfl)).snoc
      (@Step.send _ ⟨"2026-01-01 12:30:00", 12⟩ false fridge [] vacantDraws rfl)).snoc (.rest rfl)
  have hsent : ∀ p, p ∈ sentIn twoIterations ↔ p = noonPayload ∨ p = vacantPayload := fun p => by
    simp [sentIn, twoIterations, oneIteration, Event.sent, noonPayload, vacantPayload,
      (emit_eq "2026-01-01 12:00:00" 12 false fridge twiceDraws).2,
      (emit_eq "2026-01-01 12:30:00" 12 false fridge vacantDraws).2]
  have hne : vacantPayload ≠ noonPayload := by decide +kernel
  have hmessage : vacantMessage ≠ noonMessage := by decide +kernel
  have hjson : ∀ p ∈ sentIn twoIterations, fridgeFromJson (fridgeJson p) = p.toReading := by
    intro p hp
    rcases (hsent p).mp hp with rfl | rfl
    · rw [fridgeJson, if_pos rfl, fridgeFromJson, if_pos rfl]
    · rw [fridgeJson, if_neg hne, fridgeFromJson, if_neg hmessage]
  have hpublished : PublishedFrom fridgeJson twoIterations twoBatches := by
    intro messages hproduced m hm
    have hcases : messages = [noonMessage, noonMessage] ∨ messages = [vacantMessage] := by
      simpa [twoBatches, noonNotebooks] using hproduced
    rcases hcases with rfl | rfl
    · refine ⟨noonPayload, (hsent _).mpr (Or.inl rfl), ?_⟩
      rw [fridgeJson, if_pos rfl]
      exact (by simpa using hm : m = noonMessage).symm
    · refine ⟨vacantPayload, (hsent _).mpr (Or.inr rfl), ?_⟩
      rw [fridgeJson, if_neg hne]
      exact (List.mem_singleton.mp hm).symm
  have hprices : ∀ e ∈ twoBatches, e.PricesWithin 20 20 := by
    simp [twoBatches, noonNotebooks, Execution.completeRun, MedallionEvent.PricesWithin,
      PricesWithin]
  have htyped : ∀ x ∈ kitchen.table.rows, x.deviceType ≠ none := by decide
  have htables : ∀ rows, (billedTables rows).dwhEnergyAnalytics = rows := fun _ => rfl
  refine ⟨by decide +kernel, fun shown hshown => ?_⟩
  have hspending := spending_endToEnd hrun htyped hjson hpublished (by norm_num) hprices
    (htables _) rfl (Option.mem_def.mp hshown)
  exact hspending

end SmartHomeEnergy
