import SmartHomeEnergy.Relational.Logic
import SmartHomeEnergy.Simulator.Device

/-!
# The two cleaning filters, and what the simulator sends through them

The silver layer and the live layer clean the same readings with two filters that
were written separately: `SmartHomeEnergy.silverCleanedDf` looks at the power and at
one device type, `SmartHomeEnergy.contextCleanDf` at the status, the power and every
type. Both are conditions in three-valued logic.

Against the simulator, each of them is exact but for one kind of payload:

* the silver filter has no look at the status, so a sensor fault that shows the
  plausible 1500 watts passes it unless the device is a light
  (`SmartHomeEnergy.PlausibleFault`);
* the live filter caps a type it does not name at 2000 watts, and a bulb or a
  television at 500, while the charger may draw 2200 under any type but those with
  a larger or an own cap (`SmartHomeEnergy.ChargerOverCap`).

`SmartHomeEnergy.cleaning_exact_iff` says that these are the only two.
-/

namespace SmartHomeEnergy

open Numeric Relational

variable {τ : Type}

/-! ### The filters -/

/-- `silver_cleaned_df`: the filter between the bronze and the silver layer. -/
def silverCleanedDf (r : Reading τ) : Tri :=
  (((isNotNull r.powerConsumptionWatts).and (test (0 ≤ ·) r.powerConsumptionWatts)).and
    (test (· ≤ 3500) r.powerConsumptionWatts)).and
    ((test (· = "Lighting") r.deviceType).and (test (100 < ·) r.powerConsumptionWatts)).not

/-- The types the live filter names. -/
def namedTypes : List String := ["AC", "Oven", "Washing_Machine", "Lighting", "Smart_Bulb", "TV"]

/-- `context_clean_df`: the status and value filter of the live layer. -/
def contextCleanDf (r : Reading τ) : Tri :=
  let power := r.powerConsumptionWatts
  let type := r.deviceType
  (((isNotNull power).and (test (· ∈ ["LOST_SIGNAL", "SENSOR_FAULT", "ERROR"]) r.status).not).and
    (test (0 ≤ ·) power)).and
    ((((((test (· = "AC") type).and (test (· ≤ 6000) power)).or
      ((test (· = "Oven") type).and (test (· ≤ 4000) power))).or
      ((test (· = "Washing_Machine") type).and (test (· ≤ 3000) power))).or
      ((test (· ∈ ["Lighting", "Smart_Bulb", "TV"]) type).and (test (· ≤ 500) power))).or
      ((test (· ∈ namedTypes) type).not.and (test (· ≤ 2000) power)))

/-- The cap the live filter puts on a type. -/
def liveCap (type : String) : ℕ :=
  if type = "AC" then 6000
  else if type = "Oven" then 4000
  else if type = "Washing_Machine" then 3000
  else if type ∈ ["Lighting", "Smart_Bulb", "TV"] then 500
  else 2000

/-- **What the silver filter keeps.** -/
theorem holds_silverCleanedDf {r : Reading τ} :
    (silverCleanedDf r).Holds ↔ ∃ p, r.powerConsumptionWatts = some p ∧ 0 ≤ p ∧ p ≤ 3500 ∧
      ((∃ t, r.deviceType = some t ∧ t ≠ "Lighting") ∨ p ≤ 100) := by
  cases hp : r.powerConsumptionWatts with
  | none => simp [silverCleanedDf, hp]
  | some p => simp [silverCleanedDf, hp, and_assoc]

/-- **What the live filter keeps**: a reading with a status that is no fault and a
power between zero and the cap of its type. -/
theorem holds_contextCleanDf {r : Reading τ} :
    (contextCleanDf r).Holds ↔ ∃ p t s, r.powerConsumptionWatts = some p ∧
      r.deviceType = some t ∧ r.status = some s ∧
      s ∉ ["LOST_SIGNAL", "SENSOR_FAULT", "ERROR"] ∧ 0 ≤ p ∧ p ≤ liveCap t := by
  cases hp : r.powerConsumptionWatts with
  | none => simp [contextCleanDf, hp]
  | some p =>
    cases ht : r.deviceType with
    | none => simp [contextCleanDf, hp, ht]
    | some t =>
      cases hs : r.status with
      | none => simp [contextCleanDf, hp, ht, hs]
      | some s =>
        have hcap : (((t = "AC" ∧ p ≤ 6000 ∨ t = "Oven" ∧ p ≤ 4000) ∨
            t = "Washing_Machine" ∧ p ≤ 3000) ∨ t ∈ ["Lighting", "Smart_Bulb", "TV"] ∧ p ≤ 500) ∨
            t ∉ namedTypes ∧ p ≤ 2000 ↔ p ≤ liveCap t := by
          unfold liveCap namedTypes
          split_ifs <;> simp_all
        simp [contextCleanDf, hp, ht, hs, ← hcap, and_assoc, or_assoc]

/-! ### Which payloads escape which filter -/

section Payloads

variable (d : Device) (hour : ℕ) (eco : Bool) (r : Draws)

/-- A sensor fault that looks like a reading: the device runs, the draws inject a
fault of 1500 watts, and the device is not a light. -/
def PlausibleFault : Prop :=
  Runs d hour eco r ∧ 1 / 100 ≤ r.diceRoll.val ∧ r.diceRoll.val < 15 / 1000 ∧
    r.faultSign.val ≤ 1 / 2 ∧ d.deviceType ≠ some "Lighting"

/-- The power of the charger, when its type does not decide otherwise: forced on by
the user or as a critical device, or charging in a sleeping hour. -/
def chargerWatts : Option ℚ :=
  let base := min (dbWatts d) 2000
  if d.overrideStatus = some "OFF" then none
  else if d.overrideStatus = some "ON" ∨ d.critical = some true ∨
      d.deviceType = some "Critical_Appliance" then
    some (uniform r.position (base * (9 / 10)) (base * (11 / 10)))
  else if isSleepingHours hour ∧ r.run.val < 4 / 10 then
    some (uniform r.position (base * (8 / 10)) (base * 1))
  else none

/-- The charger, under a type the live filter has too small a cap for, drawing more
than half a cent above that cap. -/
def ChargerOverCap : Prop :=
  d.deviceId = "GR_EV_Charger" ∧
    (∀ t ∈ ["AC", "Lighting", "Oven", "Washing_Machine"], d.deviceType ≠ some t) ∧
    15 / 1000 ≤ r.diceRoll.val ∧
    ∃ t w, d.deviceType = some t ∧ chargerWatts d hour r = some w ∧
      liveCap t + 1 / 200 < w

variable {d hour eco r}

theorem baseWatts_charger (hid : d.deviceId = "GR_EV_Charger") (hac : d.deviceType ≠ some "AC")
    (hli : d.deviceType ≠ some "Lighting") : baseWatts d = min (dbWatts d) 2000 := by
  rw [baseWatts, if_neg hac, if_neg hli, if_pos hid]

/-- The charger's decision, read off its draws. -/
theorem decidePower_charger (hid : d.deviceId = "GR_EV_Charger")
    (hac : d.deviceType ≠ some "AC") (hli : d.deviceType ≠ some "Lighting") :
    decidePower d hour eco r =
      match chargerWatts d hour r with
      | some w => (.on, w)
      | none => (.off, 0) := by
  have hb := baseWatts_charger hid hac hli
  simp only [decidePower, decideAuto, chargerWatts, hb, hac, hli, hid, if_true, if_false]
  by_cases hoff : d.overrideStatus = some "OFF"
  · simp [hoff]
  by_cases hon : d.overrideStatus = some "ON"
  · simp [hon]
  by_cases hcr : d.critical = some true ∨ d.deviceType = some "Critical_Appliance"
  · simp [hoff, hon, hcr]
  cases hs : isSleepingHours hour
  · simp [hoff, hon, hcr]
  · by_cases hrun : r.run.val < 4 / 10 <;> simp [hoff, hon, hcr, hrun]

/-- Eleven tenths of a base power stay under the live cap, but for the charger. -/
theorem baseWatts_le_liveCap {t : String} (ht : d.deviceType = some t)
    (h : ¬(d.deviceId = "GR_EV_Charger" ∧
      ∀ t ∈ ["AC", "Lighting", "Oven", "Washing_Machine"], d.deviceType ≠ some t)) :
    baseWatts d * (11 / 10) ≤ liveCap t := by
  have hall := baseWatts_le d
  rw [liveCap]
  split
  next => push_cast; linarith
  split
  next => push_cast; linarith
  split
  next => push_cast; linarith
  split
  next hac hov hwm hsmall =>
    -- a light, a bulb or a television: 15 watts, or 80 unless it is the charger
    have hb : baseWatts d ≤ 80 := by
      by_cases hli : t = "Lighting"
      · exact (baseWatts_le_of_lighting (by rw [ht, hli])).trans (by norm_num)
      · have hid : d.deviceId ≠ "GR_EV_Charger" := fun hc =>
          h ⟨hc, by simp [ht, hac, hov, hwm, hli]⟩
        have hhv : t ≠ "Heavy_Appliance" := by rintro rfl; simp at hsmall
        rw [baseWatts, if_neg (by simp [ht, hac]), if_neg (by simp [ht, hli]), if_neg hid,
          if_neg (by simp [ht, hhv])]
        exact min_le_right _ _
    push_cast
    linarith
  next hac hov hwm hsmall =>
    have hli : t ≠ "Lighting" := by rintro rfl; simp at hsmall
    have hid : d.deviceId ≠ "GR_EV_Charger" := fun hc =>
      h ⟨hc, by simp [ht, hac, hov, hwm, hli]⟩
    have hb := baseWatts_le_of_ne d (Or.inr (Or.inr hid))
    push_cast
    linarith

/-- A running device that is hit by no fault is over the live cap exactly when it is
the charger over its cap. -/
theorem liveCap_lt_iff (hw : PositiveWatts d) {t : String} (ht : d.deviceType = some t) {w : ℚ}
    (hdec : decidePower d hour eco r = (.on, w)) (hdice : 15 / 1000 ≤ r.diceRoll.val) :
    (liveCap t : ℚ) < roundTo halfEven 2 w ↔ ChargerOverCap d hour r := by
  rw [lt_roundTo_halfEven]
  constructor
  · intro hlt
    -- another device stays under its cap even at eleven tenths of its base power
    have hch : d.deviceId = "GR_EV_Charger" ∧
        ∀ t ∈ ["AC", "Lighting", "Oven", "Washing_Machine"], d.deviceType ≠ some t := by
      by_contra hn
      have hpow := (decides_decidePower hw hour eco r).power_mem (baseWatts_nonneg hw)
      rw [hdec] at hpow
      have hcap := hpow.2.trans (baseWatts_le_liveCap ht hn)
      simp only at hcap
      linarith
    rw [decidePower_charger hch.1 (hch.2 _ (by simp)) (hch.2 _ (by simp))] at hdec
    refine ⟨hch.1, hch.2, hdice, t, w, ht, ?_, hlt⟩
    split at hdec
    next w' hw' => rw [hw', (Prod.mk.inj hdec).2]
    next => exact absurd (Prod.mk.inj hdec).1 (by decide)
  · rintro ⟨hid, hty, -, t', w', ht', hw', hlt⟩
    rw [decidePower_charger hid (hty _ (by simp)) (hty _ (by simp)), hw'] at hdec
    obtain rfl : t = t' := Option.some.inj (ht.symm.trans ht')
    rwa [← (Prod.mk.inj hdec).2]

/-- A filter keeps a payload exactly when the payload reports no fault. -/
def AcceptsExactly (keeps : Reading String → Tri) (p : Payload) : Prop :=
  (keeps p.toReading).Holds ↔ p.status = .on ∨ p.status = .off

instance (keeps : Reading String → Tri) (p : Payload) : Decidable (AcceptsExactly keeps p) :=
  inferInstanceAs (Decidable (_ ↔ _))

variable {now : String}

/-- What the silver filter asks of a payload. -/
theorem silver_keeps {p : Payload} {t : String} (ht : p.deviceType = some t) :
    (silverCleanedDf p.toReading).Holds ↔ ∃ w, p.powerConsumptionWatts = some w ∧ 0 ≤ w ∧
      w ≤ 3500 ∧ (t ≠ "Lighting" ∨ w ≤ 100) := by
  rw [holds_silverCleanedDf]
  simp [Payload.toReading, ht]

/-- What the live filter asks of a payload. -/
theorem live_keeps {p : Payload} {t : String} (ht : p.deviceType = some t) :
    (contextCleanDf p.toReading).Holds ↔ ∃ w, p.powerConsumptionWatts = some w ∧
      (p.status = .on ∨ p.status = .off) ∧ 0 ≤ w ∧ w ≤ liveCap t := by
  rw [holds_contextCleanDf]
  cases hs : p.status <;> simp [Payload.toReading, ht, hs, Status.text]

/-- **The silver filter is exact but for plausible faults.** -/
theorem silver_exact_iff (hw : PositiveWatts d) (ht : d.deviceType ≠ none) :
    AcceptsExactly silverCleanedDf (payload now hour eco d r) ↔ ¬PlausibleFault d hour eco r := by
  obtain ⟨t, ht⟩ := Option.ne_none_iff_exists'.mp ht
  have hrep := reports_payload hw now hour eco r
  rw [AcceptsExactly, silver_keeps (t := t) ht]
  generalize (payload now hour eco d r).status = st at hrep ⊢
  generalize (payload now hour eco d r).powerConsumptionWatts = pw at hrep ⊢
  cases hrep with
  | off hdec =>
    refine iff_of_true (by simp) ?_
    rintro ⟨hon, -⟩
    rw [← decidePower_on_iff, hdec] at hon
    exact absurd hon (by decide)
  | lost hdec hlost =>
    refine iff_of_true (by simp) ?_
    rintro ⟨-, hlost', -⟩
    exact absurd hlost (not_lt.mpr hlost')
  | dip hdec hlost hfault hsign =>
    refine iff_of_true (iff_of_false (by norm_num) (by decide)) ?_
    rintro ⟨-, -, -, hsign', -⟩
    exact absurd hsign (not_lt.mpr hsign')
  | spike hdec hlost hfault hsign =>
    -- only a light is refused at 1500 watts: on anything else the spike looks plausible
    by_cases hli : t = "Lighting"
    · exact iff_of_true (iff_of_false (by norm_num [hli]) (by decide)) fun h =>
        h.2.2.2.2 (by rw [ht, hli])
    · have hruns : Runs d hour eco r := (decidePower_on_iff d hour eco r).mp (by rw [hdec])
      have hty : d.deviceType ≠ some "Lighting" := by simpa [ht] using hli
      refine iff_of_false (fun h => ?_) (not_not.mpr ⟨hruns, hlost, hfault, hsign, hty⟩)
      exact absurd (h.mp ⟨1500, rfl, by norm_num, by norm_num, Or.inl hli⟩) (by decide)
  | @on w hdec hdice =>
    have hpow := (decides_decidePower hw hour eco r).power_mem (baseWatts_nonneg hw)
    rw [hdec] at hpow
    -- the limits are integers, so that rounding the power does not cross them
    have h0 := roundTo_nonneg nearest_halfEven (d := 2) hpow.1
    have h1 : roundTo halfEven 2 w ≤ 3500 := by
      have hb := baseWatts_le d
      have hle : w ≤ (3500 : ℤ) := by
        push_cast
        linarith [hpow.2]
      exact_mod_cast roundTo_le_intCast nearest_halfEven hle
    have h2 : t = "Lighting" → roundTo halfEven 2 w ≤ 100 := by
      intro hli
      have hb := baseWatts_le_of_lighting (d := d) (by rw [ht, hli])
      have hle : w ≤ (100 : ℤ) := by
        push_cast
        linarith [hpow.2]
      exact_mod_cast roundTo_le_intCast nearest_halfEven hle
    refine iff_of_true (iff_of_true ⟨_, rfl, h0, h1, ?_⟩ (Or.inl rfl)) ?_
    · exact or_iff_not_imp_left.mpr fun hn => h2 (not_not.mp hn)
    · rintro ⟨-, -, hfault, -⟩
      exact absurd hfault (not_lt.mpr hdice)

/-- **The live filter is exact but for the charger over its cap.** -/
theorem live_exact_iff (hw : PositiveWatts d) (ht : d.deviceType ≠ none) :
    AcceptsExactly contextCleanDf (payload now hour eco d r) ↔ ¬ChargerOverCap d hour r := by
  obtain ⟨t, ht⟩ := Option.ne_none_iff_exists'.mp ht
  have hrep := reports_payload hw now hour eco r
  rw [AcceptsExactly, live_keeps (t := t) ht]
  generalize (payload now hour eco d r).status = st at hrep ⊢
  generalize (payload now hour eco d r).powerConsumptionWatts = pw at hrep ⊢
  -- a payload with a fault is refused for its status, and no fault hits the charger
  have hno : r.diceRoll.val < 15 / 1000 → ¬ChargerOverCap d hour r := fun hfault h =>
    absurd hfault (not_lt.mpr h.2.2.1)
  cases hrep with
  | off hdec =>
    refine iff_of_true (by simp) ?_
    rintro ⟨hid, hty, -, -, w, -, hw', -⟩
    rw [decidePower_charger hid (hty _ (by simp)) (hty _ (by simp)), hw'] at hdec
    exact absurd (Prod.mk.inj hdec).1 (by decide)
  | lost hdec hlost => exact iff_of_true (by simp) (hno (hlost.trans (by norm_num)))
  | dip hdec hlost hfault hsign => exact iff_of_true (by simp) (hno hfault)
  | spike hdec hlost hfault hsign => exact iff_of_true (by simp) (hno hfault)
  | @on w hdec hdice =>
    have hpow := (decides_decidePower hw hour eco r).power_mem (baseWatts_nonneg hw)
    rw [hdec] at hpow
    have h0 := roundTo_nonneg nearest_halfEven (d := 2) hpow.1
    rw [← liveCap_lt_iff hw ht hdec hdice, not_lt]
    simp [h0]

/-- **Exactly when both filters keep the payloads without a fault and no others.** -/
theorem cleaning_exact_iff (now : String) (d : Device) (hour : ℕ) (eco : Bool) (r : Draws)
    (ht : d.deviceType ≠ none) (hw : PositiveWatts d) :
    (AcceptsExactly silverCleanedDf (payload now hour eco d r) ∧
        AcceptsExactly contextCleanDf (payload now hour eco d r)) ↔
      ¬PlausibleFault d hour eco r ∧ ¬ChargerOverCap d hour r :=
  and_congr (silver_exact_iff hw ht) (live_exact_iff hw ht)

/-- The charger, forced on. -/
def charger : Device where
  deviceId := "GR_EV_Charger"
  deviceType := some "EV_Charger"
  overrideStatus := some "ON"
  baseWatts := some 7200
  critical := some false

/-- Both filters on both devices: the refrigerator's faulty 1500 watts pass the silver
filter, and the charger's healthy 2196 watts are refused by the live filter. -/
theorem cleaning_not_exact :
    ¬AcceptsExactly silverCleanedDf (payload "2026-01-01 12:00:00" 12 false fridge
        (drawsAt .half ⟨12 / 1000, by norm_num, by norm_num⟩)) ∧
      ¬AcceptsExactly contextCleanDf (payload "2026-01-01 12:00:00" 12 false charger
        (drawsAt ⟨99 / 100, by norm_num, by norm_num⟩ .half)) := by
  decide +kernel

theorem cleaning_exact_iff_fridge :
    fridge.deviceType ≠ none ∧ PositiveWatts fridge ∧
      ((AcceptsExactly silverCleanedDf (payload "2026-01-01 12:00:00" 12 false fridge
          (drawsAt .half .half)) ∧
        AcceptsExactly contextCleanDf (payload "2026-01-01 12:00:00" 12 false fridge
          (drawsAt .half .half))) ↔
        ¬PlausibleFault fridge 12 false (drawsAt .half .half) ∧
          ¬ChargerOverCap fridge 12 (drawsAt .half .half)) := by
  have ht : fridge.deviceType ≠ none := by decide
  have hw : PositiveWatts fridge := by
    rintro w ⟨⟩
    norm_num
  exact ⟨ht, hw, cleaning_exact_iff _ _ _ _ _ ht hw⟩

end Payloads

end SmartHomeEnergy
