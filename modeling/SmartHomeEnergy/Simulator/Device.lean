import SmartHomeEnergy.Numeric.Rounding
import SmartHomeEnergy.Reading

/-!
# The device loop of the simulator

One iteration of `appliance_simulator.py` looks at one device and emits one payload,
and now and then the same payload twice. The loop body is cut here where the source
comments cut it: the base power and the zone of the device, the occupancy of its
room, the decision about state and power, the injection of data-quality faults, and
the payload itself.

`random.random()` is drawn at several places. Each place has its own field in
`SmartHomeEnergy.Draws`, so that a fixed outcome of every draw is one value;
`random.uniform(a, b)` is `a + (b - a) * r` for the position `r` of its place.

What the other files use of the decision is one statement about all of its branches:
a device ends up off, or on with a power drawn from an interval between zero and
eleven tenths of its base power (`SmartHomeEnergy.decides_decidePower`).
-/

namespace SmartHomeEnergy

open Numeric

/-! ### Devices and draws -/

/-- A device, with the columns of `devices_status` the simulator selects. -/
structure Device where
  deviceId : String
  deviceType : Option String
  overrideStatus : Option String
  baseWatts : Option ℚ
  critical : Option Bool
  deriving DecidableEq

/-- One outcome of `random.random()`. -/
structure Draw where
  val : ℚ
  nonneg : 0 ≤ val
  lt_one : val < 1

/-- The outcome inside `random.uniform`, where rounding may reach the end of the interval. -/
structure Position where
  val : ℚ
  nonneg : 0 ≤ val
  le_one : val ≤ 1

/-- A draw as a position. -/
def Draw.toPosition (r : Draw) : Position := ⟨r.val, r.nonneg, r.lt_one.le⟩

/-- The outcomes of all draws of one loop body. -/
structure Draws where
  /-- Whether somebody is in the room. -/
  occupancy : Draw
  /-- Whether an idle appliance or the charger runs. -/
  run : Draw
  /-- The position inside the interval of `random.uniform`. -/
  position : Position
  /-- `dice_roll`, which injects the faults. -/
  diceRoll : Draw
  /-- Which of the two faulty powers a sensor fault shows. -/
  faultSign : Draw
  /-- Whether the payload is sent twice. -/
  duplicate : Draw

/-- `random.uniform(a, b)`. -/
def uniform (r : Position) (a b : ℚ) : ℚ := a + (b - a) * r.val

theorem uniform_mem (r : Position) {a b : ℚ} (h : a ≤ b) :
    a ≤ uniform r a b ∧ uniform r a b ≤ b := by
  have h0 := r.nonneg
  have h1 := r.le_one
  constructor <;> simp only [uniform] <;> nlinarith

/-! ### The hour, the base power and the zone -/

/-- `is_sleeping_hours`. -/
def isSleepingHours (hour : ℕ) : Bool := 23 ≤ hour || hour ≤ 6

/-- `is_peak_heat_hours`. -/
def isPeakHeatHours (hour : ℕ) : Bool := 11 ≤ hour && hour ≤ 16

/-- `is_evening_rush`. -/
def isEveningRush (hour : ℕ) : Bool := 17 ≤ hour && hour ≤ 22

/-- `db_watts`: a missing or zero power counts as 100 watts. -/
def dbWatts (d : Device) : ℚ :=
  match d.baseWatts with
  | some w => if w ≠ 0 then w else 100
  | none => 100

/-- `base_watts`: the power of the device, capped by its type – and, for one device,
by its id. -/
def baseWatts (d : Device) : ℚ :=
  if d.deviceType = some "AC" then min (dbWatts d) 1200
  else if d.deviceType = some "Lighting" then min (dbWatts d) 15
  else if d.deviceId = "GR_EV_Charger" then min (dbWatts d) 2000
  else if d.deviceType = some "Heavy_Appliance" then min (dbWatts d) 1000
  else min (dbWatts d) 80

/-- `str.startswith`. -/
def startsWith (s p : String) : Bool := p.toList.isPrefixOf s.toList

/-- `zone_name` and `occupancy_weight`. -/
def zoneOf (deviceId : String) : Zone × ℚ :=
  if startsWith deviceId "LV" then (.livingRoom, 8 / 10)
  else if startsWith deviceId "KT" then (.kitchen, 6 / 10)
  else if startsWith deviceId "MB" then (.masterBedroom, 7 / 10)
  else if startsWith deviceId "OD" then (.outdoorAndSecurity, 2 / 10)
  else (.garageAndUtility, 3 / 10)

/-- `room_occupied`. -/
def roomOccupied (d : Device) (hour : ℕ) (r : Draws) : Bool :=
  if isSleepingHours hour then
    (zoneOf d.deviceId).1 = .masterBedroom || r.occupancy.val < 5 / 100
  else if isEveningRush hour then
    (zoneOf d.deviceId).1 = .livingRoom || (zoneOf d.deviceId).1 = .kitchen ||
      r.occupancy.val < 3 / 10
  else r.occupancy.val < (zoneOf d.deviceId).2

/-! ### State and power -/

/-- The state and the power of a device the user left on automatic. -/
def decideAuto (d : Device) (hour : ℕ) (eco : Bool) (r : Draws) : Status × ℚ :=
  let base := baseWatts d
  let zone := (zoneOf d.deviceId).1
  let occupied := roomOccupied d hour r
  if d.critical = some true ∨ d.deviceType = some "Critical_Appliance" then
    (.on, uniform r.position (base * (9 / 10)) (base * (11 / 10)))
  else if d.deviceType = some "AC" then
    if zone = .masterBedroom ∧ isSleepingHours hour then
      let factor : ℚ := if eco then 5 / 10 else 7 / 10
      (.on, uniform r.position (base * factor) (base * (factor + 1 / 10)))
    else if zone = .livingRoom ∧ isPeakHeatHours hour then
      let factor : ℚ := if eco then 8 / 10 else 11 / 10
      (.on, uniform r.position (base * (factor - 1 / 10)) (base * factor))
    else if occupied ∧ ¬isSleepingHours hour then
      let factor : ℚ := if eco then 7 / 10 else 9 / 10
      (.on, uniform r.position (base * factor) (base * (factor + 1 / 10)))
    else (.off, 0)
  else if d.deviceType = some "Lighting" then
    if eco ∧ zone = .outdoorAndSecurity then (.off, 0)
    else if isEveningRush hour ∨ (occupied ∧ ¬isSleepingHours hour) then
      let factor : ℚ := if eco then 75 / 100 else 9 / 10
      (.on, uniform r.position (base * factor) base)
    else if zone = .outdoorAndSecurity ∧ (18 ≤ hour ∨ hour ≤ 5) then (.on, base)
    else (.off, 0)
  else if d.deviceId = "GR_EV_Charger" then
    if eco ∧ ¬isSleepingHours hour then (.off, 0)
    else if isSleepingHours hour ∧ r.run.val < 4 / 10 then
      (.on, uniform r.position (base * (8 / 10)) (base * 1))
    else (.off, 0)
  else if occupied ∧ (d.deviceType = some "Heavy_Appliance" ∨ d.deviceType = some "Appliance" ∨
      d.deviceType = some "Entertainment") then
    if eco then (.off, 0)
    else if r.run.val < 2 / 10 then
      (.on, uniform r.position (base * (7 / 10)) (base * (11 / 10)))
    else (.off, 0)
  else (.off, 0)

/-- `state` and `power` before the faults are injected: an override decides, and
anything but `ON` and `OFF` is automatic. -/
def decidePower (d : Device) (hour : ℕ) (eco : Bool) (r : Draws) : Status × ℚ :=
  if d.overrideStatus = some "OFF" then (.off, 0)
  else if d.overrideStatus = some "ON" then
    (.on, uniform r.position (baseWatts d * (9 / 10)) (baseWatts d * (11 / 10)))
  else decideAuto d hour eco r

/-- When a device on automatic runs. -/
def RunsAuto (d : Device) (hour : ℕ) (eco : Bool) (r : Draws) : Prop :=
  let zone := (zoneOf d.deviceId).1
  let awake := roomOccupied d hour r ∧ ¬isSleepingHours hour
  (d.critical = some true ∨ d.deviceType = some "Critical_Appliance") ∨
    (d.deviceType = some "AC" ∧ ((zone = .masterBedroom ∧ isSleepingHours hour) ∨
      (zone = .livingRoom ∧ isPeakHeatHours hour) ∨ awake)) ∨
    (d.deviceType = some "Lighting" ∧ ¬(eco ∧ zone = .outdoorAndSecurity) ∧
      (isEveningRush hour ∨ awake ∨ (zone = .outdoorAndSecurity ∧ (18 ≤ hour ∨ hour ≤ 5)))) ∨
    (d.deviceType ≠ some "AC" ∧ d.deviceType ≠ some "Lighting" ∧
      d.deviceId = "GR_EV_Charger" ∧ isSleepingHours hour ∧ r.run.val < 4 / 10) ∨
    (d.deviceId ≠ "GR_EV_Charger" ∧ roomOccupied d hour r ∧
      (d.deviceType = some "Heavy_Appliance" ∨ d.deviceType = some "Appliance" ∨
        d.deviceType = some "Entertainment") ∧ ¬eco ∧ r.run.val < 2 / 10)

/-- When a device runs: the user forced it on, or left it on automatic and it runs. -/
def Runs (d : Device) (hour : ℕ) (eco : Bool) (r : Draws) : Prop :=
  d.overrideStatus = some "ON" ∨ (d.overrideStatus ≠ some "OFF" ∧ RunsAuto d hour eco r)

theorem fst_ite_on {c : Prop} [Decidable c] {w : ℚ} {x : Status × ℚ} :
    (if c then (Status.on, w) else x).1 = .on ↔ c ∨ x.1 = .on := by
  by_cases hc : c <;> simp [hc]

theorem fst_ite_off {c : Prop} [Decidable c] {w : ℚ} {x : Status × ℚ} :
    (if c then (Status.off, w) else x).1 = .on ↔ ¬c ∧ x.1 = .on := by
  by_cases hc : c <;> simp [hc]

theorem decideAuto_on_iff (d : Device) (hour : ℕ) (eco : Bool) (r : Draws) :
    (decideAuto d hour eco r).1 = .on ↔ RunsAuto d hour eco r := by
  unfold decideAuto RunsAuto
  dsimp only
  rw [fst_ite_on]
  by_cases hac : d.deviceType = some "AC"
  · rw [if_pos hac, fst_ite_on, fst_ite_on, fst_ite_on]
    simp [hac]
  by_cases hli : d.deviceType = some "Lighting"
  · rw [if_neg hac, if_pos hli, fst_ite_off, fst_ite_on, fst_ite_on]
    simp [hli, or_assoc]
  by_cases hid : d.deviceId = "GR_EV_Charger"
  · rw [if_neg hac, if_neg hli, if_pos hid, fst_ite_off, fst_ite_on]
    simp [hac, hli, hid]
    tauto
  rw [if_neg hac, if_neg hli, if_neg hid]
  by_cases happliance : roomOccupied d hour r ∧ (d.deviceType = some "Heavy_Appliance" ∨
      d.deviceType = some "Appliance" ∨ d.deviceType = some "Entertainment")
  · rw [if_pos happliance, fst_ite_off, fst_ite_on]
    simp [hac, hli, hid, happliance]
  · rw [if_neg happliance]
    simp [hac, hli, hid]
    tauto

/-- **A device is switched on exactly when it runs.** -/
theorem decidePower_on_iff (d : Device) (hour : ℕ) (eco : Bool) (r : Draws) :
    (decidePower d hour eco r).1 = .on ↔ Runs d hour eco r := by
  rw [decidePower, Runs, ← decideAuto_on_iff]
  by_cases hoff : d.overrideStatus = some "OFF"
  · simp [hoff]
  by_cases hon : d.overrideStatus = some "ON" <;> simp [hoff, hon]

/-! ### Faults and the payload -/

/-- The data-quality layer: a device that is on may lose its signal or show one of
two faulty powers, and otherwise its power is rounded to two decimals. -/
def injectFault (r : Draws) : Status × ℚ → Status × Option ℚ
  | (.off, _) => (.off, some 0)
  | (state, power) =>
    if r.diceRoll.val < 1 / 100 then (.lostSignal, none)
    else if r.diceRoll.val < 15 / 1000 then
      (.sensorFault, some (if r.faultSign.val > 1 / 2 then -50 else 1500))
    else (state, some (roundTo halfEven 2 power))

/-- A payload, as it is sent to Kafka. -/
structure Payload where
  timestamp : String
  houseType : String
  currency : String
  zone : Zone
  deviceId : String
  deviceType : Option String
  isRoomOccupied : Bool
  powerConsumptionWatts : Option ℚ
  status : Status
  deriving DecidableEq

/-- The payload the loop body builds for one device. -/
def payload (now : String) (hour : ℕ) (eco : Bool) (d : Device) (r : Draws) : Payload where
  timestamp := now
  houseType := "Smart_Luxury_Villa"
  currency := "YER"
  zone := (zoneOf d.deviceId).1
  deviceId := d.deviceId
  deviceType := d.deviceType
  isRoomOccupied := roomOccupied d hour r
  powerConsumptionWatts := (injectFault r (decidePower d hour eco r)).2
  status := (injectFault r (decidePower d hour eco r)).1

/-- What the loop body sends for one device: its payload, and a copy of it when the
duplicate draw says so and there is something to copy. -/
def emit (now : String) (hour : ℕ) (eco : Bool) (d : Device) (r : Draws) : List Payload :=
  let p := payload now hour eco d r
  if r.duplicate.val < 5 / 1000 ∧ p.powerConsumptionWatts ≠ none ∧ p.status ≠ .off then [p, p]
  else [p]

/-- The reading a payload is parsed back into. -/
def Payload.toReading (p : Payload) : Reading String where
  timestamp := some p.timestamp
  houseType := some p.houseType
  currency := some p.currency
  zone := some p.zone.text
  deviceId := some p.deviceId
  deviceType := p.deviceType
  isRoomOccupied := some p.isRoomOccupied
  powerConsumptionWatts := p.powerConsumptionWatts
  status := some p.status.text

/-! ### Bounds on the decided power -/

section Bounds

variable {d : Device}

/-- A device whose recorded power is missing or positive. -/
def PositiveWatts (d : Device) : Prop := ∀ w, d.baseWatts = some w → 0 < w

theorem dbWatts_pos (h : PositiveWatts d) : 0 < dbWatts d := by
  unfold dbWatts
  split
  next w hw =>
    have := h w hw
    split <;> linarith
  next => norm_num

theorem baseWatts_nonneg (h : PositiveWatts d) : 0 ≤ baseWatts d := by
  have := (dbWatts_pos h).le
  unfold baseWatts
  split_ifs <;> exact le_min this (by norm_num)

/-- The largest base power any device is given. -/
theorem baseWatts_le (d : Device) : baseWatts d ≤ 2000 := by
  unfold baseWatts
  split_ifs <;> exact (min_le_right _ _).trans (by norm_num)

/-- Only the charger exceeds 1200 watts, and only under a type that has no cap of
its own. -/
theorem baseWatts_le_of_ne (d : Device)
    (h : d.deviceType = some "AC" ∨ d.deviceType = some "Lighting" ∨
      d.deviceId ≠ "GR_EV_Charger") : baseWatts d ≤ 1200 := by
  rw [baseWatts]
  by_cases hac : d.deviceType = some "AC"
  · rw [if_pos hac]
    exact min_le_right _ _
  by_cases hli : d.deviceType = some "Lighting"
  · rw [if_neg hac, if_pos hli]
    exact (min_le_right _ _).trans (by norm_num)
  have hid : d.deviceId ≠ "GR_EV_Charger" := (h.resolve_left hac).resolve_left hli
  rw [if_neg hac, if_neg hli, if_neg hid]
  split <;> exact (min_le_right _ _).trans (by norm_num)

theorem baseWatts_le_of_lighting (h : d.deviceType = some "Lighting") : baseWatts d ≤ 15 := by
  rw [baseWatts, if_neg (by simp [h]), if_pos h]
  exact min_le_right _ _

/-- What a decision can be: off, or on with a power drawn from an interval between
zero and eleven tenths of the base power. -/
def Decides (d : Device) (r : Draws) (x : Status × ℚ) : Prop :=
  x = (.off, 0) ∨
    ∃ a b, 0 ≤ a ∧ a ≤ b ∧ b ≤ baseWatts d * (11 / 10) ∧ x = (.on, uniform r.position a b)

theorem decides_off (d : Device) (r : Draws) : Decides d r (.off, 0) := Or.inl rfl

theorem decides_on {r : Draws} {a b : ℚ} (ha : 0 ≤ a) (hab : a ≤ b)
    (hb : b ≤ baseWatts d * (11 / 10)) : Decides d r (.on, uniform r.position a b) :=
  Or.inr ⟨a, b, ha, hab, hb, rfl⟩

/-- A decided power lies between zero and eleven tenths of the base power. -/
theorem Decides.power_mem {r : Draws} {x : Status × ℚ} (hx : Decides d r x)
    (hb : 0 ≤ baseWatts d) : 0 ≤ x.2 ∧ x.2 ≤ baseWatts d * (11 / 10) := by
  rcases hx with rfl | ⟨a, b, ha, hab, hle, rfl⟩
  · exact ⟨le_rfl, by linarith⟩
  · have hu := uniform_mem r.position hab
    exact ⟨ha.trans hu.1, hu.2.trans hle⟩

theorem decides_ite {c : Prop} [Decidable c] {r : Draws} {x y : Status × ℚ} (hx : Decides d r x)
    (hy : Decides d r y) : Decides d r (if c then x else y) :=
  iteInduction (fun _ => hx) fun _ => hy

theorem decides_decideAuto (h : PositiveWatts d) (hour : ℕ) (eco : Bool) (r : Draws) :
    Decides d r (decideAuto d hour eco r) := by
  have hb := baseWatts_nonneg h
  -- a factor of the base power up to eleven tenths, with and without eco mode
  have hf : ∀ x y : ℚ, 0 ≤ x → x ≤ y → y ≤ 11 / 10 →
      Decides d r (.on, uniform r.position (baseWatts d * x) (baseWatts d * y)) :=
    fun x y hx hxy hy =>
    decides_on (mul_nonneg hb hx) (mul_le_mul_of_nonneg_left hxy hb)
      (mul_le_mul_of_nonneg_left hy hb)
  -- an evening light goes up to its base power, and an outdoor light at night draws all of it
  have hto : ∀ x : ℚ, 0 ≤ x → x ≤ 1 → Decides d r (.on, uniform r.position (baseWatts d * x)
      (baseWatts d)) := fun x hx hx1 =>
    decides_on (mul_nonneg hb hx) (by nlinarith) (by linarith)
  have hfull : Decides d r (.on, baseWatts d) :=
    Or.inr ⟨baseWatts d, baseWatts d, hb, le_rfl, by linarith, by simp [uniform]⟩
  unfold decideAuto
  cases eco
  all_goals
    simp only [Bool.false_eq_true, if_true, if_false]
    repeat' refine decides_ite ?_ ?_
    all_goals first
      | exact decides_off d r
      | exact hfull
      | (refine hf _ _ ?_ ?_ ?_ <;> norm_num)
      | (refine hto _ ?_ ?_ <;> norm_num)

/-- **What the simulator decides before it injects faults**, whatever the override. -/
theorem decides_decidePower (h : PositiveWatts d) (hour : ℕ) (eco : Bool) (r : Draws) :
    Decides d r (decidePower d hour eco r) := by
  have hb := baseWatts_nonneg h
  rw [decidePower]
  split
  · exact decides_off d r
  split
  · exact decides_on (by linarith) (by linarith) le_rfl
  · exact decides_decideAuto h hour eco r

/-! ### What a payload can report -/

/-- The five things a payload can report, each with the decision and the draws that
lead to it. -/
inductive Reports (d : Device) (hour : ℕ) (eco : Bool) (r : Draws) : Status → Option ℚ → Prop
  /-- The device is off. -/
  | off : decidePower d hour eco r = (.off, 0) → Reports d hour eco r .off (some 0)
  /-- The device is on, and its signal is lost. -/
  | lost {w : ℚ} : decidePower d hour eco r = (.on, w) → r.diceRoll.val < 1 / 100 →
      Reports d hour eco r .lostSignal none
  /-- The device is on, and its sensor shows a negative power. -/
  | dip {w : ℚ} : decidePower d hour eco r = (.on, w) → 1 / 100 ≤ r.diceRoll.val →
      r.diceRoll.val < 15 / 1000 → 1 / 2 < r.faultSign.val →
      Reports d hour eco r .sensorFault (some (-50))
  /-- The device is on, and its sensor shows 1500 watts. -/
  | spike {w : ℚ} : decidePower d hour eco r = (.on, w) → 1 / 100 ≤ r.diceRoll.val →
      r.diceRoll.val < 15 / 1000 → r.faultSign.val ≤ 1 / 2 →
      Reports d hour eco r .sensorFault (some 1500)
  /-- The device is on, and its rounded power is shown. -/
  | on {w : ℚ} : decidePower d hour eco r = (.on, w) → 15 / 1000 ≤ r.diceRoll.val →
      Reports d hour eco r .on (some (roundTo halfEven 2 w))

/-- **Every payload reports one of the five.** -/
theorem reports_payload (h : PositiveWatts d) (now : String) (hour : ℕ) (eco : Bool) (r : Draws) :
    Reports d hour eco r (payload now hour eco d r).status
      (payload now hour eco d r).powerConsumptionWatts := by
  rcases decides_decidePower h hour eco r with hdec | ⟨a, b, -, -, -, hdec⟩
  · simpa [payload, hdec, injectFault] using Reports.off hdec
  · simp only [payload, hdec, injectFault]
    split
    next hlost => exact .lost hdec hlost
    next hlost =>
      split
      next hfault =>
        split
        next hsign => exact .dip hdec (not_lt.mp hlost) hfault hsign
        next hsign => exact .spike hdec (not_lt.mp hlost) hfault (not_lt.mp hsign)
      next hfault => exact .on hdec (not_lt.mp hfault)

end Bounds

/-! ### A device and its draws -/

/-- A draw in the middle. -/
def Draw.half : Draw := ⟨1 / 2, by norm_num, by norm_num⟩

/-- An outcome of the draws: everything is drawn at one half, but for the position in
the interval and the dice of the faults. -/
def drawsAt (position dice : Draw) : Draws where
  occupancy := .half
  run := .half
  position := position.toPosition
  diceRoll := dice
  faultSign := .half
  duplicate := .half

/-- A refrigerator that always runs. -/
def fridge : Device where
  deviceId := "KT_Fridge"
  deviceType := some "Critical_Appliance"
  overrideStatus := some "AUTO"
  baseWatts := some 150
  critical := some true

end SmartHomeEnergy
