import SmartHomeEnergy.Simulator.Device

/-!
# Eco mode

The eco flag is read in four places of the decision about state and power: it lowers the
factors of an air conditioner and of a lamp, and it switches off the lamps outside, the
charger while somebody is awake, and the idle appliances. So with the same draws a device
that runs in eco mode runs without it (`SmartHomeEnergy.runs_of_eco`), and in every branch
both ends of the interval its power is drawn from are at most as high
(`SmartHomeEnergy.decideAuto_eco_le`).
-/

namespace SmartHomeEnergy

/-- A draw from an interval that lies lower at both ends. -/
theorem uniform_mono (r : Position) {a b a' b' : ℚ} (ha : a ≤ a') (hb : b ≤ b') :
    uniform r a b ≤ uniform r a' b' := by
  have h0 := r.nonneg
  have h1 : 0 ≤ 1 - r.val := by linarith [r.le_one]
  have hlow : a * (1 - r.val) ≤ a' * (1 - r.val) := mul_le_mul_of_nonneg_right ha h1
  have hhigh : b * r.val ≤ b' * r.val := mul_le_mul_of_nonneg_right hb h0
  calc uniform r a b = a * (1 - r.val) + b * r.val := by rw [uniform]; ring
    _ ≤ a' * (1 - r.val) + b' * r.val := add_le_add hlow hhigh
    _ = uniform r a' b' := by rw [uniform]; ring

section Eco

variable {d : Device}

/-- **What runs in eco mode runs without it.** -/
theorem runs_of_eco {hour : ℕ} {r : Draws} : Runs d hour true r → Runs d hour false r := by
  rintro (hon | ⟨hoff, hauto⟩)
  · exact Or.inl hon
  refine Or.inr ⟨hoff, ?_⟩
  rcases hauto with hcritical | hac | ⟨hlight, -, hruns⟩ | hcharger | ⟨-, -, -, heco, -⟩
  · exact Or.inl hcritical
  · exact Or.inr (Or.inl hac)
  · exact Or.inr (Or.inr (Or.inl ⟨hlight, by simp, hruns⟩))
  · exact Or.inr (Or.inr (Or.inr (Or.inl hcharger)))
  · exact absurd rfl heco

theorem decidePower_off_iff (h : PositiveWatts d) (hour : ℕ) (eco : Bool) (r : Draws) :
    (decidePower d hour eco r).1 = .off ↔ ¬Runs d hour eco r := by
  rw [← decidePower_on_iff]
  rcases decides_decidePower h hour eco r with hdec | ⟨a, b, -, -, -, hdec⟩ <;> simp [hdec]

/-- **A device on automatic draws no more in eco mode.** -/
theorem decideAuto_eco_le (h : PositiveWatts d) (hour : ℕ) (r : Draws) :
    (decideAuto d hour true r).2 ≤ (decideAuto d hour false r).2 := by
  have hb := baseWatts_nonneg h
  -- lower factors of the base power at both ends
  have hfactors : ∀ x y x' y' : ℚ, x ≤ x' → y ≤ y' →
      uniform r.position (baseWatts d * x) (baseWatts d * y) ≤
        uniform r.position (baseWatts d * x') (baseWatts d * y') := fun x y x' y' hx hy =>
    uniform_mono _ (mul_le_mul_of_nonneg_left hx hb) (mul_le_mul_of_nonneg_left hy hb)
  -- what eco mode switches off draws at least nothing without it
  have hnonneg : 0 ≤ (decideAuto d hour false r).2 :=
    ((decides_decideAuto h hour false r).power_mem hb).1
  unfold decideAuto at hnonneg ⊢
  by_cases hcr : d.critical = some true ∨ d.deviceType = some "Critical_Appliance"
  · simp only [hcr, if_true, le_refl]
  simp only [hcr, if_false] at hnonneg ⊢
  by_cases hac : d.deviceType = some "AC"
  · simp only [hac, if_true, Bool.false_eq_true, if_false]
    split_ifs
    · exact hfactors _ _ _ _ (by norm_num) (by norm_num)
    · exact hfactors _ _ _ _ (by norm_num) (by norm_num)
    · exact hfactors _ _ _ _ (by norm_num) (by norm_num)
    · exact le_rfl
  simp only [hac, if_false] at hnonneg ⊢
  by_cases hli : d.deviceType = some "Lighting"
  · by_cases hout : (zoneOf d.deviceId).1 = .outdoorAndSecurity
    · simpa [hli, hout] using hnonneg
    · simp only [hli, hout, if_true, and_false, if_false, false_and, Bool.false_eq_true]
      split_ifs
      · exact uniform_mono _ (mul_le_mul_of_nonneg_left (by norm_num) hb) le_rfl
      · exact le_rfl
  simp only [hli, if_false] at hnonneg ⊢
  by_cases hid : d.deviceId = "GR_EV_Charger"
  · by_cases hsleep : isSleepingHours hour
    · simp [hid, hsleep]
    · simp [hid, hsleep]
  simp only [hid, if_false] at hnonneg ⊢
  by_cases hocc : roomOccupied d hour r ∧ (d.deviceType = some "Heavy_Appliance" ∨
      d.deviceType = some "Appliance" ∨ d.deviceType = some "Entertainment")
  · simpa only [hocc, and_self, if_true] using hnonneg
  · simp only [hocc, if_false, le_refl]

/-- **Eco mode never uses more energy**: with the same draws a device draws at most as much
in eco mode, and one that is off without eco mode is off in it. -/
theorem eco_never_more (d : Device) (hour : ℕ) (r : Draws) (h : PositiveWatts d) :
    (decidePower d hour true r).2 ≤ (decidePower d hour false r).2 ∧
      ((decidePower d hour false r).1 = .off → (decidePower d hour true r).1 = .off) := by
  constructor
  · rw [decidePower, decidePower]
    split_ifs
    · exact le_rfl
    · exact le_rfl
    · exact decideAuto_eco_le h hour r
  · rw [decidePower_off_iff h, decidePower_off_iff h]
    exact mt runs_of_eco

end Eco

/-- A lamp of the living room. -/
def lamp : Device where
  deviceId := "LV_Lamp"
  deviceType := some "Lighting"
  overrideStatus := some "AUTO"
  baseWatts := some 15
  critical := some false

/-- In the evening it burns in both modes, and draws less in eco mode. -/
theorem eco_never_more_lamp :
    (decidePower lamp 20 true (drawsAt .half .half)).2 = 105 / 8 ∧
      (decidePower lamp 20 true (drawsAt .half .half)).2 ≤
        (decidePower lamp 20 false (drawsAt .half .half)).2 := by
  have hwatts : PositiveWatts lamp := by simp [PositiveWatts, lamp]
  exact ⟨by decide +kernel, (eco_never_more lamp 20 (drawsAt .half .half) hwatts).1⟩

end SmartHomeEnergy
