import SmartHomeEnergy.Relational.Table
import SmartHomeEnergy.Simulator.Device

/-!
# The devices panel

The two endpoints of the dashboard that write `devices_status`: `control_device` sets
the override of a device, and `add_new_device` inserts a device, or – when its id is
taken – updates its power and its criticality. The override of an existing device is
therefore set by the first one alone (`SmartHomeEnergy.override_addNewDevice`).
-/

namespace SmartHomeEnergy

open Relational

/-- A row of `devices_status`: a device, and the name the dashboard shows. -/
structure DeviceRow extends Device where
  deviceName : Option String
  deriving DecidableEq

/-- The unique column of `devices_status`. -/
def deviceKey (r : DeviceRow) : Option String := some r.deviceId

/-- `SET override_status`. -/
def DeviceRow.withOverride (action : String) (r : DeviceRow) : DeviceRow :=
  { r with overrideStatus := some action }

theorem deviceKey_withOverride (action : String) (r : DeviceRow) :
    deviceKey (r.withOverride action) = deviceKey r := rfl

/-- `devices_status`. -/
abbrev DevicesStatus := Table deviceKey

/-- `control_device`: an action that is none of the three is answered with the status
400, and nothing is stored. -/
def controlDevice (deviceId action : String) (t : DevicesStatus) : Option DevicesStatus :=
  if action ∈ ["AUTO", "ON", "OFF"] then
    some (t.updateWhere (fun r => r.deviceId = deviceId) (DeviceRow.withOverride action)
      (deviceKey_withOverride action))
  else none

/-- `DO UPDATE SET base_watts, critical`. -/
def deviceUpsert : ConflictUpdate deviceKey where
  merge old new := { old with baseWatts := new.baseWatts, critical := new.critical }
  key_merge _ _ := rfl

/-- `add_new_device`, when its transaction commits. -/
def addNewDevice (row : DeviceRow) (t : DevicesStatus) : DevicesStatus := t.upsert deviceUpsert row

/-- The override of a device in the table. -/
def overrideOf (t : DevicesStatus) (deviceId : String) : Option (Option String) :=
  (t.find deviceId).map fun r => r.overrideStatus

theorem controlDevice_eq_some {deviceId action : String} {t t' : DevicesStatus}
    (h : controlDevice deviceId action t = some t') : action ∈ ["AUTO", "ON", "OFF"] ∧
      ∀ d, overrideOf t' d =
        (overrideOf t d).map fun o => if d = deviceId then some action else o := by
  unfold controlDevice at h
  split at h
  next haction =>
    refine ⟨haction, fun d => ?_⟩
    rw [← Option.some.inj h, overrideOf, overrideOf, Table.find_updateWhere]
    cases hd : t.find d with
    | none => rfl
    | some r =>
      obtain rfl : r.deviceId = d := Option.some.inj (Table.mem_of_find hd).2
      by_cases hid : r.deviceId = deviceId <;> simp [hid, DeviceRow.withOverride]
  next => exact absurd h (by simp)

/-- **Adding a device leaves the override of an existing one alone.** -/
theorem override_addNewDevice (row : DeviceRow) {t : DevicesStatus} {d : String}
    (h : overrideOf t d ≠ none) : overrideOf (addNewDevice row t) d = overrideOf t d := by
  rw [overrideOf, addNewDevice, Table.find_upsert]
  rw [overrideOf] at h ⊢
  cases hd : t.find d with
  | none => simp [hd] at h
  | some old => split <;> simp [deviceUpsert]

end SmartHomeEnergy
