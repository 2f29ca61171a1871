import Mathlib.Data.List.Perm.Basic
import SmartHomeEnergy.Dashboard.Devices
import SmartHomeEnergy.Transition.Run

/-!
# An override, from the panel to the payloads

The simulator does not read the table of devices for every payload. It keeps a copy
and reads the table again when the copy is a minute old, in a sequence of queries that
may raise at any point; and while it works through the copy the panel may write the
table. `SmartHomeEnergy.Step` has the two programs side by side, one query or one device
at a time, in any order.

Once an action is committed for a device and the devices are read after that, every copy
that is left shows it – the row, the cached list, and what remains of the list in
the loop – and no step but another action from the panel changes that
(`SmartHomeEnergy.InForce`). So after an `OFF` nothing the simulator sends for the device
shows power, until an `ON` or `AUTO` (`SmartHomeEnergy.off_in_force`).
-/

namespace SmartHomeEnergy

open Relational Transition

/-! ### The simulator beside the panel -/

/-- `cached_data` and `last_cache_update`. -/
structure Cache where
  devices : List Device
  ecoMode : Bool
  lastUpdate : ℚ

/-- The time an iteration of the simulator starts at: the timestamp it writes, and its
hour. -/
structure Now where
  stamp : String
  hour : ℕ

/-- Where the simulator is in its loop. -/
inductive Phase
  /-- Between two iterations. -/
  | idle
  /-- About to read the devices. -/
  | refreshing (now : Now) (currentTime : ℚ)
  /-- The devices are read, the preferences are not. -/
  | selected (now : Now) (currentTime : ℚ)
  /-- In the loop, with the devices that are left. -/
  | sending (now : Now) (eco : Bool) (pending : List Device)

/-- The panel's table and the simulator. -/
structure House where
  table : DevicesStatus
  cache : Cache
  phase : Phase

/-- What happens in the house. -/
inductive Event
  /-- `control_device` commits. -/
  | control (deviceId action : String)
  /-- `add_new_device` commits. -/
  | add (row : DeviceRow)
  /-- An iteration starts and looks at the age of the cache. -/
  | iterate (now : Now) (currentTime : ℚ)
  /-- Connecting or selecting the devices raises. -/
  | refreshFails
  /-- The devices are selected. -/
  | selectDevices
  /-- Selecting the preferences raises. -/
  | preferencesFail
  /-- The preferences are selected; closing the connection may still raise. -/
  | selectPreferences (row : Option (Option Bool)) (closeFails : Bool)
  /-- The payloads of one device are sent. -/
  | send (sent : List Payload)
  /-- The iteration ends. -/
  | rest

/-- Whether the cache is read again: it is a minute old, or empty. -/
def Cache.Stale (c : Cache) (currentTime : ℚ) : Prop :=
  60 < currentTime - c.lastUpdate ∨ c.devices = []

/-- The loop over the devices starts, with the cache as it stands. -/
def Cache.loop (c : Cache) (now : Now) : Phase := .sending now c.ecoMode c.devices

/-- The cache after the preferences are read: a missing row or a null is no eco mode,
and the time of the update is set last. -/
def Cache.withPreferences (c : Cache) (row : Option (Option Bool)) (closeFails : Bool)
    (currentTime : ℚ) : Cache :=
  { c with
    ecoMode := (row.bind id).getD false
    lastUpdate := if closeFails then c.lastUpdate else currentTime }

/-- **One step of the house.** -/
inductive Step : House → Event → House → Prop
  | control {s : House} {deviceId action : String} {t : DevicesStatus} :
      controlDevice deviceId action s.table = some t →
      Step s (.control deviceId action) { s with table := t }
  | add {s : House} (row : DeviceRow) :
      Step s (.add row) { s with table := addNewDevice row s.table }
  | iterateStale {s : House} {now : Now} {time : ℚ} : s.phase = .idle → s.cache.Stale time →
      Step s (.iterate now time) { s with phase := .refreshing now time }
  | iterateFresh {s : House} {now : Now} {time : ℚ} : s.phase = .idle → ¬s.cache.Stale time →
      Step s (.iterate now time) { s with phase := s.cache.loop now }
  | refreshFails {s : House} {now : Now} {time : ℚ} : s.phase = .refreshing now time →
      Step s .refreshFails { s with phase := s.cache.loop now }
  | selectDevices {s : House} {now : Now} {time : ℚ} {devices : List Device} :
      s.phase = .refreshing now time →
      devices.Perm (s.table.rows.map DeviceRow.toDevice) →
      Step s .selectDevices
        { s with cache := { s.cache with devices := devices }, phase := .selected now time }
  | preferencesFail {s : House} {now : Now} {time : ℚ} : s.phase = .selected now time →
      Step s .preferencesFail { s with phase := s.cache.loop now }
  | selectPreferences {s : House} {now : Now} {time : ℚ} (row : Option (Option Bool))
      (closeFails : Bool) : s.phase = .selected now time →
      Step s (.selectPreferences row closeFails)
        { s with
          cache := s.cache.withPreferences row closeFails time
          phase := (s.cache.withPreferences row closeFails time).loop now }
  | send {s : House} {now : Now} {eco : Bool} {d : Device} {pending : List Device} (r : Draws) :
      s.phase = .sending now eco (d :: pending) →
      Step s (.send (emit now.stamp now.hour eco d r))
        { s with phase := .sending now eco pending }
  | rest {s : House} {now : Now} {eco : Bool} : s.phase = .sending now eco [] →
      Step s .rest { s with phase := .idle }

/-! ### An action, and in force -/

section InForce

variable {d a : String} {s s' : House} {e : Event}

/-- A control request that takes the override back. -/
def Releases (d : String) (e : Event) : Prop := e = .control d "ON" ∨ e = .control d "AUTO"

/-- A control request for the device with another action. -/
def Replaces (d a : String) (e : Event) : Prop := ∃ action, action ≠ a ∧ e = .control d action

/-- The row of the device shows the action. -/
def InTable (d a : String) (s : House) : Prop := overrideOf s.table d = some (some a)

/-- Every copy of the device in a list shows the action. -/
def ShownIn (d a : String) (devices : List Device) : Prop :=
  ∀ x ∈ devices, x.deviceId = d → x.overrideStatus = some a

/-- The devices that are left in the loop. -/
def Phase.pending : Phase → List Device
  | .sending _ _ pending => pending
  | _ => []

/-- **Every copy of the device shows the action**: its row, the cached list, and what is left of
the list in the loop. -/
structure InForce (d a : String) (s : House) : Prop where
  table : InTable d a s
  cache : ShownIn d a s.cache.devices
  pending : ShownIn d a s.phase.pending

theorem shownIn_nil : ShownIn d a [] := fun _ hx => absurd hx List.not_mem_nil

/-- A request that commits and is no release is an `OFF`. -/
theorem not_replaces_of_not_releases (hstep : Step s e s') (he : ¬Releases d e) :
    ¬Replaces d "OFF" e := by
  rintro ⟨action, hne, rfl⟩
  cases hstep with
  | control hcontrol =>
    have haction := (controlDevice_eq_some hcontrol).1
    simp only [List.mem_cons, List.not_mem_nil, or_false] at haction
    rcases haction with rfl | rfl | rfl
    · exact he (Or.inr rfl)
    · exact he (Or.inl rfl)
    · exact hne rfl

/-- A request that commits puts its action into the row of a device that exists. -/
theorem inTable_of_control (hexists : s.table.find d ≠ none) (hstep : Step s (.control d a) s') :
    InTable d a s' := by
  cases hstep with
  | control hcontrol =>
    obtain ⟨row, hrow⟩ := Option.ne_none_iff_exists'.mp hexists
    rw [InTable, (controlDevice_eq_some hcontrol).2, overrideOf, hrow]
    simp

/-- **No step but another action changes the row.** -/
theorem InTable.step (h : InTable d a s) (hstep : Step s e s') (he : ¬Replaces d a e) :
    InTable d a s' := by
  cases hstep with
  | @control deviceId action t hcontrol =>
    rw [InTable, (controlDevice_eq_some hcontrol).2, h, Option.map_some]
    split
    next hid =>
      -- a request for this device has the same action again
      subst hid
      have hsame : action = a := by
        by_contra hne
        exact he ⟨action, hne, rfl⟩
      rw [hsame]
    next => rfl
  | add row => exact (override_addNewDevice row (by rw [h]; simp)).trans h
  | _ => exact h

/-- **Reading the devices puts the action in force.** -/
theorem InTable.selectDevices (h : InTable d a s) (hstep : Step s .selectDevices s') :
    InForce d a s' := by
  cases hstep with
  | selectDevices hphase hperm =>
    refine ⟨h, fun x hx hid => ?_, shownIn_nil⟩
    obtain ⟨row, hrow, rfl⟩ := List.mem_map.mp (hperm.mem_iff.mp hx)
    have hfind : s.table.find d = some row := Table.find_of_mem hrow (congrArg some hid)
    rw [InTable, overrideOf, hfind] at h
    exact Option.some.inj h

/-- **No step but another action takes it back.** -/
theorem InForce.step (h : InForce d a s) (hstep : Step s e s') (he : ¬Replaces d a e) :
    InForce d a s' := by
  have htable := h.table.step hstep he
  cases hstep with
  | control => exact ⟨htable, h.cache, h.pending⟩
  | add => exact ⟨htable, h.cache, h.pending⟩
  | iterateStale => exact ⟨htable, h.cache, shownIn_nil⟩
  | iterateFresh => exact ⟨htable, h.cache, h.cache⟩
  | refreshFails => exact ⟨htable, h.cache, h.cache⟩
  | selectDevices hphase hperm => exact h.table.selectDevices (.selectDevices hphase hperm)
  | preferencesFail => exact ⟨htable, h.cache, h.cache⟩
  | selectPreferences => exact ⟨htable, h.cache, h.cache⟩
  | send r hphase =>
    refine ⟨htable, h.cache, fun x hx => h.pending x ?_⟩
    rw [hphase]
    exact List.mem_cons_of_mem _ hx
  | rest => exact ⟨htable, h.cache, shownIn_nil⟩

/-- **What is sent while an action is in force** is decided for a device that shows it, if it is
this device. -/
theorem InForce.emits {sent : List Payload} (h : InForce d a s) (hstep : Step s (.send sent) s') :
    ∃ (now : Now) (eco : Bool) (x : Device) (r : Draws), sent = emit now.stamp now.hour eco x r ∧
      (x.deviceId = d → x.overrideStatus = some a) := by
  cases hstep with
  | @send now eco x pending r hphase =>
    refine ⟨now, eco, x, r, rfl, h.pending x ?_⟩
    rw [hphase]
    exact List.mem_cons_self

end InForce

/-! ### What is sent after an `OFF` -/

section Off

variable {d : String} {s s' : House}

/-- A device whose override is `OFF` sends one payload, without power. -/
theorem emit_of_off {x : Device} (hx : x.overrideStatus = some "OFF") (now : String) (hour : ℕ)
    (eco : Bool) (r : Draws) :
    ∀ p ∈ emit now hour eco x r, p.status = .off ∧ p.powerConsumptionWatts = some 0 := by
  have hdec : decidePower x hour eco r = (.off, 0) := by rw [decidePower, if_pos hx]
  intro p hp
  have hpay : p = payload now hour eco x r := by
    simp only [emit] at hp
    split at hp <;> simpa using hp
  simp [hpay, payload, hdec, injectFault]

/-- Every payload of an emission is of its device. -/
theorem deviceId_of_mem_emit {x : Device} {now : String} {hour : ℕ} {eco : Bool} {r : Draws}
    {p : Payload} (hp : p ∈ emit now hour eco x r) : p.deviceId = x.deviceId := by
  simp only [emit] at hp
  split at hp <;> simp_all [payload]

/-- While an `OFF` is in force, what is sent is without power. -/
theorem InForce.send_off {sent : List Payload} (h : InForce d "OFF" s)
    (hstep : Step s (.send sent) s') :
    ∀ p ∈ sent, p.deviceId = d → p.status = .off ∧ p.powerConsumptionWatts = some 0 := by
  obtain ⟨now, eco, x, r, rfl, hx⟩ := h.emits hstep
  intro p hp hid
  exact emit_of_off (hx ((deviceId_of_mem_emit hp).symm.trans hid)) _ _ _ _ p hp

/-- **An `OFF` in the row stays there** until it is released. -/
theorem InTable.run_off {es : List Event} (h : InTable d "OFF" s) (hrun : Run Step s es s')
    (hes : ∀ e ∈ es, ¬Releases d e) : InTable d "OFF" s' :=
  Run.invariant_of_forall (p := fun e => ¬Releases d e) (InTable d "OFF") h
    (fun _ _ _ h hs he => h.step hs (not_replaces_of_not_releases hs he)) hrun hes

/-- **An `OFF` that is in force stays in force** until it is released. -/
theorem InForce.run_off {es : List Event} (h : InForce d "OFF" s) (hrun : Run Step s es s')
    (hes : ∀ e ∈ es, ¬Releases d e) : InForce d "OFF" s' :=
  Run.invariant_of_forall (p := fun e => ¬Releases d e) (InForce d "OFF") h
    (fun _ _ _ h hs he => h.step hs (not_replaces_of_not_releases hs he)) hrun hes

end Off

/-! ### Whole runs -/

/-- **An `OFF` stays in force**: after it is committed for a device that exists, and after
the devices are read once, every payload of the device is `OFF` and without power,
until a request with `ON` or `AUTO` for it commits. -/
theorem off_in_force (d : String) (s₀ s₁ s₂ s₃ s₄ s₅ : House) (es es' : List Event)
    (sent : List Payload) (hexists : s₀.table.find d ≠ none)
    (hoff : Step s₀ (.control d "OFF") s₁) (hrun : Run Step s₁ es s₂)
    (hselect : Step s₂ .selectDevices s₃) (hrun' : Run Step s₃ es' s₄)
    (hsend : Step s₄ (.send sent) s₅) (hes : ∀ e ∈ es ++ es', ¬Releases d e) :
    ∀ p ∈ sent, p.deviceId = d → p.status = .off ∧ p.powerConsumptionWatts = some 0 := by
  have htable : InTable d "OFF" s₂ := (inTable_of_control hexists hoff).run_off hrun
    fun e he => hes e (List.mem_append_left _ he)
  have hforce : InForce d "OFF" s₄ := (htable.selectDevices hselect).run_off hrun'
    fun e he => hes e (List.mem_append_right _ he)
  exact hforce.send_off hsend

/-- A house with a refrigerator, about to read its devices. -/
def kitchen : House where
  table := ⟨[{ fridge with deviceName := some "Refrigerator" }], by decide⟩
  cache := ⟨[], false, 0⟩
  phase := .refreshing ⟨"2026-01-01 12:00:00", 12⟩ 100

/-- The draws of an afternoon. -/
def noonDraws : Draws :=
  drawsAt .half .half

/-- The refrigerator always runs, but for an override: it is switched off, read, and read
no further, since the preferences fail. -/
theorem off_in_force_kitchen :
    let p := payload "2026-01-01 12:00:00" 12 false { fridge with overrideStatus := some "OFF" }
      noonDraws
    p.status = .off ∧ p.powerConsumptionWatts = some 0 :=
  off_in_force "KT_Fridge" kitchen _ _ _ _ _ [] [.preferencesFail] _ (by decide)
    (.control rfl) .start (.selectDevices rfl (List.Perm.refl _))
    (Run.single (.preferencesFail rfl))
    (@Step.send _ ⟨"2026-01-01 12:00:00", 12⟩ false { fridge with overrideStatus := some "OFF" } []
      noonDraws rfl) (by simp [Releases]) _ (by simp [emit]; split <;> simp) rfl

end SmartHomeEnergy
