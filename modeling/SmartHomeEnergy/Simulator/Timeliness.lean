import SmartHomeEnergy.Simulator.Override

/-!
# An override is obeyed within a minute

`SmartHomeEnergy.Simulator.Override` says that an `OFF` stays in force once the devices are read
after it. Here is when that happens. The simulator reads the devices when its copy is more than a
minute old, so an iteration that starts more than a minute after the clock of the last one before
the request either finds a copy that was read since, or reads the table itself, and waits for it
before it sends anything.

So whatever the panel and the simulator do in between, **an iteration that starts more than a
minute later and whose reading does not fail obeys the request**, be it `OFF`, `ON` or `AUTO`,
and so does everything after it until another request for the device
(`SmartHomeEnergy.override_within_minute`).
-/

namespace SmartHomeEnergy

open Relational Transition

/-- A control request for the device. -/
def ControlOf (d : String) (e : Event) : Prop := ∃ action, e = .control d action

theorem not_replaces_of_not_controlOf {d a : String} {e : Event} (he : ¬ControlOf d e) :
    ¬Replaces d a e := by
  rintro ⟨action, -, rfl⟩
  exact he ⟨action, rfl⟩

/-! ### What a payload owes an action -/

/-- **A payload obeys an action**: it was decided for a device that shows the action, so it is
without power after an `OFF`, and not switched off after an `ON`. -/
structure Obeys (a : String) (p : Payload) : Prop where
  decided : ∃ x stamp hour eco r, x.deviceId = p.deviceId ∧ x.overrideStatus = some a ∧
    p = payload stamp hour eco x r
  off : a = "OFF" → p.status = .off ∧ p.powerConsumptionWatts = some 0
  on : a = "ON" → p.status ≠ .off

/-- The payloads of a device are copies of one. -/
theorem eq_payload_of_mem_emit {x : Device} {stamp : String} {hour : ℕ} {eco : Bool} {r : Draws}
    {p : Payload} (hp : p ∈ emit stamp hour eco x r) : p = payload stamp hour eco x r := by
  simp only [emit] at hp
  split at hp <;> simpa using hp

/-- A device that is switched on is not shown as off. -/
theorem injectFault_on (r : Draws) (w : ℚ) : (injectFault r (.on, w)).1 ≠ .off := by
  unfold injectFault
  dsimp only
  split_ifs <;> simp only [ne_eq, reduceCtorEq, not_false_eq_true]

theorem obeys_of_mem_emit {a : String} {x : Device} (hx : x.overrideStatus = some a)
    {stamp : String} {hour : ℕ} {eco : Bool} {r : Draws} {p : Payload}
    (hp : p ∈ emit stamp hour eco x r) : Obeys a p where
  decided := ⟨x, stamp, hour, eco, r, (deviceId_of_mem_emit hp).symm, hx,
    eq_payload_of_mem_emit hp⟩
  off := by
    rintro rfl
    exact emit_of_off hx _ _ _ _ p hp
  on := by
    rintro rfl
    have hdec : decidePower x hour eco r =
        (.on, uniform r.position (baseWatts x * (9 / 10)) (baseWatts x * (11 / 10))) := by
      rw [decidePower, if_neg (by simp [hx]), if_pos hx]
    rw [eq_payload_of_mem_emit hp]
    simp only [payload, hdec]
    exact injectFault_on r _

/-- What is sent while an action is in force. -/
theorem InForce.send {d a : String} {s s' : House} {sent : List Payload} (h : InForce d a s)
    (hstep : Step s (.send sent) s') : ∀ p ∈ sent, p.deviceId = d → Obeys a p := by
  obtain ⟨now, eco, x, r, rfl, hx⟩ := h.emits hstep
  intro p hp hid
  exact obeys_of_mem_emit (hx ((deviceId_of_mem_emit hp).symm.trans hid)) hp

/-! ### The clock of the copy -/

section Clock

variable {d a : String} {t : ℚ} {s s' : House} {e : Event}

/-- The clock of a refresh that is under way. -/
def Phase.refreshTime : Phase → Option ℚ
  | .refreshing _ time => some time
  | .selected _ time => some time
  | _ => none

/-- **The copy is no newer than a point in time**: neither the copy nor a refresh under way. -/
structure NoNewer (t : ℚ) (s : House) : Prop where
  cache : s.cache.lastUpdate ≤ t
  refresh : ∀ time ∈ s.phase.refreshTime, time ≤ t

/-- An iteration that starts in time keeps the copy no newer. -/
theorem NoNewer.step (h : NoNewer t s) (hstep : Step s e s')
    (he : ∀ now time, e = .iterate now time → time ≤ t) : NoNewer t s' := by
  obtain ⟨hcache, hrefresh⟩ := h
  cases hstep with
  | control => exact ⟨hcache, hrefresh⟩
  | add => exact ⟨hcache, hrefresh⟩
  | iterateStale =>
    refine ⟨hcache, fun time htime => ?_⟩
    obtain rfl := Option.some.inj htime
    exact he _ _ rfl
  | iterateFresh => exact ⟨hcache, nofun⟩
  | refreshFails => exact ⟨hcache, nofun⟩
  | selectDevices hphase =>
    refine ⟨hcache, fun time htime => hrefresh time ?_⟩
    rw [hphase]
    exact htime
  | preferencesFail => exact ⟨hcache, nofun⟩
  | selectPreferences row closeFails hphase =>
    refine ⟨?_, nofun⟩
    cases closeFails with
    | true => exact hcache
    | false => exact hrefresh _ (by rw [hphase]; rfl)
  | send => exact ⟨hcache, nofun⟩
  | rest => exact ⟨hcache, nofun⟩

/-- A run whose iterations all start in time keeps the copy no newer. -/
theorem noNewer_run {es : List Event} (hidle : s.phase = .idle) (hold : s.cache.lastUpdate ≤ t)
    (hrun : Run Step s es s') (hes : ∀ now time, .iterate now time ∈ es → time ≤ t) :
    NoNewer t s' := by
  refine Run.invariant_of_forall (p := fun e => ∀ now time, e = .iterate now time → time ≤ t)
    (NoNewer t) ⟨hold, by rw [hidle]; exact nofun⟩ (fun _ _ _ h hs he => h.step hs he) hrun ?_
  rintro e hmem now time rfl
  exact hes now time hmem

/-- The copy is no newer, or not yet: a refresh that is under way has not selected the devices,
or it started in time. -/
structure NotRead (t : ℚ) (s : House) : Prop where
  cache : s.cache.lastUpdate ≤ t
  selected : ∀ now time, s.phase = .selected now time → time ≤ t

theorem NoNewer.notRead (h : NoNewer t s) : NotRead t s :=
  ⟨h.cache, fun now time hphase => h.refresh time (by rw [hphase]; rfl)⟩

/-- **Until the devices are read**, the copy stays as old as it is. -/
theorem NotRead.step (h : NotRead t s) (hstep : Step s e s') (he : e ≠ .selectDevices) :
    NotRead t s' := by
  obtain ⟨hcache, hselected⟩ := h
  cases hstep with
  | selectDevices => exact absurd rfl he
  | control => exact ⟨hcache, hselected⟩
  | add => exact ⟨hcache, hselected⟩
  | selectPreferences row closeFails hphase =>
    refine ⟨?_, nofun⟩
    cases closeFails with
    | true => exact hcache
    | false => exact hselected _ _ hphase
  | _ => exact ⟨hcache, nofun⟩

/-- **Since a request**: its action is in the row, and in force unless the devices have not been
read since. -/
def Since (d a : String) (t : ℚ) (s : House) : Prop :=
  InTable d a s ∧ (InForce d a s ∨ NotRead t s)

theorem Since.step (h : Since d a t s) (hstep : Step s e s') (he : ¬Replaces d a e) :
    Since d a t s' := by
  obtain ⟨htable, hforce | hread⟩ := h
  · exact ⟨htable.step hstep he, Or.inl (hforce.step hstep he)⟩
  · refine ⟨htable.step hstep he, ?_⟩
    by_cases hselect : e = .selectDevices
    · subst hselect
      exact Or.inl (htable.selectDevices hstep)
    · exact Or.inr (hread.step hstep hselect)

/-- **From such an iteration on**: the action is in force, or the devices are about to be read. -/
def Awaits (d a : String) (s : House) : Prop :=
  InTable d a s ∧ (InForce d a s ∨ ∃ now time, s.phase = .refreshing now time)

/-- An iteration that starts more than a minute later reads the devices, if nobody has. -/
theorem Since.iterate (h : Since d a t s) {now : Now} {time : ℚ}
    (hstep : Step s (.iterate now time) s') (hlate : t + 60 < time) : Awaits d a s' := by
  have hsame : ¬Replaces d a (.iterate now time) := by simp [Replaces]
  obtain ⟨htable, hforce | hread⟩ := h
  · exact ⟨htable.step hstep hsame, Or.inl (hforce.step hstep hsame)⟩
  · refine ⟨htable.step hstep hsame, Or.inr ?_⟩
    cases hstep with
    | iterateStale => exact ⟨now, time, rfl⟩
    | iterateFresh hidle hfresh =>
      refine absurd (Or.inl ?_) hfresh
      linarith [hread.cache]

theorem Awaits.step (h : Awaits d a s) (hstep : Step s e s') (he : ¬Replaces d a e)
    (hfails : e ≠ .refreshFails) : Awaits d a s' := by
  obtain ⟨htable, hforce | ⟨now, time, hphase⟩⟩ := h
  · exact ⟨htable.step hstep he, Or.inl (hforce.step hstep he)⟩
  · refine ⟨htable.step hstep he, ?_⟩
    cases hstep with
    | control => exact Or.inr ⟨now, time, hphase⟩
    | add => exact Or.inr ⟨now, time, hphase⟩
    | selectDevices hphase' hperm =>
      exact Or.inl (htable.selectDevices (.selectDevices hphase' hperm))
    | refreshFails => exact absurd rfl hfails
    | _ => simp_all

end Clock

/-! ### Whole runs -/

/-- **An override is obeyed within a minute**: a request for a device that exists commits after
iterations that started at `t` at the latest. When an iteration that starts after `t + 60` is past
its reading of the devices, and this has not failed, everything that is sent of the device from then
on obeys the request, whatever the panel and the simulator do and whatever readings fail, until
another request for the device. -/
theorem override_within_minute (d a : String) (t time : ℚ) (now : Now)
    (s₀ s₁ s₂ s₃ s₄ s₅ s₆ s₇ : House) (es₀ es₁ es₂ es₃ : List Event) (sent : List Payload)
    (hidle : s₀.phase = .idle) (hold : s₀.cache.lastUpdate ≤ t) (hrun₀ : Run Step s₀ es₀ s₁)
    (hes : ∀ now time, .iterate now time ∈ es₀ → time ≤ t) (hexists : s₁.table.find d ≠ none)
    (hcontrol : Step s₁ (.control d a) s₂) (hrun₁ : Run Step s₂ es₁ s₃)
    (hiterate : Step s₃ (.iterate now time) s₄) (hlate : t + 60 < time)
    (hrun₂ : Run Step s₄ es₂ s₅) (hreads : .refreshFails ∉ es₂)
    (hpast : ∀ now' time', s₅.phase ≠ .refreshing now' time') (hrun₃ : Run Step s₅ es₃ s₆)
    (hsend : Step s₆ (.send sent) s₇) (hsole : ∀ e ∈ es₁ ++ es₂ ++ es₃, ¬ControlOf d e) :
    ∀ p ∈ sent, p.deviceId = d → Obeys a p := by
  have hkept : ∀ e ∈ es₁ ++ es₂ ++ es₃, ¬Replaces d a e := fun e he =>
    not_replaces_of_not_controlOf (hsole e he)
  -- before the request the copy is no newer than its time
  have hnewer : NoNewer t s₁ := noNewer_run hidle hold hrun₀ hes
  -- after it the action is in the table, and in force once the devices are read
  have hsince : Since d a t s₂ := by
    refine ⟨inTable_of_control hexists hcontrol, Or.inr (NoNewer.notRead ?_)⟩
    exact hnewer.step hcontrol nofun
  have hlast : Since d a t s₃ :=
    Run.invariant_of_forall (p := fun e => ¬Replaces d a e) (Since d a t) hsince
      (fun _ _ _ h hs he => h.step hs he) hrun₁ fun e he =>
        hkept e (List.mem_append_left _ (List.mem_append_left _ he))
  have hawaits : Awaits d a s₅ :=
    Run.invariant_of_forall (p := fun e => ¬Replaces d a e ∧ e ≠ .refreshFails) (Awaits d a)
      (hlast.iterate hiterate hlate) (fun _ _ _ h hs he => h.step hs he.1 he.2) hrun₂ fun e he =>
        ⟨hkept e (List.mem_append_left _ (List.mem_append_right _ he)),
          fun heq => hreads (heq ▸ he)⟩
  obtain ⟨-, hforce | ⟨now', time', hphase⟩⟩ := hawaits
  · have hstays : InForce d a s₆ :=
      Run.invariant_of_forall (p := fun e => ¬Replaces d a e) (InForce d a) hforce
        (fun _ _ _ h hs he => h.step hs he) hrun₃ fun e he => hkept e (List.mem_append_right _ he)
    exact hstays.send hsend
  · exact absurd hphase (hpast now' time')

/-- The refrigerator, switched off. -/
def fridgeOff : Device := { fridge with overrideStatus := some "OFF" }

/-- A table with the refrigerator alone. -/
def tableOf (x : Device) : DevicesStatus :=
  ⟨[{ x with deviceName := some "Refrigerator" }], List.nodup_singleton _⟩

/-- The refrigerator is switched off while its copy is in the loop. An iteration of the minute
after the next reads the devices, and the one after that, whose reading fails, sends it as off. -/
theorem override_within_minute_fridge :
    Obeys "OFF" (payload "2026-01-01 12:03:10" 12 false fridgeOff noonDraws) := by
  let noon : Now := ⟨"2026-01-01 12:00:00", 12⟩
  let later : Now := ⟨"2026-01-01 12:02:00", 12⟩
  let last : Now := ⟨"2026-01-01 12:03:10", 12⟩
  have hread : Run Step ⟨tableOf fridge, ⟨[], false, 0⟩, .idle⟩
      [.iterate noon 100, .selectDevices, .selectPreferences none false]
      ⟨tableOf fridge, ⟨[fridge], false, 100⟩, .sending noon false [fridge]⟩ :=
    ((Run.start.snoc (.iterateStale rfl (Or.inr rfl))).snoc
      (.selectDevices rfl (List.Perm.refl _))).snoc (.selectPreferences none false rfl)
  have hcontrol : Step ⟨tableOf fridge, ⟨[fridge], false, 100⟩, .sending noon false [fridge]⟩
      (.control "KT_Fridge" "OFF")
      ⟨tableOf fridgeOff, ⟨[fridge], false, 100⟩, .sending noon false [fridge]⟩ := .control rfl
  have hsent : Run Step ⟨tableOf fridgeOff, ⟨[fridge], false, 100⟩, .sending noon false [fridge]⟩
      [.send (emit noon.stamp noon.hour false fridge noonDraws), .rest]
      ⟨tableOf fridgeOff, ⟨[fridge], false, 100⟩, .idle⟩ :=
    (Run.start.snoc (.send noonDraws rfl)).snoc (.rest rfl)
  have hstale : Step ⟨tableOf fridgeOff, ⟨[fridge], false, 100⟩, .idle⟩ (.iterate later 200)
      ⟨tableOf fridgeOff, ⟨[fridge], false, 100⟩, .refreshing later 200⟩ :=
    .iterateStale rfl (Or.inl (by norm_num))
  have hagain : Run Step ⟨tableOf fridgeOff, ⟨[fridge], false, 100⟩, .refreshing later 200⟩
      [.selectDevices, .preferencesFail]
      ⟨tableOf fridgeOff, ⟨[fridgeOff], false, 100⟩, .sending later false [fridgeOff]⟩ :=
    (Run.start.snoc (.selectDevices rfl (List.Perm.refl _))).snoc (.preferencesFail rfl)
  have hfails : Run Step ⟨tableOf fridgeOff, ⟨[fridgeOff], false, 100⟩, .sending later false
      [fridgeOff]⟩ [.send (emit later.stamp later.hour false fridgeOff noonDraws), .rest,
        .iterate last 270, .refreshFails]
      ⟨tableOf fridgeOff, ⟨[fridgeOff], false, 100⟩, .sending last false [fridgeOff]⟩ :=
    (((Run.start.snoc (.send noonDraws rfl)).snoc (.rest rfl)).snoc
      (.iterateStale rfl (Or.inl (by norm_num)))).snoc (.refreshFails rfl)
  have hsend : Step ⟨tableOf fridgeOff, ⟨[fridgeOff], false, 100⟩, .sending last false [fridgeOff]⟩
      (.send (emit last.stamp last.hour false fridgeOff noonDraws))
      ⟨tableOf fridgeOff, ⟨[fridgeOff], false, 100⟩, .sending last false []⟩ := .send noonDraws rfl
  refine override_within_minute "KT_Fridge" "OFF" 100 200 later _ _ _ _ _ _ _ _ _ _ _ _ _ rfl
    (by norm_num) hread (by simp) (by decide) hcontrol hsent hstale (by norm_num) hagain (by simp)
    (fun _ _ => nofun) hfails hsend (by simp [ControlOf]) _ ?_ rfl
  simp only [emit]
  split <;> simp [last]

end SmartHomeEnergy
