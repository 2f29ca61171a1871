import SmartHomeEnergy.Simulator.Override
import SmartHomeEnergy.Transition.Attempt

/-!
# A refresh that fails half way

`get_all_devices_from_db_cached` returns a pair, the list of devices and the eco mode. When the
pair is a minute old, or has no device, it is read again: first the devices, which are put into
the pair at once, then the preferences. An exception is caught, with a message that what was
stored before will be used.

That is what happens when the devices have not been fetched, and it is not what happens when
they have been and the preferences fail: the pair has the new devices then and the old mode.
Along a run the pair is one that a single refresh has read, and a refresh that fails leaves it
alone, exactly when every refresh that fails in between has fetched the devices that were there
already (`SmartHomeEnergy.snapshots_iff`).

A call is a few steps of the house of `SmartHomeEnergy.Simulator.Override`, where the panel may
write between them (`SmartHomeEnergy.exists_run_getAllDevices`).
-/

namespace SmartHomeEnergy

open Transition

/-! ### One call -/

/-- `cached_data` and `last_cache_update`, with a mode that may be null. -/
structure CachedData where
  devices : List Device
  ecoMode : Option Bool
  lastCacheUpdate : ℚ

/-- Before the first call. -/
def CachedData.start : CachedData := ⟨[], some false, 0⟩

/-- What is returned. -/
def CachedData.pair (c : CachedData) : List Device × Option Bool := (c.devices, c.ecoMode)

/-- The calls of a refresh that may raise. -/
inductive RefreshPoint
  | connect
  | executeDevices
  | fetchDevices
  | executePreferences
  | fetchPreferences
  | close
  deriving DecidableEq

/-- A call: its clock, the rows that its two queries would see, and the point at which a refresh
raises. -/
structure CacheCall where
  currentTime : ℚ
  devices : List Device
  prefRow : Option (Option Bool)
  failsAt : Option RefreshPoint

/-- `pref_row["eco_mode_enabled"] if pref_row else False`. -/
def CacheCall.ecoMode (call : CacheCall) : Option Bool := call.prefRow.getD (some false)

/-- The pair that the two queries see. -/
def CacheCall.pair (call : CacheCall) : List Device × Option Bool := (call.devices, call.ecoMode)

/-- The refresh raises before the devices are fetched. -/
def CacheCall.FailsFirst (call : CacheCall) : Prop :=
  call.failsAt = some .connect ∨ call.failsAt = some .executeDevices ∨
    call.failsAt = some .fetchDevices

/-- The refresh raises between the devices and the preferences. -/
def CacheCall.FailsBetween (call : CacheCall) : Prop :=
  call.failsAt = some .executePreferences ∨ call.failsAt = some .fetchPreferences

instance (call : CacheCall) : Decidable call.FailsFirst := by
  unfold CacheCall.FailsFirst
  infer_instance

instance (call : CacheCall) : Decidable call.FailsBetween := by
  unfold CacheCall.FailsBetween
  infer_instance

/-- The pair is read again: it is a minute old, or it has no device. -/
def CachedData.Refreshes (c : CachedData) (call : CacheCall) : Prop :=
  60 < call.currentTime - c.lastCacheUpdate ∨ c.devices = []

instance (c : CachedData) (call : CacheCall) : Decidable (c.Refreshes call) := by
  unfold CachedData.Refreshes
  infer_instance

/-- The statements inside the `try`; the time of the update is set last. -/
def refresh (c : CachedData) (call : CacheCall) : Attempt CachedData :=
  if call.FailsFirst then .raise c
  else
    let c := { c with devices := call.devices }
    if call.FailsBetween then .raise c
    else
      let c := { c with ecoMode := call.ecoMode }
      if call.failsAt = some .close then .raise c
      else .done { c with lastCacheUpdate := call.currentTime }

/-- `get_all_devices_from_db_cached`, which returns the pair it leaves behind. -/
def getAllDevices (c : CachedData) (call : CacheCall) : CachedData :=
  if c.Refreshes call then (refresh c call).caught.state else c

/-! ### What a call does to the pair -/

section Call

variable {c : CachedData} {call : CacheCall}

/-- A refresh has fetched the devices and the mode. -/
def ReadInFull (c : CachedData) (call : CacheCall) : Prop :=
  c.Refreshes call ∧ ¬call.FailsFirst ∧ ¬call.FailsBetween

/-- A refresh fails before it has fetched both. -/
def FailsEarly (c : CachedData) (call : CacheCall) : Prop :=
  c.Refreshes call ∧ (call.FailsFirst ∨ call.FailsBetween)

/-- A refresh that fails in between has fetched the devices that were there already. -/
def KeepsDevices (c : CachedData) (call : CacheCall) : Prop :=
  c.Refreshes call → call.FailsBetween → call.devices = c.devices

theorem not_failsFirst_of_failsBetween (h : call.FailsBetween) : ¬call.FailsFirst := by
  rcases h with h | h <;> simp [CacheCall.FailsFirst, h]

/-- **What a call returns**: what it has read in full, the new devices with the old mode when it
fails in between, and otherwise what there was. -/
theorem pair_getAllDevices (c : CachedData) (call : CacheCall) :
    (ReadInFull c call ∧ (getAllDevices c call).pair = call.pair) ∨
      (c.Refreshes call ∧ call.FailsBetween ∧
        (getAllDevices c call).pair = (call.devices, c.ecoMode)) ∨
      (¬ReadInFull c call ∧ ¬(c.Refreshes call ∧ call.FailsBetween) ∧
        (getAllDevices c call).pair = c.pair) := by
  rw [getAllDevices]
  split
  next hrefresh =>
    rw [Attempt.caught_state, refresh]
    split
    next hfirst =>
      refine Or.inr (Or.inr ⟨fun hfull => hfull.2.1 hfirst, ?_, rfl⟩)
      exact fun hbetween => not_failsFirst_of_failsBetween hbetween.2 hfirst
    next hfirst =>
      simp only
      split
      next hbetween => exact Or.inr (Or.inl ⟨hrefresh, hbetween, rfl⟩)
      next hbetween =>
        refine Or.inl ⟨⟨hrefresh, hfirst, hbetween⟩, ?_⟩
        split <;> rfl
  next hrefresh =>
    exact Or.inr (Or.inr ⟨fun hfull => hrefresh hfull.1, fun hbetween => hrefresh hbetween.1, rfl⟩)

/-- A refresh that fails early leaves the pair alone exactly when it keeps the devices. -/
theorem pair_eq_iff_keepsDevices :
    (FailsEarly c call → (getAllDevices c call).pair = c.pair) ↔ KeepsDevices c call := by
  rcases pair_getAllDevices c call with ⟨hfull, -⟩ | ⟨hrefresh, hbetween, hpair⟩ |
    ⟨hfull, hbetween, hpair⟩
  · refine iff_of_true (fun hearly => ?_) fun _ hbetween => absurd hbetween hfull.2.2
    exact absurd hearly.2 (not_or.mpr hfull.2)
  · rw [hpair]
    constructor
    · intro h _ _
      exact congrArg Prod.fst (h ⟨hrefresh, Or.inr hbetween⟩)
    · intro h _
      rw [h hrefresh hbetween]
      rfl
  · exact iff_of_true (fun _ => hpair) fun hrefresh hb => absurd ⟨hrefresh, hb⟩ hbetween

end Call

/-! ### Runs -/

section Runs

variable {calls : List CacheCall}

/-- **A snapshot**: the pair before the first call, or one that a call of the run has read in
full. -/
def Snapshot (calls : List CacheCall) (pair : List Device × Option Bool) : Prop :=
  pair = CachedData.start.pair ∨
    ∃ before call after, calls = before ++ call :: after ∧
      ReadInFull (exec getAllDevices .start before) call ∧ pair = call.pair

/-- More calls have more snapshots. -/
theorem Snapshot.append {pair : List Device × Option Bool} (h : Snapshot calls pair)
    (more : List CacheCall) : Snapshot (calls ++ more) pair := by
  rcases h with h | ⟨before, call, after, rfl, hfull, hpair⟩
  · exact Or.inl h
  · exact Or.inr ⟨before, call, after ++ more, by simp, hfull, hpair⟩

/-- **One call** returns a snapshot, if there was one before and it keeps the devices. -/
theorem Snapshot.step {call : CacheCall}
    (h : Snapshot calls (exec getAllDevices .start calls).pair)
    (hkeeps : KeepsDevices (exec getAllDevices .start calls) call) :
    Snapshot (calls ++ [call]) (getAllDevices (exec getAllDevices .start calls) call).pair := by
  rcases pair_getAllDevices (exec getAllDevices .start calls) call with ⟨hfull, hpair⟩ |
    ⟨hrefresh, hbetween, hpair⟩ | ⟨-, -, hpair⟩
  · exact Or.inr ⟨calls, call, [], rfl, hfull, hpair⟩
  · rw [hpair, hkeeps hrefresh hbetween]
    exact h.append [call]
  · rw [hpair]
    exact h.append [call]

/-- **A run** whose refreshes keep the devices when they fail in between returns snapshots. -/
theorem snapshot_of_keepsDevices (h : StepsMeet getAllDevices KeepsDevices .start calls) :
    Snapshot calls (exec getAllDevices .start calls).pair := by
  induction calls using List.reverseRecOn with
  | nil => exact Or.inl rfl
  | append_singleton calls call ih =>
    obtain ⟨hcalls, hcall, -⟩ := stepsMeet_append.mp h
    rw [exec_append]
    exact (ih hcalls).step hcall

/-- **The pair is never half updated**, in a run: every call returns a snapshot, and a refresh
that fails early leaves the pair alone. -/
def NeverHalfUpdated (calls : List CacheCall) : Prop :=
  ∀ before call after, calls = before ++ call :: after →
    Snapshot (before ++ [call])
        (getAllDevices (exec getAllDevices .start before) call).pair ∧
      (FailsEarly (exec getAllDevices .start before) call →
        (getAllDevices (exec getAllDevices .start before) call).pair =
          (exec getAllDevices .start before).pair)

/-- **When the pair is never half updated**: exactly when every refresh of the run that fails
between the devices and the preferences has fetched the devices that were there already. -/
theorem snapshots_iff (calls : List CacheCall) :
    NeverHalfUpdated calls ↔ StepsMeet getAllDevices KeepsDevices .start calls := by
  rw [stepsMeet_iff_forall]
  constructor
  · intro h before call after he
    exact pair_eq_iff_keepsDevices.mp (h before call after he).2
  · intro h before call after he
    have hkeeps := h before call after he
    refine ⟨?_, pair_eq_iff_keepsDevices.mpr hkeeps⟩
    refine (snapshot_of_keepsDevices (stepsMeet_iff_forall.mpr ?_)).step hkeeps
    rintro before' call' after' rfl
    exact h before' call' (after' ++ call :: after) (by rw [he]; simp)

end Runs

/-! ### The call in the house -/

section House

/-- The cache of the house, where a mode that is null is none. -/
def CachedData.toCache (c : CachedData) : Cache :=
  ⟨c.devices, c.ecoMode.getD false, c.lastCacheUpdate⟩

/-- What the last step of a refresh leaves, when it has read the devices and the mode. -/
theorem toCache_refresh {c : CachedData} {call : CacheCall} (hfirst : ¬call.FailsFirst)
    (hbetween : ¬call.FailsBetween) :
    (refresh c call).state.toCache =
      Cache.withPreferences ⟨call.devices, c.toCache.ecoMode, c.toCache.lastUpdate⟩
        call.prefRow (call.failsAt = some .close) call.currentTime := by
  have hmode : call.ecoMode.getD false = (call.prefRow.bind id).getD false := by
    cases hrow : call.prefRow <;> simp [CacheCall.ecoMode, hrow]
  rw [refresh, if_neg hfirst]
  simp only
  rw [if_neg hbetween]
  split
  next hclose => simp [CachedData.toCache, Cache.withPreferences, hclose, hmode]
  next hclose => simp [CachedData.toCache, Cache.withPreferences, hclose, hmode]

/-- **A call is a few steps of the house**, when nobody writes between them. -/
theorem exists_run_getAllDevices {s : House} {c : CachedData} {call : CacheCall} (now : Now)
    (hidle : s.phase = .idle) (hcache : s.cache = c.toCache)
    (hdevices : call.devices.Perm (s.table.rows.map DeviceRow.toDevice)) :
    ∃ events, Run Step s events
      { s with
        cache := (getAllDevices c call).toCache
        phase := (getAllDevices c call).toCache.loop now } := by
  obtain ⟨table, cache, phase⟩ := s
  obtain rfl : cache = c.toCache := hcache
  obtain rfl : phase = .idle := hidle
  have hstart : Run Step (House.mk table c.toCache .idle) [] ⟨table, c.toCache, .idle⟩ := .start
  rw [getAllDevices]
  split
  next hrefresh =>
    have hiterate : Step ⟨table, c.toCache, .idle⟩ (.iterate now call.currentTime)
        ⟨table, c.toCache, .refreshing now call.currentTime⟩ := .iterateStale rfl hrefresh
    have hread := hstart.snoc hiterate
    rw [Attempt.caught_state]
    by_cases hfirst : call.FailsFirst
    · rw [refresh, if_pos hfirst]
      exact ⟨_, hread.snoc (.refreshFails rfl)⟩
    · have hselected := hread.snoc (.selectDevices rfl hdevices)
      by_cases hbetween : call.FailsBetween
      · rw [refresh, if_neg hfirst]
        simp only
        rw [if_pos hbetween]
        exact ⟨_, hselected.snoc (.preferencesFail rfl)⟩
      · rw [toCache_refresh hfirst hbetween]
        exact ⟨_, hselected.snoc
          (.selectPreferences call.prefRow (call.failsAt = some .close) rfl)⟩
  next hrefresh =>
    have hiterate : Step ⟨table, c.toCache, .idle⟩ (.iterate now call.currentTime)
        ⟨table, c.toCache, c.toCache.loop now⟩ := .iterateFresh rfl hrefresh
    exact ⟨_, hstart.snoc hiterate⟩

end House

/-! ### A lamp, and a mode that is lost -/

/-- The lamp of the living room. -/
def livingLamp : Device := ⟨"LV_Lamp", some "Lighting", some "AUTO", some 15, some false⟩

/-- The first call finds the lamp, and fails to read the eco mode, which is on. -/
def lampCall : CacheCall := ⟨1000, [livingLamp], some (some true), some .executePreferences⟩

/-- **The pair is half updated** after that call: it has the lamp, and a mode that was never
read. -/
theorem not_neverHalfUpdated : ¬∀ calls : List CacheCall, NeverHalfUpdated calls := by
  intro h
  have hpair : FailsEarly .start lampCall →
      (getAllDevices .start lampCall).pair = CachedData.start.pair :=
    (h [lampCall] [] lampCall [] rfl).2
  exact absurd (hpair ⟨Or.inr rfl, Or.inr (Or.inl rfl)⟩) (by decide +kernel)

end SmartHomeEnergy
