import SmartHomeEnergy.Dashboard.LastForm
import SmartHomeEnergy.Simulator.Timeliness

/-!
# Eco mode, from the form to the payloads

The eco mode is saved with a form, by one program, and obeyed by another, which keeps a copy of
it. The copy is read with the devices and after them, so that a refresh may have read the new
devices and still fail on the mode; and a refresh that is late on its way when the form is saved
may read either mode.

`SmartHomeEnergy.HomeStep` has the form next to the panel and the simulator: what the query of
the preferences fetches is what is saved then. **Once an iteration that starts more than a minute
later has come to its loop without failing, the mode of the form is in force**
(`SmartHomeEnergy.mode_within_minute`), and stays so whatever fails later, until another form is
saved. In eco mode the idle appliances, the lamps outside and, by day, the charger are off then
(`SmartHomeEnergy.EcoSwitchesOff`).
-/

namespace SmartHomeEnergy

open Relational Transition

/-! ### The form beside the simulator -/

/-- The house of the panel and the simulator, and the tables of the form. -/
structure Home where
  house : House
  preferences : PreferenceDatabase

/-- What happens next. -/
inductive HomeEvent
  | house (e : Event)
  /-- A request of the form, with the calls that fail. -/
  | form (r : FormRequest)

/-- `cursor.fetchone()` after the query of the preferences: the mode of one of the rows `id = 1`,
if there is one. -/
def FetchesMode (d : PreferenceDatabase) (row : Option (Option Bool)) : Prop :=
  ∃ rows : List PreferenceRow, rows.Perm d.userPreferences ∧
    row = (rows.find? fun row => row.id = 1).map (·.ecoModeEnabled)

/-- **One step of the house or the form.** -/
inductive HomeStep : Home → HomeEvent → Home → Prop
  | house {s : Home} {e : Event} {house : House} : Step s.house e house →
      (∀ row closeFails, e = .selectPreferences row closeFails → FetchesMode s.preferences row) →
      HomeStep s (.house e) { s with house := house }
  | form {s : Home} (r : FormRequest) :
      HomeStep s (.form r) { s with preferences := preferenceStep s.preferences r }

/-! ### A mode, and in force -/

section InForce

variable {form : PreferencesForm} {b : Bool} {s s' : Home} {e : HomeEvent} {e' : Event}
  {house house' : House}

/-- The modes that an iteration goes by. -/
def Phase.mode? : Phase → Option Bool
  | .sending _ eco _ => some eco
  | _ => none

/-- **Both copies of the mode show it**: the cached one, and that of the loop. -/
structure ModeInForce (b : Bool) (s : House) : Prop where
  cache : s.cache.ecoMode = b
  loop : ∀ eco ∈ s.phase.mode?, eco = b

/-- The form is the one that is saved, until another one is. -/
theorem holdsForm_step (h : HoldsForm form s.preferences) (hstep : HomeStep s e s')
    (he : ∀ r, e = .form r → ¬Saves r) : HoldsForm form s'.preferences := by
  cases hstep with
  | house => exact h
  | form r =>
    show HoldsForm form (preferenceStep s.preferences r)
    rwa [preferenceStep_of_not_saves (he r rfl)]

/-- What is fetched is the mode of the form. -/
theorem HoldsForm.fetchesMode {d : PreferenceDatabase} (h : HoldsForm form d)
    {row : Option (Option Bool)} (hrow : FetchesMode d row) :
    row = some (some form.ecoModeEnabled) := by
  obtain ⟨rows, hperm, rfl⟩ := hrow
  obtain ⟨row, hfind, -, heco⟩ := h.fetched hperm
  rw [hfind, Option.map_some, heco]

/-- **Reading the preferences puts the mode in force.** -/
theorem modeInForce_selectPreferences {row : Option (Option Bool)} {closeFails : Bool}
    (hrow : row = some (some b)) (hstep : Step house (.selectPreferences row closeFails) house') :
    ModeInForce b house' := by
  subst hrow
  cases hstep with
  | selectPreferences =>
    refine ⟨rfl, fun eco heco => ?_⟩
    exact (Option.some.inj heco).symm

/-- **No other step changes it.** -/
theorem ModeInForce.step (h : ModeInForce b house) (hstep : Step house e' house')
    (he : ∀ row closeFails, e' = .selectPreferences row closeFails → row = some (some b)) :
    ModeInForce b house' := by
  obtain ⟨hcache, hloop⟩ := h
  have hfresh : ∀ eco ∈ some house.cache.ecoMode, eco = b := fun eco heco =>
    (Option.some.inj heco).symm.trans hcache
  have hstep' := hstep
  cases hstep with
  | selectPreferences row closeFails =>
    exact modeInForce_selectPreferences (he row closeFails rfl) hstep'
  | control => exact ⟨hcache, hloop⟩
  | add => exact ⟨hcache, hloop⟩
  | iterateStale => exact ⟨hcache, fun eco heco => absurd heco (by simp [Phase.mode?])⟩
  | iterateFresh => exact ⟨hcache, hfresh⟩
  | refreshFails => exact ⟨hcache, hfresh⟩
  | selectDevices => exact ⟨hcache, fun eco heco => absurd heco (by simp [Phase.mode?])⟩
  | preferencesFail => exact ⟨hcache, hfresh⟩
  | send r hphase =>
    refine ⟨hcache, fun eco heco => hloop eco ?_⟩
    rw [hphase]
    exact heco
  | rest => exact ⟨hcache, fun eco heco => absurd heco (by simp [Phase.mode?])⟩

end InForce

/-! ### The clock of the copy -/

section Clock

variable {form : PreferencesForm} {t : ℚ} {s s' : Home} {e : HomeEvent}

/-- A step of the house and the form keeps the mode of the saved form in force. -/
theorem ModeInForce.homeStep (h : ModeInForce form.ecoModeEnabled s.house)
    (hsaved : HoldsForm form s.preferences) (hstep : HomeStep s e s') :
    ModeInForce form.ecoModeEnabled s'.house := by
  cases hstep with
  | house hhouse hfetched =>
    exact h.step hhouse fun row closeFails he => hsaved.fetchesMode (hfetched row closeFails he)
  | form r => exact h

/-- **Since a form**: it is saved, and in force unless the copy has stayed as old as it was. -/
def SinceForm (form : PreferencesForm) (t : ℚ) (s : Home) : Prop :=
  HoldsForm form s.preferences ∧
    (ModeInForce form.ecoModeEnabled s.house ∨ s.house.cache.lastUpdate ≤ t)

theorem SinceForm.step (h : SinceForm form t s) (hstep : HomeStep s e s')
    (he : ∀ r, e = .form r → ¬Saves r) : SinceForm form t s' := by
  obtain ⟨hsaved, hforce | hold⟩ := h
  · exact ⟨holdsForm_step hsaved hstep he, Or.inl (hforce.homeStep hsaved hstep)⟩
  refine ⟨holdsForm_step hsaved hstep he, ?_⟩
  cases hstep with
  | form r => exact Or.inr hold
  | house hhouse hfetched =>
    have hhouse' := hhouse
    cases hhouse with
    | selectPreferences row closeFails =>
      exact Or.inl (modeInForce_selectPreferences
        (hsaved.fetchesMode (hfetched row closeFails rfl)) hhouse')
    | _ => exact Or.inr hold

/-- The copy is about to be read again. -/
def Phase.Reads (phase : Phase) : Prop :=
  (∃ now time, phase = .refreshing now time) ∨ ∃ now time, phase = .selected now time

/-- **From a late iteration on**: the mode is in force, or about to be read. -/
def AwaitsMode (form : PreferencesForm) (s : Home) : Prop :=
  HoldsForm form s.preferences ∧ (ModeInForce form.ecoModeEnabled s.house ∨ s.house.phase.Reads)

/-- An iteration that starts more than a minute later reads the mode, if nobody has. -/
theorem SinceForm.iterate (h : SinceForm form t s) {now : Now} {time : ℚ}
    (hstep : HomeStep s (.house (.iterate now time)) s') (hlate : t + 60 < time) :
    AwaitsMode form s' := by
  obtain ⟨hsaved, hforce | hold⟩ := h
  · exact ⟨holdsForm_step hsaved hstep nofun, Or.inl (hforce.homeStep hsaved hstep)⟩
  · refine ⟨holdsForm_step hsaved hstep nofun, Or.inr (Or.inl ?_)⟩
    cases hstep with
    | house hhouse =>
      cases hhouse with
      | iterateStale => exact ⟨now, time, rfl⟩
      | iterateFresh _ hfresh =>
        refine absurd (Or.inl ?_) hfresh
        linarith

/-- An event with which the reading fails. -/
def FailsReading (e : HomeEvent) : Prop :=
  e = .house .refreshFails ∨ e = .house .preferencesFail

theorem AwaitsMode.step (h : AwaitsMode form s) (hstep : HomeStep s e s')
    (he : ∀ r, e = .form r → ¬Saves r) (hreads : ¬FailsReading e) : AwaitsMode form s' := by
  obtain ⟨hsaved, hforce | hphase⟩ := h
  · exact ⟨holdsForm_step hsaved hstep he, Or.inl (hforce.homeStep hsaved hstep)⟩
  refine ⟨holdsForm_step hsaved hstep he, ?_⟩
  cases hstep with
  | form r => exact Or.inr hphase
  | house hhouse hfetched =>
    have hhouse' := hhouse
    cases hhouse with
    | control => exact Or.inr hphase
    | add => exact Or.inr hphase
    | iterateStale => exact Or.inr (Or.inl ⟨_, _, rfl⟩)
    | selectDevices => exact Or.inr (Or.inr ⟨_, _, rfl⟩)
    | selectPreferences row closeFails =>
      exact Or.inl (modeInForce_selectPreferences
        (hsaved.fetchesMode (hfetched row closeFails rfl)) hhouse')
    | refreshFails => exact absurd (Or.inl rfl) hreads
    | preferencesFail => exact absurd (Or.inr rfl) hreads
    | iterateFresh hidle =>
      rcases hphase with ⟨_, _, hphase⟩ | ⟨_, _, hphase⟩ <;> rw [hidle] at hphase <;> cases hphase
    | send r hloop =>
      rcases hphase with ⟨_, _, hphase⟩ | ⟨_, _, hphase⟩ <;> rw [hloop] at hphase <;> cases hphase
    | rest hloop =>
      rcases hphase with ⟨_, _, hphase⟩ | ⟨_, _, hphase⟩ <;> rw [hloop] at hphase <;> cases hphase

end Clock

/-! ### What eco mode switches off -/

section Sends

variable {x : Device} {hour : ℕ} {b : Bool} {s s' : House} {sent : List Payload}

/-- **What eco mode switches off**: on automatic and not critical, the lamps outside, the charger
while somebody is awake, and the idle appliances. -/
def EcoSwitchesOff (x : Device) (hour : ℕ) : Prop :=
  x.overrideStatus ≠ some "ON" ∧ x.critical ≠ some true ∧
    x.deviceType ≠ some "Critical_Appliance" ∧
      ((x.deviceType = some "Lighting" ∧ (zoneOf x.deviceId).1 = .outdoorAndSecurity) ∨
        (x.deviceType ≠ some "AC" ∧ x.deviceType ≠ some "Lighting" ∧
          x.deviceId = "GR_EV_Charger" ∧ ¬isSleepingHours hour) ∨
        (x.deviceId ≠ "GR_EV_Charger" ∧ (x.deviceType = some "Heavy_Appliance" ∨
          x.deviceType = some "Appliance" ∨ x.deviceType = some "Entertainment")))

/-- **It is off**, whatever is drawn. -/
theorem decidePower_eco (h : EcoSwitchesOff x hour) (r : Draws) :
    decidePower x hour true r = (.off, 0) := by
  obtain ⟨hon, hcritical, htype, hcase⟩ := h
  have hauto : decideAuto x hour true r = (.off, 0) := by
    rw [decideAuto, if_neg (by simp [hcritical, htype])]
    rcases hcase with ⟨hlight, hzone⟩ | ⟨hac, hlight, hid, hawake⟩ | ⟨hid, hidle⟩
    · rw [if_neg (by simp [hlight]), if_pos hlight, if_pos ⟨rfl, hzone⟩]
    · rw [if_neg hac, if_neg hlight, if_pos hid, if_pos ⟨rfl, hawake⟩]
    · have hac : x.deviceType ≠ some "AC" := by rcases hidle with h | h | h <;> simp [h]
      have hlight : x.deviceType ≠ some "Lighting" := by rcases hidle with h | h | h <;> simp [h]
      rw [if_neg hac, if_neg hlight, if_neg hid]
      -- an idle appliance is off in an empty room, too
      split
      next => rw [if_pos rfl]
      next => rfl
  rw [decidePower, hauto, if_neg hon]
  split <;> rfl

/-- **What is sent goes by a mode**: it is what the loop computes for its next device in this mode,
so that in eco mode it is without power if eco mode switches the device off. -/
def SentBy (b : Bool) (s : House) (sent : List Payload) : Prop :=
  ∃ now x pending r, s.phase = .sending now b (x :: pending) ∧
    sent = emit now.stamp now.hour b x r ∧
      (b = true → EcoSwitchesOff x now.hour →
        ∀ p ∈ sent, p.status = .off ∧ p.powerConsumptionWatts = some 0)

theorem ModeInForce.send (h : ModeInForce b s) (hstep : Step s (.send sent) s') :
    SentBy b s sent := by
  cases hstep with
  | @send now eco x pending r hphase =>
    obtain rfl : eco = b := h.loop eco (by rw [hphase]; rfl)
    refine ⟨now, x, pending, r, hphase, rfl, ?_⟩
    rintro rfl hoff p hp
    rw [eq_payload_of_mem_emit hp]
    simp [payload, decidePower_eco hoff, injectFault]

end Sends

/-! ### Whole runs -/

/-- **A saved form is obeyed within a minute**: it is saved after iterations that started at `t`
at the latest. When an iteration that starts after `t + 60` has come to its loop and no reading has
failed since it started, everything that is sent from then on goes by the mode of the form, whatever
the panel and the simulator do and whatever readings and requests fail, until another form is
saved. -/
theorem mode_within_minute (r : FormRequest) (t time : ℚ) (now : Now)
    (s₀ s₁ s₂ s₃ s₄ s₅ s₆ s₇ : Home) (es₀ es₁ es₂ es₃ : List HomeEvent) (sent : List Payload)
    (hrow : ∃ row ∈ s₀.preferences.userPreferences, row.id = 1) (hidle : s₀.house.phase = .idle)
    (hold : s₀.house.cache.lastUpdate ≤ t) (hrun₀ : Run HomeStep s₀ es₀ s₁)
    (hes : ∀ now time, .house (.iterate now time) ∈ es₀ → time ≤ t) (hsaves : Saves r)
    (hform : HomeStep s₁ (.form r) s₂) (hrun₁ : Run HomeStep s₂ es₁ s₃)
    (hiterate : HomeStep s₃ (.house (.iterate now time)) s₄) (hlate : t + 60 < time)
    (hrun₂ : Run HomeStep s₄ es₂ s₅) (hreads : ∀ e ∈ es₂, ¬FailsReading e)
    (hloop : s₅.house.phase.mode? ≠ none) (hrun₃ : Run HomeStep s₅ es₃ s₆)
    (hsend : HomeStep s₆ (.house (.send sent)) s₇)
    (hsole : ∀ e ∈ es₁ ++ es₂ ++ es₃, ∀ r', e = .form r' → ¬Saves r') :
    SentBy r.1.ecoModeEnabled s₆.house sent := by
  -- before the form the copy is no newer than its time, and there is a row to save it in
  have hbefore : NoNewer t s₁.house ∧ ∃ row ∈ s₁.preferences.userPreferences, row.id = 1 := by
    refine Run.invariant_of_forall
      (fun s => NoNewer t s.house ∧ ∃ row ∈ s.preferences.userPreferences, row.id = 1)
      (p := fun e => ∀ now time, e = .house (.iterate now time) → time ≤ t)
      ⟨⟨hold, by rw [hidle]; exact nofun⟩, hrow⟩ ?_ hrun₀ ?_
    · rintro s e s' ⟨hnewer, hrow⟩ hstep he
      cases hstep with
      | house hhouse => exact ⟨hnewer.step hhouse fun now time h => he now time (h ▸ rfl), hrow⟩
      | form r' => exact ⟨hnewer, (exec_preferenceStep_frame hrow [r']).1⟩
    · rintro e hmem now time rfl
      exact hes now time hmem
  have hsince : SinceForm r.1 t s₂ := by
    obtain ⟨hnewer, hrow⟩ := hbefore
    cases hform with
    | form =>
      refine ⟨?_, Or.inr hnewer.cache⟩
      show HoldsForm r.1 (preferenceStep s₁.preferences r)
      rw [preferenceStep_of_saves hsaves]
      exact holdsForm_savedDatabase hrow
  have hlast : SinceForm r.1 t s₃ :=
    Run.invariant_of_forall (p := fun e => ∀ r', e = .form r' → ¬Saves r') (SinceForm r.1 t) hsince
      (fun _ _ _ h hs he => h.step hs he) hrun₁ fun e he =>
        hsole e (List.mem_append_left _ (List.mem_append_left _ he))
  have hawaits : AwaitsMode r.1 s₅ :=
    Run.invariant_of_forall
      (p := fun e => (∀ r', e = .form r' → ¬Saves r') ∧ ¬FailsReading e) (AwaitsMode r.1)
      (hlast.iterate hiterate hlate) (fun _ _ _ h hs he => h.step hs he.1 he.2) hrun₂ fun e he =>
        ⟨hsole e (List.mem_append_left _ (List.mem_append_right _ he)), hreads e he⟩
  -- in its loop the iteration has read the mode
  obtain ⟨hsaved, hforce | ⟨_, _, hphase⟩ | ⟨_, _, hphase⟩⟩ := hawaits
  · have hstays : HoldsForm r.1 s₆.preferences ∧ ModeInForce r.1.ecoModeEnabled s₆.house :=
      Run.invariant_of_forall
        (p := fun e => ∀ r', e = .form r' → ¬Saves r')
        (fun s => HoldsForm r.1 s.preferences ∧ ModeInForce r.1.ecoModeEnabled s.house)
        ⟨hsaved, hforce⟩
        (fun _ _ _ h hs he => ⟨holdsForm_step h.1 hs he, h.2.homeStep h.1 hs⟩) hrun₃ fun e he =>
          hsole e (List.mem_append_right _ he)
    cases hsend with
    | house hhouse => exact hstays.2.send hhouse
  · exact absurd (by rw [hphase]; rfl) hloop
  · exact absurd (by rw [hphase]; rfl) hloop

/-- An oven on automatic. -/
def oven : Device := ⟨"KT_Oven", some "Heavy_Appliance", some "AUTO", some 1500, some false⟩

/-- A form with the eco mode, whose cursor cannot be closed. -/
def ecoForm : FormRequest := (⟨80, true, [], []⟩, fun c => c = .closeCursor)

/-- The house with the oven, at a point of its loop. -/
def ovenAt (cache : Cache) (phase : Phase) : House := ⟨tableOf oven, cache, phase⟩

/-- The form is saved while the oven is in the loop, and an iteration of the minute after the next
sends the oven as off. -/
theorem mode_within_minute_oven :
    SentBy true (ovenAt ⟨[oven], true, 100⟩ (.sending ⟨"2026-01-01 12:02:00", 12⟩ true [oven]))
      (emit "2026-01-01 12:02:00" 12 true oven noonDraws) := by
  let noon : Now := ⟨"2026-01-01 12:00:00", 12⟩
  let later : Now := ⟨"2026-01-01 12:02:00", 12⟩
  have hsaves : Saves ecoForm := by
    refine ⟨by simp [ecoForm], ?_⟩
    rintro (h | h | ⟨k, entry, -, -, h⟩ | h) <;> simp [ecoForm] at h
  have hfetched : ∀ d : PreferenceDatabase, FetchesMode d
      ((d.userPreferences.find? fun row => row.id = 1).map (·.ecoModeEnabled)) := fun d =>
    ⟨_, List.Perm.refl _, rfl⟩
  have hread : Run HomeStep ⟨ovenAt ⟨[], false, 0⟩ .idle, savedBudget⟩
      [.house (.iterate noon 100), .house .selectDevices,
        .house (.selectPreferences (some (some false)) false)]
      ⟨ovenAt ⟨[oven], false, 100⟩ (.sending noon false [oven]), savedBudget⟩ :=
    ((Run.start.snoc (.house (.iterateStale rfl (Or.inr rfl)) nofun)).snoc
      (.house (.selectDevices rfl (List.Perm.refl _)) nofun)).snoc
        (.house (.selectPreferences (some (some false)) false rfl) (by
          rintro row closeFails ⟨⟩
          exact hfetched savedBudget))
  have hsaved : HomeStep ⟨ovenAt ⟨[oven], false, 100⟩ (.sending noon false [oven]), savedBudget⟩
      (.form ecoForm) ⟨ovenAt ⟨[oven], false, 100⟩ (.sending noon false [oven]),
        savedDatabase ecoForm.1 savedBudget⟩ := by
    rw [← preferenceStep_of_saves hsaves]
    exact .form ecoForm
  have hsent : Run HomeStep
      ⟨ovenAt ⟨[oven], false, 100⟩ (.sending noon false [oven]),
        savedDatabase ecoForm.1 savedBudget⟩
      [.house (.send (emit noon.stamp noon.hour false oven noonDraws)), .house .rest]
      ⟨ovenAt ⟨[oven], false, 100⟩ .idle, savedDatabase ecoForm.1 savedBudget⟩ :=
    (Run.start.snoc (.house (.send noonDraws rfl) nofun)).snoc (.house (.rest rfl) nofun)
  have hstale : HomeStep
      ⟨ovenAt ⟨[oven], false, 100⟩ .idle, savedDatabase ecoForm.1 savedBudget⟩
      (.house (.iterate later 200))
      ⟨ovenAt ⟨[oven], false, 100⟩ (.refreshing later 200), savedDatabase ecoForm.1 savedBudget⟩ :=
    .house (.iterateStale rfl (Or.inl (by norm_num [ovenAt]))) nofun
  have hagain : Run HomeStep
      ⟨ovenAt ⟨[oven], false, 100⟩ (.refreshing later 200), savedDatabase ecoForm.1 savedBudget⟩
      [.house .selectDevices, .house (.selectPreferences (some (some true)) true)]
      ⟨ovenAt ⟨[oven], true, 100⟩ (.sending later true [oven]),
        savedDatabase ecoForm.1 savedBudget⟩ :=
    (Run.start.snoc (.house (.selectDevices rfl (List.Perm.refl _)) nofun)).snoc
      (.house (.selectPreferences (some (some true)) true rfl) (by
        rintro row closeFails ⟨⟩
        exact hfetched (savedDatabase ecoForm.1 savedBudget)))
  have hsend : HomeStep
      ⟨ovenAt ⟨[oven], true, 100⟩ (.sending later true [oven]), savedDatabase ecoForm.1 savedBudget⟩
      (.house (.send (emit later.stamp later.hour true oven noonDraws)))
      ⟨ovenAt ⟨[oven], true, 100⟩ (.sending later true []),
        savedDatabase ecoForm.1 savedBudget⟩ := .house (.send noonDraws rfl) nofun
  exact mode_within_minute ecoForm 100 200 later _ _ _ _ _ _ _ _ _ _ _ [] _
    (by simp [savedBudget]) rfl (by norm_num [ovenAt]) hread (by simp) hsaves hsaved hsent hstale
    (by norm_num) hagain (by simp [FailsReading]) (by simp [ovenAt, Phase.mode?]) .start hsend
    (by simp)

end SmartHomeEnergy
