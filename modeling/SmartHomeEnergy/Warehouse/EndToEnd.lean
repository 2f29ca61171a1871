import SmartHomeEnergy.Simulator.Coverage
import SmartHomeEnergy.Warehouse.Accounts

/-!
# From the panel to the bill

A device is registered in the panel; the simulator copies the table, now and then, and sends a
message for each device of its copy; three notebooks carry the messages to the warehouse, whose
rows have no device any more, only a zone and a type. Between the two ends there are a copy that
may be stale, messages that are sent twice, runs that are stopped and batches that are merged
again.

Nevertheless **every row of the warehouse can be traced back**
(`SmartHomeEnergy.billed_endToEnd`): each of the device-hours it accounts for is one of a device
that is registered, of the type of the row and in its zone, and its mean is that of powers the
simulator has sent for this device. For this the panel must not take back what the simulator has
copied: it never removes a device, and never changes its type.

The encoding of the messages is a parameter: what is parsed is what was sent.
-/

namespace SmartHomeEnergy

open Numeric Relational Streaming Transition

/-! ### The devices behind the messages -/

/-- **The messages are traced**: the devices that the simulator has copied are registered, and so
are those it has sent messages for, each in its zone. -/
structure Traced (es : List Event) (s : House) : Prop where
  cache : ∀ x ∈ s.cache.devices, Registers s.table x.deviceId x.deviceType
  pending : ∀ x ∈ s.phase.pending, Registers s.table x.deviceId x.deviceType
  sent : ∀ p ∈ sentIn es, Registers s.table p.deviceId p.deviceType ∧
    p.zone = (zoneOf p.deviceId).1

section Simulator

variable {t : DevicesStatus} {es : List Event} {s s' : House} {e : Event} {d : String}
  {deviceType : Option String}

/-- A step that sends nothing and copies nothing new. -/
theorem Traced.quiet (h : Traced es s) (hstep : Step s e s') (hsent : e.sent = [])
    (hcache : ∀ x ∈ s'.cache.devices, x ∈ s.cache.devices)
    (hpending : ∀ x ∈ s'.phase.pending, x ∈ s.cache.devices ∨ x ∈ s.phase.pending) :
    Traced (es ++ [e]) s' where
  cache x hx := (h.cache x (hcache x hx)).step hstep
  pending x hx := ((hpending x hx).elim (h.cache x) (h.pending x)).step hstep
  sent p hp := by
    rw [sentIn_snoc, hsent, List.append_nil] at hp
    exact ⟨(h.sent p hp).1.step hstep, (h.sent p hp).2⟩

/-- **A step keeps the messages traced.** -/
theorem Traced.step (h : Traced es s) (hstep : Step s e s') : Traced (es ++ [e]) s' := by
  have hstep' := hstep
  cases hstep with
  | control => exact h.quiet hstep' rfl (fun _ => id) fun _ => Or.inr
  | add => exact h.quiet hstep' rfl (fun _ => id) fun _ => Or.inr
  | iterateStale => exact h.quiet hstep' rfl (fun _ => id) fun _ hx => absurd hx List.not_mem_nil
  | iterateFresh => exact h.quiet hstep' rfl (fun _ => id) fun _ => Or.inl
  | refreshFails => exact h.quiet hstep' rfl (fun _ => id) fun _ => Or.inl
  | preferencesFail => exact h.quiet hstep' rfl (fun _ => id) fun _ => Or.inl
  | selectPreferences => exact h.quiet hstep' rfl (fun _ => id) fun _ => Or.inl
  | rest => exact h.quiet hstep' rfl (fun _ => id) fun _ hx => absurd hx List.not_mem_nil
  | selectDevices hphase hperm =>
    refine ⟨fun x hx => registers_of_mem (hperm.mem_iff.mp hx),
      fun x hx => absurd hx List.not_mem_nil, fun p hp => ?_⟩
    rw [sentIn_snoc] at hp
    exact h.sent p (by simpa [Event.sent] using hp)
  | @send now eco x pending r hphase =>
    have hpending := h.pending
    rw [hphase] at hpending
    refine ⟨h.cache, fun y hy => hpending y (List.mem_cons_of_mem _ hy), fun p hp => ?_⟩
    rw [sentIn_snoc] at hp
    rcases List.mem_append.mp hp with hp | hp
    · exact h.sent p hp
    · rw [((emit_eq now.stamp now.hour eco x r).2 p).mp hp]
      exact ⟨hpending x List.mem_cons_self, rfl⟩

theorem traced_run (h : Run Step (House.new t) es s) : Traced es s := by
  induction h with
  | start => exact ⟨by simp [House.new], by simp [House.new, Phase.pending], by simp [sentIn]⟩
  | snoc _ hl ih => exact ih.step hl

end Simulator

/-! ### The device-hours behind the bill -/

section Bill

variable {D : Type} {time : SparkTime D} {t : DevicesStatus} {es : List Event} {s : House}
  {silver : List (Reading String)} {h : HourRow D}

/-- The notebooks are given what was sent: any of it, any number of times. -/
def PublishedFrom (toJson : Payload → String) (es : List Event)
    (notebooks : List (MedallionEvent D)) : Prop :=
  ∀ messages, .produce messages ∈ notebooks → ∀ m ∈ messages, ∃ p ∈ sentIn es, toJson p = m

/-- **A device-hour is traced** to a registered device, and to powers that were sent for it. -/
def TracedHour (es : List Event) (t : DevicesStatus) (h : HourRow D) : Prop :=
  ∃ x ∈ t.rows, h.key.deviceId = some x.deviceId ∧ h.deviceType = x.deviceType ∧
    h.zone = some (zoneOf x.deviceId).1.text ∧
      ∃ payloads : List Payload, payloads ≠ [] ∧
        (∀ p ∈ payloads, p ∈ sentIn es ∧ p.deviceId = x.deviceId) ∧
          h.avgWatts = nullAvg (payloads.map (·.powerConsumptionWatts))

/-- Readings of messages that were sent are the readings of a list of them. -/
theorem exists_payloads {readings : List (Reading String)}
    (hsent : ∀ r ∈ readings, ∃ p ∈ sentIn es, p.toReading = r) :
    ∃ payloads : List Payload, (∀ p ∈ payloads, p ∈ sentIn es) ∧
      payloads.map Payload.toReading = readings := by
  induction readings with
  | nil => exact ⟨[], by simp, rfl⟩
  | cons r readings ih =>
    obtain ⟨p, hp, rfl⟩ := hsent r List.mem_cons_self
    obtain ⟨payloads, hpayloads, rfl⟩ := ih fun r hr => hsent r (List.mem_cons_of_mem _ hr)
    exact ⟨p :: payloads, List.forall_mem_cons.mpr ⟨hp, hpayloads⟩, rfl⟩

/-- **A measured device-hour is traced**, when the readings were sent. -/
theorem tracedHour_of_measured (htraced : Traced es s) (h' : Measured time silver h)
    (hsent : ∀ r ∈ silver, ∃ p ∈ sentIn es, p.toReading = r) : TracedHour es s.table h := by
  obtain ⟨readings, hne, hsub, hkey, hrow⟩ := h'
  obtain ⟨payloads, hpayloads, rfl⟩ := exists_payloads fun r hr => hsent r (hsub hr)
  have hdevice : ∀ p ∈ payloads, some p.deviceId = h.key.deviceId := fun p hp =>
    congrArg HourKey.deviceId (hkey _ (List.mem_map_of_mem hp))
  cases payloads with
  | nil => exact absurd rfl hne
  | cons p payloads =>
    obtain ⟨⟨x, hfind, htype⟩, hzone⟩ := htraced.sent p (hpayloads p List.mem_cons_self)
    obtain ⟨hx, hid⟩ := Table.mem_of_find hfind
    have hid' : x.deviceId = p.deviceId := Option.some.inj hid
    refine ⟨x, hx, ?_, ?_, ?_, p :: payloads, List.cons_ne_nil _ _, fun q hq => ?_, ?_⟩
    · rw [← hdevice p List.mem_cons_self, hid']
    · rw [hrow, htype]
      rfl
    · rw [hrow, hid', ← hzone]
      rfl
    · refine ⟨hpayloads q hq, ?_⟩
      rw [hid']
      exact Option.some.inj ((hdevice q hq).trans (hdevice p List.mem_cons_self).symm)
    · rw [hrow, hourRow, List.map_map]
      rfl

variable [DecidableEq D] {constraints : List (List Column)} {fromJson : String → Reading String}
  {toJson : Payload → String} {notebooks : List (MedallionEvent D)}

/-- The topic has the messages that were produced. -/
theorem mem_energyEvents {m : String}
    (h : m ∈ (exec (medallionStep constraints time fromJson) Medallion.start
      notebooks).energyEvents) : ∃ messages, .produce messages ∈ notebooks ∧ m ∈ messages := by
  induction notebooks using List.reverseRecOn with
  | nil => exact absurd h List.not_mem_nil
  | append_singleton notebooks e ih =>
    rw [exec_append, exec_cons, exec_nil] at h
    have hold : m ∈ (exec (medallionStep constraints time fromJson) Medallion.start
        notebooks).energyEvents →
          ∃ messages, .produce messages ∈ notebooks ++ [e] ∧ m ∈ messages := fun h => by
      obtain ⟨messages, hmem, hm⟩ := ih h
      exact ⟨messages, List.mem_append_left _ hmem, hm⟩
    cases e with
    | produce messages =>
      rcases List.mem_append.mp h with h | h
      · exact hold h
      · exact ⟨messages, by simp, h⟩
    | _ => exact hold h

/-- The silver readings were sent. -/
theorem sent_of_silver
    (hlayered : Layered fromJson (exec (medallionStep constraints time fromJson) Medallion.start
      notebooks))
    (hjson : ∀ p ∈ sentIn es, fromJson (toJson p) = p.toReading)
    (hpublished : PublishedFrom toJson es notebooks) :
    ∀ r ∈ (exec (medallionStep constraints time fromJson) Medallion.start
      notebooks).silver.sink.rows, ∃ p ∈ sentIn es, p.toReading = r := by
  intro r hr
  obtain ⟨message, hmessage, rfl⟩ := hlayered.exists_message hr
  obtain ⟨messages, hproduced, hmem⟩ := mem_energyEvents hmessage
  obtain ⟨p, hp, rfl⟩ := hpublished messages hproduced message hmem
  exact ⟨p, hp, (hjson p hp).symm⟩

/-- **From the panel to the bill**: in every run of the simulator beside the panel, and every run
of the notebooks over messages that it has sent, each row of the warehouse accounts for
device-hours of registered devices, of its type and in its zone, whose means are those of powers
that were sent for the device. -/
theorem billed_endToEnd {lo hi : ℚ} (constraints : List (List Column)) (time : SparkTime D)
    (fromJson : String → Reading String) (hrun : Run Step (House.new t) es s)
    (hjson : ∀ p ∈ sentIn es, fromJson (toJson p) = p.toReading)
    (hpublished : PublishedFrom toJson es notebooks) (h0 : 0 ≤ lo)
    (hprices : ∀ e ∈ notebooks, e.PricesWithin lo hi) :
    let m := exec (medallionStep constraints time fromJson) Medallion.start notebooks
    ∀ row ∈ m.daily.sink.analytics,
      ∃ hours, AccountsFor time m.silver.sink.rows lo hi hours row ∧
        ∀ p ∈ hours, TracedHour es s.table p.1 := by
  intro m row hrow
  have hlayered := layered_exec constraints time fromJson notebooks
  obtain ⟨hours, hours_spec⟩ := (billed_exec constraints time fromJson hprices).exists_accountsFor
    hlayered h0 hrow
  have hsent : ∀ r ∈ m.silver.sink.rows, ∃ p ∈ sentIn es, p.toReading = r :=
    sent_of_silver hlayered hjson hpublished
  exact ⟨hours, hours_spec, fun p hp =>
    tracedHour_of_measured (traced_run hrun) (hours_spec.measured p hp).1 hsent⟩

end Bill

/-- What the simulator sends for the refrigerator at noon. -/
def noonPayload : Payload := payload "2026-01-01 12:00:00" 12 false fridge twiceDraws

/-- The message of it. -/
def noonMessage : String :=
  "\x7b\"timestamp\": \"2026-01-01 12:00:00\", \"house_type\": \"Smart_Luxury_Villa\", " ++
    "\"currency\": \"YER\", \"zone\": \"Kitchen\", \"device_id\": \"KT_Fridge\", " ++
    "\"device_type\": \"Critical_Appliance\", \"is_room_occupied\": true, " ++
    "\"power_consumption_watts\": 80.0, \"status\": \"ON\"\x7d"

/-- The message comes twice, and both come to the warehouse in one batch. -/
def noonNotebooks : List (MedallionEvent String) :=
  .produce [noonMessage, noonMessage] ::
    ((Execution.completeRun none).map .bronze ++ ((Execution.completeRun none).map .silver ++
      (Execution.completeRun ([⟨some 12, some 20⟩], .raises none none)).map .daily))

theorem billed_endToEnd_fridge :
    let m := exec (medallionStep [analyticsTarget] isoTime fun _ => noonPayload.toReading)
      Medallion.start noonNotebooks
    m.daily.sink.analytics.map (·.estimatedCostYer) = [some (8 / 5)] ∧
      ∀ row ∈ m.daily.sink.analytics,
        ∃ hours, AccountsFor isoTime m.silver.sink.rows 20 20 hours row ∧
          ∀ p ∈ hours, TracedHour oneIteration kitchen.table p.1 := by
  have hsent : ∀ p, p ∈ sentIn oneIteration ↔ p = noonPayload := mem_sentIn_oneIteration
  have hpublished : PublishedFrom (fun _ => noonMessage) oneIteration noonNotebooks := by
    intro messages hproduced m hm
    obtain rfl : messages = [noonMessage, noonMessage] := by
      simpa [noonNotebooks] using hproduced
    exact ⟨noonPayload, (hsent noonPayload).mpr rfl, by simpa [eq_comm] using hm⟩
  have hjson : ∀ p ∈ sentIn oneIteration, noonPayload.toReading = p.toReading := fun p hp => by
    rw [(hsent p).mp hp]
  have hprices : ∀ e ∈ noonNotebooks, e.PricesWithin 20 20 := by
    simp [noonNotebooks, Execution.completeRun, MedallionEvent.PricesWithin, PricesWithin]
  have htraced := billed_endToEnd [analyticsTarget] isoTime (fun _ => noonPayload.toReading)
    run_oneIteration hjson hpublished (by norm_num) hprices
  exact ⟨by decide +kernel, htraced⟩

end SmartHomeEnergy
