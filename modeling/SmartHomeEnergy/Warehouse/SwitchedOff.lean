import SmartHomeEnergy.Simulator.Timeliness
import SmartHomeEnergy.Warehouse.EndToEnd

/-!
# What is switched off is not billed

A device is switched off in the panel, and the simulator has read its devices since. Messages that
were sent for it before may still be on their way, come late or come twice, and any of the three
notebooks may read them long after.

They belong to the hours they were sent in. **In an hour for which nothing was sent of the device
before it was off**, every device-hour that any row of the warehouse accounts for is at zero watts
and costs nothing (`SmartHomeEnergy.off_not_billed`), whatever the price of the hour, whatever the
batches it comes in, and however often they are merged – until the panel switches the device on, or
leaves it to itself, again.
-/

namespace SmartHomeEnergy

open Numeric Relational Streaming Transition

/-! ### What is sent of a device that is off -/

section Sent

variable {d : String} {s s' : House} {es : List Event}

/-- **A whole run while the device is off**: nothing that is sent of it shows power. -/
theorem InForce.sentIn_off (h : InForce d "OFF" s) (hrun : Run Step s es s')
    (hes : ∀ e ∈ es, ¬Releases d e) :
    ∀ p ∈ sentIn es, p.deviceId = d → p.powerConsumptionWatts = some 0 := by
  induction hrun with
  | start => exact fun p hp => absurd hp List.not_mem_nil
  | @snoc es s₁ e s₂ hrun hl ih =>
    have hbefore : ∀ e ∈ es, ¬Releases d e := fun e he => hes e (List.mem_append_left _ he)
    have hforce : InForce d "OFF" s₁ := h.run_off hrun hbefore
    intro p hp hid
    rw [sentIn_snoc] at hp
    rcases List.mem_append.mp hp with hp | hp
    · exact ih hbefore p hp hid
    · cases e with
      | send sent => exact (hforce.send_off hl p hp hid).2
      | _ => exact absurd hp List.not_mem_nil

end Sent

/-! ### The device-hours after it -/

section Bill

variable {D : Type} {time : SparkTime D} {silver : List (Reading String)} {d : String}
  {es es' : List Event} {h : HourRow D}

/-- Nothing was sent for this device-hour. -/
def SilentIn (time : SparkTime D) (es : List Event) (h : HourKey D) : Prop :=
  ∀ p ∈ sentIn es, hourKey time p.toReading ≠ h

/-- A mean of nothing but zeros. -/
theorem nullAvg_zeros {xs : List (Option ℚ)} (hne : xs ≠ []) (h : ∀ x ∈ xs, x = some 0) :
    nullAvg xs = some 0 := by
  obtain ⟨w, hw, -, hzero⟩ := nullAvg_of_nonneg hne fun x hx => ⟨0, h x hx, le_rfl⟩
  rw [hw, hzero.mpr h]

/-- **A device-hour of a device that was off all the time** is at zero watts. -/
theorem avgWatts_of_off (hm : Measured time silver h) (hid : h.key.deviceId = some d)
    (hsent : ∀ r ∈ silver, ∃ p ∈ sentIn (es ++ es'), p.toReading = r)
    (hsilent : SilentIn time es h.key)
    (hoff : ∀ p ∈ sentIn es', p.deviceId = d → p.powerConsumptionWatts = some 0) :
    h.avgWatts = some 0 := by
  obtain ⟨readings, hne, hsub, hkey, hrow⟩ := hm
  have hzero : ∀ r ∈ readings, r.powerConsumptionWatts = some 0 := by
    intro r hr
    obtain ⟨p, hp, rfl⟩ := hsent r (hsub hr)
    have hp' : p ∈ sentIn es ∨ p ∈ sentIn es' := by
      rwa [sentIn, List.flatMap_append, List.mem_append] at hp
    rcases hp' with hbefore | hafter
    · exact absurd (hkey _ hr) (hsilent p hbefore)
    · refine hoff p hafter (Option.some.inj ?_)
      rw [← hid, ← hkey _ hr]
      rfl
  rw [hrow]
  exact nullAvg_zeros (by simpa using hne) (List.forall_mem_map.mpr hzero)

variable [DecidableEq D] {toJson : Payload → String} {notebooks : List (MedallionEvent D)}

/-- **What is switched off is not billed**: an `OFF` commits for a device that exists, and after it
the devices are read. In any run of the notebooks over messages that were sent after it, or by
whatever events before it, each row of the warehouse accounts for device-hours; those of the device
for which nothing had been sent before the devices were read have used nothing and cost nothing,
until an `ON` or `AUTO` for it commits. -/
theorem off_not_billed {lo hi : ℚ} (constraints : List (List Column)) (time : SparkTime D)
    (fromJson : String → Reading String) (s₀ s₁ s₂ s₃ s₄ : House) (es₀ es₁ es₂ : List Event)
    (hexists : s₀.table.find d ≠ none)
    (hcontrol : Step s₀ (.control d "OFF") s₁) (hrun₁ : Run Step s₁ es₁ s₂)
    (hselect : Step s₂ .selectDevices s₃) (hrun₂ : Run Step s₃ es₂ s₄)
    (hsole : ∀ e ∈ es₁ ++ es₂, ¬Releases d e)
    (hjson : ∀ p ∈ sentIn (es₀ ++ es₁ ++ es₂), fromJson (toJson p) = p.toReading)
    (hpublished : PublishedFrom toJson (es₀ ++ es₁ ++ es₂) notebooks) (h0 : 0 ≤ lo)
    (hprices : ∀ e ∈ notebooks, e.PricesWithin lo hi) :
    let m := exec (medallionStep constraints time fromJson) Medallion.start notebooks
    ∀ row ∈ m.daily.sink.analytics, ∃ hours, AccountsFor time m.silver.sink.rows lo hi hours row ∧
      ∀ p ∈ hours, p.1.key.deviceId = some d → SilentIn time (es₀ ++ es₁) p.1.key →
        realKwh p.1.avgWatts = some 0 ∧ ∀ c ∈ realCost p.1.avgWatts p.2, c = 0 := by
  intro m row hrow
  have hlayered := layered_exec constraints time fromJson notebooks
  obtain ⟨hours, haccounts⟩ := (billed_exec constraints time fromJson hprices).exists_accountsFor
    hlayered h0 hrow
  have htable : InTable d "OFF" s₂ := (inTable_of_control hexists hcontrol).run_off hrun₁
    fun e he => hsole e (List.mem_append_left _ he)
  have hoff := (htable.selectDevices hselect).sentIn_off hrun₂ fun e he =>
    hsole e (List.mem_append_right _ he)
  refine ⟨hours, haccounts, fun p hp hid hsilent => ?_⟩
  have hzero : p.1.avgWatts = some 0 := avgWatts_of_off (haccounts.measured p hp).1 hid
    (sent_of_silver hlayered hjson hpublished) hsilent hoff
  rw [hzero]
  refine ⟨by rw [realKwh_some, zero_div], fun c hc => ?_⟩
  obtain ⟨kwh, hkwh, hcost⟩ := Option.bind_eq_some_iff.mp (Option.mem_def.mp hc)
  obtain ⟨price, -, rfl⟩ := Option.map_eq_some_iff.mp hcost
  rw [realKwh_some, zero_div] at hkwh
  rw [← Option.some.inj hkwh, zero_mul]

end Bill

/-- What the simulator sends for a refrigerator that is off. -/
def offPayload : Payload := payload "2026-01-01 12:00:00" 12 false fridgeOff noonDraws

/-- The message of it. -/
def offMessage : String :=
  "\x7b\"timestamp\": \"2026-01-01 12:00:00\", \"house_type\": \"Smart_Luxury_Villa\", " ++
    "\"currency\": \"YER\", \"zone\": \"Kitchen\", \"device_id\": \"KT_Fridge\", " ++
    "\"device_type\": \"Critical_Appliance\", \"is_room_occupied\": true, " ++
    "\"power_consumption_watts\": 0.0, \"status\": \"OFF\"\x7d"

/-- The message comes to the warehouse. -/
def offNotebooks : List (MedallionEvent String) :=
  .produce [offMessage] ::
    ((Execution.completeRun none).map .bronze ++ ((Execution.completeRun none).map .silver ++
      (Execution.completeRun ([⟨some 12, some 20⟩], .raises none none)).map .daily))

/-- The refrigerator is switched off, and its hour is in the warehouse at no cost. -/
theorem off_not_billed_fridge :
    let m := exec (medallionStep [analyticsTarget] isoTime fun _ => offPayload.toReading)
      Medallion.start offNotebooks
    m.daily.sink.analytics.map (·.estimatedCostYer) = [some 0] ∧
      ∀ row ∈ m.daily.sink.analytics,
        ∃ hours, AccountsFor isoTime m.silver.sink.rows 20 20 hours row ∧
          ∀ p ∈ hours, p.1.key.deviceId = some "KT_Fridge" →
            SilentIn isoTime ([] ++ [.iterate ⟨"2026-01-01 12:00:00", 12⟩ 100]) p.1.key →
              realKwh p.1.avgWatts = some 0 ∧ ∀ c ∈ realCost p.1.avgWatts p.2, c = 0 := by
  let noon : Now := ⟨"2026-01-01 12:00:00", 12⟩
  have hcontrol : Step (House.new (tableOf fridge)) (.control "KT_Fridge" "OFF")
      (House.new (tableOf fridgeOff)) := .control rfl
  have hrun : Run Step (House.new (tableOf fridgeOff)) [.iterate noon 100]
      ⟨tableOf fridgeOff, ⟨[], false, 0⟩, .refreshing noon 100⟩ :=
    Run.single (.iterateStale rfl (Or.inr rfl))
  have hselect : Step ⟨tableOf fridgeOff, ⟨[], false, 0⟩, .refreshing noon 100⟩ .selectDevices
      ⟨tableOf fridgeOff, ⟨[fridgeOff], false, 0⟩, .selected noon 100⟩ :=
    .selectDevices rfl (List.Perm.refl _)
  have hrun' : Run Step ⟨tableOf fridgeOff, ⟨[fridgeOff], false, 0⟩, .selected noon 100⟩
      [.preferencesFail, .send (emit noon.stamp noon.hour false fridgeOff noonDraws)]
      ⟨tableOf fridgeOff, ⟨[fridgeOff], false, 0⟩, .sending noon false []⟩ :=
    (Run.single (.preferencesFail rfl)).snoc (.send noonDraws rfl)
  have hsent : ∀ p, p ∈ sentIn ([] ++ [.iterate noon 100] ++
      [.preferencesFail, .send (emit noon.stamp noon.hour false fridgeOff noonDraws)]) ↔
        p = offPayload := fun p => by
    simp [sentIn, Event.sent, (emit_eq noon.stamp noon.hour false fridgeOff noonDraws).2,
      offPayload, noon]
  have hjson : ∀ p ∈ sentIn ([] ++ [.iterate noon 100] ++
      [.preferencesFail, .send (emit noon.stamp noon.hour false fridgeOff noonDraws)]),
        offPayload.toReading = p.toReading := fun p hp => by
    rw [(hsent p).mp hp]
  have hpublished : PublishedFrom (fun _ => offMessage) ([] ++ [.iterate noon 100] ++
      [.preferencesFail, .send (emit noon.stamp noon.hour false fridgeOff noonDraws)])
        offNotebooks := by
    intro messages hproduced m hm
    obtain rfl : messages = [offMessage] := by simpa [offNotebooks] using hproduced
    exact ⟨offPayload, (hsent offPayload).mpr rfl, (List.mem_singleton.mp hm).symm⟩
  have hprices : ∀ e ∈ offNotebooks, e.PricesWithin 20 20 := by
    simp [offNotebooks, Execution.completeRun, MedallionEvent.PricesWithin, PricesWithin]
  have hbilled := off_not_billed [analyticsTarget] isoTime (fun _ => offPayload.toReading) _ _ _ _ _
    [] [.iterate noon 100] _ (by decide) hcontrol hrun hselect hrun' (by simp [Releases]) hjson
    hpublished (by norm_num) hprices
  exact ⟨by decide +kernel, hbilled⟩

end SmartHomeEnergy
