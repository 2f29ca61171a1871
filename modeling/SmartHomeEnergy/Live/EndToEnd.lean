import SmartHomeEnergy.Live.Exact
import SmartHomeEnergy.Simulator.Producer

/-!
# From the simulator to the live table

`SmartHomeEnergy.Live.Exact` is about a stream whose readings of the same time and device are the
same, and `SmartHomeEnergy.Simulator.Producer` says that the messages of the simulator are such
readings. Put together: whatever the panel does to the devices, and however often, in whatever
order and in whatever micro-batches the messages arrive, **a row of the live table is the sum and
the mean of the powers that the simulator computed**, one for each iteration and device, over
those that have arrived in time, are plausible and lie in the window
(`SmartHomeEnergy.live_endToEnd`).

The casts of the timestamps are a parameter: it tells the iterations apart.
-/

namespace SmartHomeEnergy

open Relational Streaming Transition

/-! ### The event of a message -/

/-- The event a message is read as, `toTimestamp` being the cast of its timestamp. -/
def Payload.toEvent (toTimestamp : String → Option ℤ) (p : Payload) : Reading ℤ :=
  p.toReading.castTimestamp toTimestamp

/-- The micro-batches have what was sent: any of it, any number of times. -/
def DeliveredFrom (toTimestamp : String → Option ℤ) (es : List Event)
    (batches : List MicroBatch) : Prop :=
  ∀ b ∈ batches, ∀ r ∈ b.rows, ∃ p ∈ sentIn es, p.toEvent toTimestamp = r

section EndToEnd

variable {toTimestamp : String → Option ℤ} {t : DevicesStatus} {es : List Event} {s : House}
  {batches : List MicroBatch}

/-- **The readings of a run** are told apart by the time and the device of their events. -/
theorem nodup_eventKey (h : Run Step (House.new t) es s)
    (hstamps : ((stampsIn es).map toTimestamp).Nodup) :
    ((computedIn es).map fun p => eventKey (p.toEvent toTimestamp)).Nodup := by
  have hproduces := produces_run h (List.Nodup.of_map toTimestamp hstamps)
  have hkey : ((computedIn es).map payloadKey).Nodup := hproduces.distinct
  refine (List.nodup_map_iff_inj_on (List.Nodup.of_map payloadKey hkey)).mpr ?_
  intro p hp q hq he
  obtain ⟨htime, hdevice⟩ := Prod.mk.inj he
  have hstamp : p.timestamp = q.timestamp :=
    List.inj_on_of_nodup_map hstamps (hproduces.stamps p hp) (hproduces.stamps q hq) htime
  exact List.inj_on_of_nodup_map hkey hp hq (Prod.ext hstamp (Option.some.inj hdevice))

/-- **The messages of the simulator are a feed.** -/
theorem feed_of_run (h : Run Step (House.new t) es s)
    (hstamps : ((stampsIn es).map toTimestamp).Nodup)
    (hordered : batches.Pairwise fun a b => a.currentTimestamp ≤ b.currentTimestamp)
    (hpast : ∀ b ∈ batches, ∀ r ∈ b.rows, ∀ time ∈ r.timestamp, time ≤ b.currentTimestamp)
    (hsent : DeliveredFrom toTimestamp es batches) : Feed batches := by
  refine ⟨hordered, hpast, fun a ha b hb _ he => ?_⟩
  have hcopies := (produces_run h (List.Nodup.of_map toTimestamp hstamps)).copies
  obtain ⟨ba, hba, har⟩ := List.mem_flatMap.mp ha
  obtain ⟨bb, hbb, hbr⟩ := List.mem_flatMap.mp hb
  obtain ⟨p, hp, rfl⟩ := hsent ba hba a har
  obtain ⟨q, hq, rfl⟩ := hsent bb hbb b hbr
  have hpq : p = q := List.inj_on_of_nodup_map (nodup_eventKey h hstamps)
    ((hcopies p).mp hp) ((hcopies q).mp hq) he
  rw [hpq]

/-- The readings that have arrived in some micro-batches and were accepted. -/
def arrivedIn (toTimestamp : String → Option ℤ) (es : List Event) (batches : List MicroBatch) :
    List Payload :=
  (computedIn es).filter fun p => p.toEvent toTimestamp ∈ batches.flatMap accepted

/-- The readings that have arrived in some micro-batches, were accepted, and lie in a window. -/
def countedIn (toTimestamp : String → Option ℤ) (es : List Event) (batches : List MicroBatch)
    (z d : String) (e : ℤ) : List Payload :=
  (computedIn es).filter fun p => p.toEvent toTimestamp ∈ batches.flatMap accepted ∧
    InWindow z d e (p.toEvent toTimestamp)

/-- **The events that were processed** are those of the readings that have arrived. -/
theorem perm_processed (h : Run Step (House.new t) es s)
    (hstamps : ((stampsIn es).map toTimestamp).Nodup)
    (hsent : DeliveredFrom toTimestamp es batches) : (processed batches).Perm
      ((arrivedIn toTimestamp es batches).map (Payload.toEvent toTimestamp)) := by
  have hcopies := (produces_run h (List.Nodup.of_map toTimestamp hstamps)).copies
  have hevents : ((arrivedIn toTimestamp es batches).map (Payload.toEvent toTimestamp)).Nodup := by
    have hall : ((computedIn es).map (Payload.toEvent toTimestamp)).Nodup :=
      List.Nodup.of_map eventKey (by simpa [Function.comp_def] using nodup_eventKey h hstamps)
    exact hall.sublist (List.filter_sublist.map _)
  refine (List.perm_ext_iff_of_nodup (List.nodup_dedup _) hevents).mpr fun r => ?_
  simp only [arrivedIn, List.mem_filter, List.mem_dedup, List.mem_map, decide_eq_true_eq]
  constructor
  · intro haccepted
    obtain ⟨b, hb, hr⟩ := List.mem_flatMap.mp haccepted
    obtain ⟨p, hp, rfl⟩ := hsent b hb r (accepted_spec hr).1
    exact ⟨p, ⟨(hcopies p).mp hp, haccepted⟩, rfl⟩
  · rintro ⟨p, ⟨-, haccepted⟩, rfl⟩
    exact haccepted

/-- The events of the readings that count in a window. -/
theorem map_countedIn (toTimestamp : String → Option ℤ) (es : List Event)
    (batches : List MicroBatch) (z d : String) (e : ℤ) :
    (countedIn toTimestamp es batches z d e).map (Payload.toEvent toTimestamp) =
      ((arrivedIn toTimestamp es batches).map (Payload.toEvent toTimestamp)).filter
        (InWindow z d e) := by
  rw [countedIn, arrivedIn, List.filter_map, List.filter_filter]
  refine congrArg _ (List.filter_congr fun p _ => ?_)
  simp [Bool.and_comm]

/-- The events of a window are those of the readings that count in it. -/
theorem windowEvents_perm (h : Run Step (House.new t) es s)
    (hstamps : ((stampsIn es).map toTimestamp).Nodup) (hsent : DeliveredFrom toTimestamp es batches)
    (z d : String) (e : ℤ) : (windowEvents batches z d e).Perm
      ((countedIn toTimestamp es batches z d e).map (Payload.toEvent toTimestamp)) := by
  rw [map_countedIn]
  exact (perm_processed h hstamps hsent).filter _

/-- The power of a reading. -/
def Payload.watts (p : Payload) : ℚ := p.powerConsumptionWatts.getD 0

/-- **From the simulator to the live table**: in every run of the simulator beside the panel whose
iterations write different timestamps, and for every way its messages are delivered – with
processing time that does not go back, and nothing from the future – each row of the table, at
any moment, is the sum and the mean over the readings that were computed, have arrived, were
accepted and lie in the window of the row, each counted once. -/
theorem live_endToEnd (hash : WindowedRow → Fin 4) (h : Run Step (House.new t) es s)
    (hstamps : ((stampsIn es).map toTimestamp).Nodup)
    (hordered : batches.Pairwise fun a b => a.currentTimestamp ≤ b.currentTimestamp)
    (hpast : ∀ b ∈ batches, ∀ r ∈ b.rows, ∀ time ∈ r.timestamp, time ≤ b.currentTimestamp)
    (hsent : DeliveredFrom toTimestamp es batches) :
    ∀ row ∈ (exec (onBatch hash) (LiveState.start .empty) batches).table.rows,
      ∃ z d e, row.zone = some z ∧ row.deviceType = some d ∧ row.windowEnd = some e ∧
        let counted := countedIn toTimestamp es batches z d e
        counted ≠ [] ∧ row.totalPowerWatts = some (counted.map Payload.watts).sum ∧
          row.avgPowerWatts = some ((counted.map Payload.watts).sum / counted.length) := by
  intro row hrow
  have hfeed := feed_of_run h hstamps hordered hpast hsent
  obtain ⟨z, d, e, hz, hd, he, -, hne, htotal, hmean⟩ :=
    (exactly_exec hash hfeed).showsTotals hfeed hrow
  have hperm := windowEvents_perm h hstamps hsent z d e
  have hsum : ((windowEvents batches z d e).map power).sum =
      ((countedIn toTimestamp es batches z d e).map Payload.watts).sum := by
    rw [(hperm.map power).sum_eq, List.map_map]
    rfl
  have hlength := hperm.length_eq
  rw [List.length_map] at hlength
  refine ⟨z, d, e, hz, hd, he, fun hnil => hne ?_, by rw [htotal, hsum], by
    rw [hmean, hsum, hlength]⟩
  rw [hnil, List.map_nil] at hperm
  exact hperm.eq_nil

end EndToEnd

/-- The refrigerator at noon, as the stream reads it. -/
def noonEvent : Reading ℤ :=
  (payload "2026-01-01 12:00:00" 12 false fridge twiceDraws).toEvent fun _ => some (minutes 59)

/-- The reading arrives three times, in two micro-batches. -/
theorem deliveredFrom_thrice : DeliveredFrom (fun _ => some (minutes 59)) oneIteration
    [⟨minutes 60, [noonEvent, noonEvent]⟩, ⟨minutes 61, [noonEvent]⟩] := by
  intro b hb r hr
  refine ⟨_, (mem_sentIn_oneIteration _).mpr rfl, ?_⟩
  rcases List.mem_cons.mp hb with rfl | hb
  · simp_all [noonEvent]
  · simp_all [noonEvent]

/-- The reading that arrives three times counts once in each window. -/
theorem live_endToEnd_thrice :
    let batches := [⟨minutes 60, [noonEvent, noonEvent]⟩, ⟨minutes 61, [noonEvent]⟩]
    let table := (exec (onBatch fun _ => 0) (LiveState.start .empty) batches).table
    table.rows ≠ [] ∧ ∀ row ∈ table.rows, ∃ z d e, row.zone = some z ∧ row.deviceType = some d ∧
      row.windowEnd = some e ∧
        let counted := countedIn (fun _ => some (minutes 59)) oneIteration batches z d e
        counted ≠ [] ∧ row.totalPowerWatts = some (counted.map Payload.watts).sum ∧
          row.avgPowerWatts = some ((counted.map Payload.watts).sum / counted.length) := by
  intro batches table
  exact ⟨by decide +kernel, live_endToEnd (fun _ => 0) run_oneIteration (by decide) (by decide)
    (by decide +kernel) deliveredFrom_thrice⟩

end SmartHomeEnergy
