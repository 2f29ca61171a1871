import SmartHomeEnergy.Simulator.Override
import SmartHomeEnergy.Streaming.Dedup

/-!
# What the simulator promises its readers

The readers of `energy_events` take two readings of the same time and device for one. That is
right if the simulator never computes two of them: in one iteration a device is in the loop once,
since its id is unique in the table the devices were read from, and no two iterations write the
same timestamp, as long as the clock does not show the same second twice. The copy of a reading
that is sent on purpose is one of the same reading.

So **what is left of the sent messages, however often and in whatever order they arrive, when
messages of the same time and device are dropped, are the readings that were computed, each
once** (`SmartHomeEnergy.each_reading_once`), whatever the panel does to the devices meanwhile.
-/

namespace SmartHomeEnergy

open Relational Streaming Transition

/-! ### The messages of a run -/

/-- The timestamp an iteration writes. -/
def Event.stamp? : Event → Option String
  | .iterate now _ => some now.stamp
  | _ => none

/-- The messages that are sent. -/
def Event.sent : Event → List Payload
  | .send sent => sent
  | _ => []

/-- The reading that is computed. -/
def Event.computed? (e : Event) : Option Payload := e.sent.head?

/-- The timestamps of the iterations. -/
def stampsIn (es : List Event) : List String := es.filterMap Event.stamp?

/-- The messages of a run. -/
def sentIn (es : List Event) : List Payload := es.flatMap Event.sent

/-- The readings that a run computes. -/
def computedIn (es : List Event) : List Payload := es.filterMap Event.computed?

/-- The time and the device of a reading. -/
def payloadKey (p : Payload) : String × String := (p.timestamp, p.deviceId)

/-! ### The invariant -/

/-- The ids of a list of devices. -/
def ids (devices : List Device) : List String := devices.map Device.deviceId

/-- **What may still be computed**: an iteration has computed nothing before its loop, and in the
loop nothing of the devices that are left, each of which is there once. -/
def Unsent (es : List Event) : Phase → Prop
  | .idle => True
  | .refreshing now _ => now.stamp ∈ stampsIn es ∧ ∀ p ∈ computedIn es, p.timestamp ≠ now.stamp
  | .selected now _ => now.stamp ∈ stampsIn es ∧ ∀ p ∈ computedIn es, p.timestamp ≠ now.stamp
  | .sending now _ pending => now.stamp ∈ stampsIn es ∧ (ids pending).Nodup ∧
      ∀ p ∈ computedIn es, p.timestamp = now.stamp → p.deviceId ∉ ids pending

/-- **The invariant of a run**: the readings differ in time or device, the messages are copies of
them, and no reading is to be computed again. -/
structure Produces (es : List Event) (s : House) : Prop where
  cache : (ids s.cache.devices).Nodup
  stamps : ∀ p ∈ computedIn es, p.timestamp ∈ stampsIn es
  distinct : ((computedIn es).map payloadKey).Nodup
  copies : ∀ p, p ∈ sentIn es ↔ p ∈ computedIn es
  unsent : Unsent es s.phase

section Steps

variable {es : List Event} {s s' : House} {e : Event}

theorem stampsIn_snoc (es : List Event) (e : Event) :
    stampsIn (es ++ [e]) = stampsIn es ++ e.stamp?.toList := by
  rw [stampsIn, List.filterMap_append, ← stampsIn]
  cases he : e.stamp? <;> simp [he]

theorem computedIn_snoc (es : List Event) (e : Event) :
    computedIn (es ++ [e]) = computedIn es ++ e.computed?.toList := by
  rw [computedIn, List.filterMap_append, ← computedIn]
  cases he : e.computed? <;> simp [he]

theorem sentIn_snoc (es : List Event) (e : Event) :
    sentIn (es ++ [e]) = sentIn es ++ e.sent := by simp [sentIn]

/-- The devices of the table have different ids. -/
theorem nodup_ids_rows (t : DevicesStatus) : (ids (t.rows.map DeviceRow.toDevice)).Nodup := by
  have hkey : t.rows.filterMap deviceKey = ids (t.rows.map DeviceRow.toDevice) := by
    rw [ids, List.map_map]
    exact congrFun List.filterMap_eq_map' t.rows
  exact hkey ▸ t.unique

/-- The loop starts over devices of which nothing was computed. -/
theorem unsent_loop {c : Cache} {now : Now} (hcache : (ids c.devices).Nodup)
    (hstamp : now.stamp ∈ stampsIn es) (hnew : ∀ p ∈ computedIn es, p.timestamp ≠ now.stamp) :
    Unsent es (c.loop now) :=
  ⟨hstamp, hcache, fun p hp hps => absurd hps (hnew p hp)⟩

/-- A step without messages keeps what there is of them. -/
theorem Produces.quiet (h : Produces es s) (hsent : e.sent = [])
    (hcache : (ids s'.cache.devices).Nodup) (hunsent : Unsent (es ++ [e]) s'.phase) :
    Produces (es ++ [e]) s' := by
  have hcomputed : computedIn (es ++ [e]) = computedIn es := by
    rw [computedIn_snoc, Event.computed?, hsent]
    simp
  refine ⟨hcache, fun p hp => ?_, ?_, fun p => ?_, hunsent⟩
  · rw [hcomputed] at hp
    rw [stampsIn_snoc]
    exact List.mem_append_left _ (h.stamps p hp)
  · rw [hcomputed]
    exact h.distinct
  · rw [sentIn_snoc, hsent, List.append_nil, hcomputed]
    exact h.copies p

/-- What may still be computed does not change with an event that neither sends nor starts an
iteration. -/
theorem Unsent.snoc {p : Phase} (h : Unsent es p) (hstamp : e.stamp? = none)
    (hsent : e.sent = []) : Unsent (es ++ [e]) p := by
  have hcomputed : computedIn (es ++ [e]) = computedIn es := by
    rw [computedIn_snoc, Event.computed?, hsent]
    simp
  have hstamps : stampsIn (es ++ [e]) = stampsIn es := by
    rw [stampsIn_snoc, hstamp]
    simp
  cases p with
  | idle => trivial
  | _ => simpa only [Unsent, hcomputed, hstamps] using h

/-- An iteration with a new timestamp has computed nothing yet. -/
theorem Produces.fresh (h : Produces es s) {now : Now} {time : ℚ}
    (hnew : now.stamp ∉ stampsIn es) :
    now.stamp ∈ stampsIn (es ++ [.iterate now time]) ∧
      ∀ p ∈ computedIn (es ++ [.iterate now time]), p.timestamp ≠ now.stamp := by
  refine ⟨by rw [stampsIn_snoc]; simp [Event.stamp?], fun p hp hps => ?_⟩
  rw [computedIn_snoc] at hp
  have hp' : p ∈ computedIn es := by simpa [Event.computed?, Event.sent] using hp
  exact hnew (hps ▸ h.stamps p hp')

/-- What is sent for a device is its reading, once or twice. -/
theorem emit_eq (stamp : String) (hour : ℕ) (eco : Bool) (x : Device) (r : Draws) :
    (emit stamp hour eco x r).head? = some (payload stamp hour eco x r) ∧
      ∀ p, p ∈ emit stamp hour eco x r ↔ p = payload stamp hour eco x r := by
  simp only [emit]
  split <;> simp

/-- **A step keeps the invariant**, when an iteration that starts has a new timestamp. -/
theorem Produces.step (h : Produces es s) (hstep : Step s e s')
    (hnew : ∀ stamp ∈ e.stamp?, stamp ∉ stampsIn es) : Produces (es ++ [e]) s' := by
  have hunsent := h.unsent
  cases hstep with
  | control => exact h.quiet rfl h.cache (hunsent.snoc rfl rfl)
  | add => exact h.quiet rfl h.cache (hunsent.snoc rfl rfl)
  | iterateStale hphase hstale => exact h.quiet rfl h.cache (h.fresh (hnew _ rfl))
  | iterateFresh hphase hfresh =>
    obtain ⟨hstamp, hcomputed⟩ := h.fresh (hnew _ rfl)
    exact h.quiet rfl h.cache (unsent_loop h.cache hstamp hcomputed)
  | refreshFails hphase =>
    rw [hphase] at hunsent
    obtain ⟨hstamp, hcomputed⟩ := hunsent.snoc (e := .refreshFails) rfl rfl
    exact h.quiet rfl h.cache (unsent_loop h.cache hstamp hcomputed)
  | selectDevices hphase hperm =>
    rw [hphase] at hunsent
    refine h.quiet rfl ((hperm.map Device.deviceId).nodup_iff.mpr (nodup_ids_rows s.table)) ?_
    exact hunsent.snoc (e := .selectDevices) rfl rfl
  | preferencesFail hphase =>
    rw [hphase] at hunsent
    obtain ⟨hstamp, hcomputed⟩ := hunsent.snoc (e := .preferencesFail) rfl rfl
    exact h.quiet rfl h.cache (unsent_loop h.cache hstamp hcomputed)
  | selectPreferences row closeFails hphase =>
    rw [hphase] at hunsent
    obtain ⟨hstamp, hcomputed⟩ := hunsent.snoc (e := .selectPreferences row closeFails) rfl rfl
    exact h.quiet rfl h.cache (unsent_loop h.cache hstamp hcomputed)
  | rest => exact h.quiet rfl h.cache trivial
  | @send now eco x pending r hphase =>
    rw [hphase] at hunsent
    obtain ⟨hstamp, hpending, hleft⟩ := hunsent
    obtain ⟨hhead, hmem⟩ := emit_eq now.stamp now.hour eco x r
    obtain ⟨hx, hpending'⟩ := List.nodup_cons.mp hpending
    have hcomputed : computedIn (es ++ [.send (emit now.stamp now.hour eco x r)]) =
        computedIn es ++ [payload now.stamp now.hour eco x r] := by
      rw [computedIn_snoc, Event.computed?, Event.sent, hhead, Option.toList_some]
    have hstamps : stampsIn (es ++ [.send (emit now.stamp now.hour eco x r)]) = stampsIn es := by
      rw [stampsIn_snoc]
      simp [Event.stamp?]
    refine ⟨h.cache, fun p hp => ?_, ?_, fun p => ?_, ?_⟩
    · rw [hstamps]
      rw [hcomputed] at hp
      rcases List.mem_append.mp hp with hp | hp
      · exact h.stamps p hp
      · rw [List.mem_singleton.mp hp]
        exact hstamp
    · -- the device is still in the loop, so nothing was computed of it in this iteration
      rw [hcomputed, List.map_append]
      refine List.nodup_append.mpr ⟨h.distinct, by simp, ?_⟩
      rintro key hkey _ hkey' rfl
      obtain ⟨p, hp, hpk⟩ := List.mem_map.mp hkey
      obtain rfl : key = (now.stamp, x.deviceId) := by simpa [payloadKey, payload] using hkey'
      obtain ⟨hpstamp, hpid⟩ := Prod.mk.inj hpk
      exact hleft p hp hpstamp (hpid ▸ List.mem_cons_self)
    · rw [sentIn_snoc, hcomputed, List.mem_append, List.mem_append, h.copies, List.mem_singleton]
      exact or_congr_right (hmem p)
    · rw [Unsent, hcomputed, hstamps]
      refine ⟨hstamp, hpending', fun p hp hps hid => ?_⟩
      rcases List.mem_append.mp hp with hp | hp
      · exact hleft p hp hps (List.mem_cons_of_mem _ hid)
      · rw [List.mem_singleton.mp hp] at hid
        exact hx hid

end Steps

/-! ### Whole runs -/

/-- A house whose simulator has not started. -/
def House.new (t : DevicesStatus) : House := ⟨t, ⟨[], false, 0⟩, .idle⟩

theorem produces_new (t : DevicesStatus) : Produces [] (House.new t) where
  cache := List.nodup_nil
  stamps := by simp [computedIn]
  distinct := List.nodup_nil
  copies := by simp [computedIn, sentIn]
  unsent := trivial

/-- **In every run** whose iterations write different timestamps. -/
theorem produces_run {t : DevicesStatus} {es : List Event} {s : House}
    (h : Run Step (House.new t) es s) (hstamps : (stampsIn es).Nodup) : Produces es s := by
  induction h with
  | start => exact produces_new t
  | snoc _ hl ih =>
    rw [stampsIn_snoc, List.nodup_append] at hstamps
    refine (ih hstamps.1).step hl fun stamp hstamp hmem => ?_
    exact hstamps.2.2 stamp hmem stamp (by simpa using hstamp) rfl

/-- **Each reading once**: in every run of the simulator beside the panel whose iterations write
different timestamps, the messages that differ in time or device are the readings that were
computed, however often and in whatever order the messages arrive. -/
theorem each_reading_once (t : DevicesStatus) (es : List Event) (s : House)
    (h : Run Step (House.new t) es s) (hstamps : (stampsIn es).Nodup) (received : List Payload)
    (hreceived : ∀ p, p ∈ received ↔ p ∈ sentIn es) :
    (dropDuplicates payloadKey [] received).Perm (computedIn es) := by
  have hproduces := produces_run h hstamps
  exact perm_dropDuplicates_of_nodup hproduces.distinct fun p =>
    (hreceived p).trans (hproduces.copies p)

/-- The draws of a reading that is sent twice. -/
def twiceDraws : Draws := { noonDraws with duplicate := ⟨1 / 1000, by norm_num, by norm_num⟩ }

/-- An iteration over the refrigerator. -/
def oneIteration : List Event :=
  [.iterate ⟨"2026-01-01 12:00:00", 12⟩ 100, .selectDevices, .preferencesFail,
    .send (emit "2026-01-01 12:00:00" 12 false fridge twiceDraws), .rest]

theorem run_oneIteration : Run Step (House.new kitchen.table) oneIteration
    ⟨kitchen.table, ⟨[fridge], false, 0⟩, .idle⟩ :=
  ((((Run.start.snoc (.iterateStale rfl (Or.inr rfl))).snoc
    (.selectDevices rfl (List.Perm.refl _))).snoc (.preferencesFail rfl)).snoc
    (@Step.send _ ⟨"2026-01-01 12:00:00", 12⟩ false fridge [] twiceDraws rfl)).snoc (.rest rfl)

/-- It sends the reading of the refrigerator, and nothing else. -/
theorem mem_sentIn_oneIteration (p : Payload) : p ∈ sentIn oneIteration ↔
    p = payload "2026-01-01 12:00:00" 12 false fridge twiceDraws := by
  have hmem := (emit_eq "2026-01-01 12:00:00" 12 false fridge twiceDraws).2
  simp [sentIn, oneIteration, Event.sent, hmem]

/-- The reading that is sent twice, and arrives three times, is left once. -/
theorem each_reading_once_thrice :
    let p := payload "2026-01-01 12:00:00" 12 false fridge twiceDraws
    (dropDuplicates payloadKey [] [p, p, p]).Perm [p] := by
  intro p
  have hhead := (emit_eq "2026-01-01 12:00:00" 12 false fridge twiceDraws).1
  have honce := each_reading_once kitchen.table oneIteration _ run_oneIteration (by decide)
    [p, p, p] fun q => by simp [mem_sentIn_oneIteration, p]
  have hcomputed : computedIn oneIteration = [p] := by
    rw [computedIn, oneIteration]
    simp [List.filterMap_cons, Event.computed?, Event.sent, hhead, p]
  rwa [hcomputed] at honce

end SmartHomeEnergy
