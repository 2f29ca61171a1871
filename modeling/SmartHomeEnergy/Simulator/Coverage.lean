import SmartHomeEnergy.Simulator.Producer
import SmartHomeEnergy.Simulator.Timeliness

/-!
# No device is passed over

That no reading is computed twice is one half of what the readers of `energy_events` rely on. The
other half is that none is missing: a mean over an hour is one over its iterations only if the
device was taken in each of them. The simulator takes the devices of its copy, so a device is
passed over while the copy is older than its row; and a copy is never older than a minute, unless
reading the table fails.

So **a device that is registered is taken exactly once in every complete iteration that starts
more than a minute later and reads the devices without a fault**
(`SmartHomeEnergy.taken_each_iteration`), and in every one at all as soon as the devices have
been read once since: a later fault leaves an older copy, which has the device already, since the
panel never removes one.
-/

namespace SmartHomeEnergy

open Relational Transition

/-! ### A registered device -/

/-- The device is registered, with this type. -/
def Registers (t : DevicesStatus) (deviceId : String) (deviceType : Option String) : Prop :=
  ∃ row, t.find deviceId = some row ∧ row.deviceType = deviceType

/-- **No step unregisters a device**, or changes its type. -/
theorem Registers.step {s s' : House} {e : Event} {d : String} {deviceType : Option String}
    (h : Registers s.table d deviceType) (hstep : Step s e s') :
    Registers s'.table d deviceType := by
  obtain ⟨row, hfind, htype⟩ := h
  cases hstep with
  | @control deviceId action t hcontrol =>
    rw [controlDevice] at hcontrol
    split at hcontrol
    next haction =>
      rw [← Option.some.inj hcontrol]
      refine ⟨_, by rw [Table.find_updateWhere, hfind, Option.map_some], ?_⟩
      split <;> exact htype
    next => exact absurd hcontrol (by simp)
  | add new =>
    have hnew := Table.find_upsert deviceUpsert s.table new d
    rw [hfind] at hnew
    by_cases hkey : deviceKey new = some d
    · rw [if_pos hkey] at hnew
      exact ⟨_, hnew, htype⟩
    · rw [if_neg hkey] at hnew
      exact ⟨row, hnew, htype⟩
  | _ => exact ⟨row, hfind, htype⟩

/-- A device of the table is registered. -/
theorem registers_of_mem {t : DevicesStatus} {x : Device}
    (hx : x ∈ t.rows.map DeviceRow.toDevice) : Registers t x.deviceId x.deviceType := by
  obtain ⟨row, hrow, rfl⟩ := List.mem_map.mp hx
  exact ⟨row, Table.find_of_mem hrow rfl, rfl⟩

/-- The device has a row. -/
def HasRow (d : String) (s : House) : Prop := ∃ deviceType, Registers s.table d deviceType

/-! ### The turns of a device -/

section Turns

variable {d : String} {now : Now} {es : List Event} {s s' : House} {e : Event}

/-- The messages for a device, one list for each time it is taken in the loop. -/
def sendsOf (d : String) (es : List Event) : List (List Payload) :=
  (es.map Event.sent).filter fun sent => ∃ p ∈ sent, p.deviceId = d

theorem sendsOf_snoc (d : String) (es : List Event) (e : Event) :
    sendsOf d (es ++ [e]) =
      sendsOf d es ++ if ∃ p ∈ e.sent, p.deviceId = d then [e.sent] else [] := by
  rw [sendsOf, List.map_append, List.filter_append, ← sendsOf]
  simp [List.filter_cons]

/-- A step without messages is nobody's turn. -/
theorem sendsOf_quiet (hsent : e.sent = []) : sendsOf d (es ++ [e]) = sendsOf d es := by
  simp [sendsOf_snoc, hsent]

/-- The messages of an iteration's turn are those of its device. -/
theorem sendsOf_send (stamp : String) (hour : ℕ) (eco : Bool) (x : Device) (r : Draws) :
    sendsOf d (es ++ [.send (emit stamp hour eco x r)]) =
      sendsOf d es ++ if x.deviceId = d then [emit stamp hour eco x r] else [] := by
  have hmem := (emit_eq stamp hour eco x r).2
  have hturn : (∃ p ∈ emit stamp hour eco x r, p.deviceId = d) ↔ x.deviceId = d := by
    simp only [hmem, exists_eq_left]
    rfl
  rw [sendsOf_snoc, Event.sent]
  simp only [hturn]

/-- **The device was taken once**: for one reading, with the time of the iteration. -/
def TakenOnce (d : String) (now : Now) (es : List Event) : Prop :=
  ∃ x eco r, x.deviceId = d ∧ sendsOf d es = [emit now.stamp now.hour eco x r]

/-- The device is in a list, once. -/
def OnceIn (d : String) (devices : List Device) : Prop := (ids devices).count d = 1

/-- A copy of the table has a registered device once. -/
theorem HasRow.onceIn (h : HasRow d s) {devices : List Device}
    (hperm : devices.Perm (s.table.rows.map DeviceRow.toDevice)) : OnceIn d devices := by
  obtain ⟨deviceType, row, hfind, -⟩ := h
  obtain ⟨hrow, hkey⟩ := Table.mem_of_find hfind
  have hids : (ids devices).Perm (ids (s.table.rows.map DeviceRow.toDevice)) :=
    hperm.map Device.deviceId
  have hmem : d ∈ ids (s.table.rows.map DeviceRow.toDevice) := by
    rw [ids, List.map_map]
    exact List.mem_map.mpr ⟨row, hrow, Option.some.inj hkey⟩
  rw [OnceIn, hids.count_eq]
  exact List.count_eq_one_of_mem (nodup_ids_rows s.table) hmem

theorem HasRow.step (h : HasRow d s) (hstep : Step s e s') : HasRow d s' := by
  obtain ⟨deviceType, h⟩ := h
  exact ⟨deviceType, h.step hstep⟩

/-- **No step takes a device out of the copy.** -/
theorem onceIn_step (hd : HasRow d s) (h : OnceIn d s.cache.devices) (hstep : Step s e s') :
    OnceIn d s'.cache.devices := by
  cases hstep with
  | selectDevices hphase hperm => exact hd.onceIn hperm
  | _ => exact h

/-! ### An iteration -/

/-- **Where an iteration stands with a device**: it has not taken it before its loop, and in the
loop either not yet, and the device is still to come, or once, and it will not come again. -/
def Due (d : String) (now : Now) (es : List Event) : Phase → Prop
  | .idle => False
  | .refreshing now' _ => now' = now ∧ sendsOf d es = []
  | .selected now' _ => now' = now ∧ sendsOf d es = []
  | .sending now' _ pending => now' = now ∧
      (sendsOf d es = [] ∧ OnceIn d pending ∨ TakenOnce d now es ∧ d ∉ ids pending)

/-- **The invariant of an iteration**: the device is registered, and in the copy unless the copy
is about to be read. -/
structure Covers (healthy : Prop) (d : String) (now : Now) (es : List Event) (s : House) :
    Prop where
  registered : HasRow d s
  copy : OnceIn d s.cache.devices ∨ healthy ∧ ∃ now time, s.phase = .refreshing now time
  due : Due d now es s.phase

/-- A step that sends nothing leaves a phase where it stands. -/
theorem Due.snoc {p : Phase} (h : Due d now es p) (hsent : e.sent = []) :
    Due d now (es ++ [e]) p := by
  cases p with
  | idle => exact h
  | _ => simpa only [Due, TakenOnce, sendsOf_quiet hsent] using h

/-- The loop starts. -/
theorem due_loop {c : Cache} (hcopy : OnceIn d c.devices) (hsends : sendsOf d es = []) :
    Due d now es (c.loop now) := ⟨rfl, Or.inl ⟨hsends, hcopy⟩⟩

/-- **A turn of the loop** is one of the device, or leaves where it stands. -/
theorem due_send {eco : Bool} {x : Device} {pending : List Device} (r : Draws)
    (h : Due d now es (.sending now eco (x :: pending))) :
    Due d now (es ++ [.send (emit now.stamp now.hour eco x r)]) (.sending now eco pending) := by
  obtain ⟨-, ⟨hsends, honce⟩ | ⟨htaken, hnot⟩⟩ := h
  · rw [OnceIn, ids, List.map_cons, List.count_cons] at honce
    by_cases hx : x.deviceId = d
    · -- its turn: it is not in the loop any more
      refine ⟨rfl, Or.inr ⟨⟨x, eco, r, hx, ?_⟩, ?_⟩⟩
      · rw [sendsOf_send, if_pos hx, hsends, List.nil_append]
      · rw [if_pos (by simpa using hx)] at honce
        exact List.count_eq_zero.mp (Nat.succ.inj honce)
    · refine ⟨rfl, Or.inl ⟨?_, ?_⟩⟩
      · rw [sendsOf_send, if_neg hx, hsends, List.append_nil]
      · rw [if_neg (by simpa using hx)] at honce
        exact honce
  · rw [ids, List.map_cons, List.mem_cons, not_or] at hnot
    refine ⟨rfl, Or.inr ⟨?_, hnot.2⟩⟩
    rwa [TakenOnce, sendsOf_send, if_neg (Ne.symm hnot.1), List.append_nil]

/-- **A step of the iteration keeps the invariant.** -/
theorem Covers.step {healthy : Prop} (h : Covers healthy d now es s) (hstep : Step s e s')
    (hfails : healthy → e ≠ .refreshFails) (hrest : e ≠ .rest) :
    Covers healthy d now (es ++ [e]) s' := by
  obtain ⟨hd, hcopy, hdue⟩ := h
  have hd' := hd.step hstep
  have hread : ∀ {p : Phase}, s.phase = p → (∀ now time, p ≠ .refreshing now time) →
      OnceIn d s.cache.devices := fun hphase hp =>
    hcopy.resolve_right fun ⟨_, now', time, h⟩ => hp now' time (hphase.symm.trans h)
  cases hstep with
  | control => exact ⟨hd', hcopy, hdue.snoc rfl⟩
  | add => exact ⟨hd', hcopy, hdue.snoc rfl⟩
  | iterateStale hphase =>
    rw [hphase] at hdue
    exact hdue.elim
  | iterateFresh hphase =>
    rw [hphase] at hdue
    exact hdue.elim
  | rest => exact absurd rfl hrest
  | refreshFails hphase =>
    have hcopy' : OnceIn d s.cache.devices :=
      hcopy.resolve_right fun hhealthy => hfails hhealthy.1 rfl
    rw [hphase] at hdue
    obtain ⟨rfl, hsends⟩ := hdue
    exact ⟨hd', Or.inl hcopy', due_loop hcopy' ((sendsOf_quiet rfl).trans hsends)⟩
  | selectDevices hphase hperm =>
    rw [hphase] at hdue
    obtain ⟨rfl, hsends⟩ := hdue
    exact ⟨hd', Or.inl (hd.onceIn hperm), rfl, (sendsOf_quiet rfl).trans hsends⟩
  | preferencesFail hphase =>
    have hcopy' := hread hphase nofun
    rw [hphase] at hdue
    obtain ⟨rfl, hsends⟩ := hdue
    exact ⟨hd', Or.inl hcopy', due_loop hcopy' ((sendsOf_quiet rfl).trans hsends)⟩
  | selectPreferences row closeFails hphase =>
    have hcopy' := hread hphase nofun
    rw [hphase] at hdue
    obtain ⟨rfl, hsends⟩ := hdue
    exact ⟨hd', Or.inl hcopy', due_loop hcopy' ((sendsOf_quiet rfl).trans hsends)⟩
  | @send now' eco x pending r hphase =>
    have hcopy' := hread hphase nofun
    rw [hphase] at hdue
    obtain rfl := hdue.1
    exact ⟨hd', Or.inl hcopy', due_send r hdue⟩

/-- **A run of an iteration.** -/
theorem Covers.run {healthy : Prop} (h : Covers healthy d now [] s) (hrun : Run Step s es s')
    (hfails : healthy → .refreshFails ∉ es) (hrest : .rest ∉ es) :
    Covers healthy d now es s' := by
  refine Run.history_of_forall (p := fun e => (healthy → e ≠ .refreshFails) ∧ e ≠ .rest)
    (Covers healthy d now) h (fun _ _ _ _ h hs he => h.step hs he.1 he.2) hrun fun e he => ?_
  exact ⟨fun hhealthy heq => hfails hhealthy (heq ▸ he), fun heq => hrest (heq ▸ he)⟩

/-- **At its end** an iteration has taken the device. -/
theorem Covers.takenOnce {healthy : Prop} (h : Covers healthy d now es s)
    (hstep : Step s .rest s') : TakenOnce d now es := by
  have hdue := h.due
  cases hstep with
  | rest hphase =>
    rw [hphase] at hdue
    obtain ⟨-, ⟨-, honce⟩ | ⟨htaken, -⟩⟩ := hdue
    · exact absurd honce (by simp [OnceIn, ids])
    · exact htaken

/-! ### Since a device was registered -/

/-- **Since a device was registered**: it is in the copy, unless the devices have not been read
since, and the copy is as old as it was. -/
structure SinceAdded (d : String) (t : ℚ) (es : List Event) (s : House) : Prop where
  registered : HasRow d s
  copy : OnceIn d s.cache.devices ∨ NotRead t s ∧ .selectDevices ∉ es

theorem SinceAdded.step {t : ℚ} (h : SinceAdded d t es s) (hstep : Step s e s') :
    SinceAdded d t (es ++ [e]) s' := by
  obtain ⟨hd, hcopy | ⟨hread, hselect⟩⟩ := h
  · exact ⟨hd.step hstep, Or.inl (onceIn_step hd hcopy hstep)⟩
  · refine ⟨hd.step hstep, ?_⟩
    by_cases he : e = .selectDevices
    · subst he
      cases hstep with
      | selectDevices hphase hperm => exact Or.inl (hd.onceIn hperm)
    · refine Or.inr ⟨hread.step hstep he, fun hmem => ?_⟩
      rcases List.mem_append.mp hmem with hmem | hmem
      · exact hselect hmem
      · exact he (List.mem_singleton.mp hmem).symm

/-- **An iteration starts**: when the devices have been read since, or it starts more than a
minute later and will read them. -/
theorem SinceAdded.covers {t time : ℚ} {healthy : Prop} (h : SinceAdded d t es s)
    (hstep : Step s (.iterate now time) s')
    (hreads : .selectDevices ∈ es ∨ t + 60 < time ∧ healthy) : Covers healthy d now [] s' := by
  obtain ⟨hd, hcopy⟩ := h
  have hd' := hd.step hstep
  cases hstep with
  | iterateStale hidle hstale =>
    refine ⟨hd', ?_, rfl, rfl⟩
    rcases hcopy with hcopy | ⟨-, hselect⟩
    · exact Or.inl hcopy
    · exact Or.inr ⟨(hreads.resolve_left hselect).2, now, time, rfl⟩
  | iterateFresh hidle hfresh =>
    have hcopy' : OnceIn d s.cache.devices := by
      rcases hcopy with hcopy | ⟨hread, hselect⟩
      · exact hcopy
      · -- the copy is older than a minute, so it would be read
        refine absurd (Or.inl ?_) hfresh
        linarith [hread.cache, (hreads.resolve_left hselect).1]
    exact ⟨hd', Or.inl hcopy', due_loop hcopy' rfl⟩

end Turns

/-! ### Whole runs -/

/-- **No device is passed over**: a device is registered after iterations that started at `t` at
the latest; then whatever the panel and the simulator do in between, every complete iteration
takes it exactly once, if the devices have been read since it was registered, or if it starts
after `t + 60` and its reading of the devices does not fail. -/
theorem taken_each_iteration (d : String) (t time : ℚ) (now : Now) (s₀ s₁ s₂ s₃ s₄ s₅ : House)
    (es es' es'' : List Event) (hidle : s₀.phase = .idle) (hold : s₀.cache.lastUpdate ≤ t)
    (hrun : Run Step s₀ es s₁) (hes : ∀ now time, .iterate now time ∈ es → time ≤ t)
    (hexists : s₁.table.find d ≠ none) (hrun' : Run Step s₁ es' s₂)
    (hiterate : Step s₂ (.iterate now time) s₃) (hrun'' : Run Step s₃ es'' s₄)
    (hone : .rest ∉ es'') (hrest : Step s₄ .rest s₅)
    (hreads : .selectDevices ∈ es' ∨ t + 60 < time ∧ .refreshFails ∉ es'') :
    TakenOnce d now es'' := by
  -- when the device is registered the copy is no newer than its time
  have hnewer : NoNewer t s₁ := noNewer_run hidle hold hrun hes
  have hrow₁ : HasRow d s₁ := by
    obtain ⟨row, hrow⟩ := Option.ne_none_iff_exists'.mp hexists
    exact ⟨row.deviceType, row, hrow, rfl⟩
  have hsince : SinceAdded d t es' s₂ :=
    Run.history_of_forall (p := fun _ => True) (SinceAdded d t)
      ⟨hrow₁, Or.inr ⟨hnewer.notRead, List.not_mem_nil⟩⟩ (fun _ _ _ _ h hs _ => h.step hs)
      hrun' fun _ _ => trivial
  have hcovers : Covers (.refreshFails ∉ es'') d now es'' s₄ :=
    (hsince.covers hiterate hreads).run hrun'' id hone
  exact hcovers.takenOnce hrest

/-- The first iteration takes the refrigerator once, and sends its reading twice. -/
theorem taken_each_iteration_fridge :
    TakenOnce "KT_Fridge" ⟨"2026-01-01 12:00:00", 12⟩
      [.selectDevices, .preferencesFail,
        .send (emit "2026-01-01 12:00:00" 12 false fridge twiceDraws)] := by
  let noon : Now := ⟨"2026-01-01 12:00:00", 12⟩
  have hloop : Run Step ⟨kitchen.table, ⟨[], false, 0⟩, .refreshing noon 100⟩
      [.selectDevices, .preferencesFail, .send (emit noon.stamp noon.hour false fridge twiceDraws)]
      ⟨kitchen.table, ⟨[fridge], false, 0⟩, .sending noon false []⟩ :=
    ((Run.start.snoc (.selectDevices rfl (List.Perm.refl _))).snoc (.preferencesFail rfl)).snoc
      (.send twiceDraws rfl)
  exact taken_each_iteration "KT_Fridge" 0 100 noon (House.new kitchen.table) _ _ _ _ _ [] [] _ rfl
    le_rfl .start (by simp) (by decide) .start (.iterateStale rfl (Or.inr rfl)) hloop (by simp)
    (.rest rfl) (Or.inr ⟨by norm_num, by simp⟩)

end SmartHomeEnergy
