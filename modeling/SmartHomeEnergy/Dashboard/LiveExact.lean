import SmartHomeEnergy.Live.EndToEnd
import SmartHomeEnergy.Live.Purge

/-!
# The live view, as one query over the readings

Between a reading and the live view of the dashboard there is a query that keeps state: it drops
what it has seen, adds to running sums, forgets what lies behind its watermark, hands over the
windows a micro-batch has touched, partition by partition, to a table that is purged now and
then. All of this is there so that nobody has to look at all readings again.

When nothing fails none of it can be seen. The windows of all readings, computed at one stroke by
one `GROUP BY`, are `SmartHomeEnergy.windowView`; and **the live view shows what it would show of
these** (`SmartHomeEnergy.liveView_endToEnd`), over the readings that the simulator has computed
and that have arrived in time, each taken once. What has been purged lies outside the view, and
what was never purged is the windows themselves (`SmartHomeEnergy.perm_windowView`).
-/

namespace SmartHomeEnergy

open Relational Streaming Transition

/-! ### The windows at one stroke -/

section View

variable {events events' : List (Reading ℤ)}

/-- The row of a group, from all that it is given. -/
def groupedRow (k : WindowKey) (given : List (WindowKey × PowerSum)) : WindowedRow :=
  windowedRow k (given.map Prod.snd).sum

/-- **The windows of some events**, as one aggregation over all of them; a window without a zone
or a type is not stored. -/
def windowView (events : List (Reading ℤ)) : List WindowedRow :=
  keyed (groupBy Prod.fst groupedRow (contributions windowKeys powerSum events))

/-- A row of the view is the total of its key. -/
theorem mem_windowView {r : WindowedRow} : r ∈ windowView events ↔
    ∃ k a, totalFor (contributions windowKeys powerSum events) (tableKey k) = some a ∧
      r = windowedRow (tableKey k) a := by
  simp only [windowView, keyed, List.mem_filter, mem_groupBy, decide_eq_true_eq]
  constructor
  · rintro ⟨⟨w, hw, rfl⟩, hkey⟩
    obtain ⟨k, hk⟩ := Option.ne_none_iff_exists'.mp hkey
    obtain rfl := windowedKey_windowedRow.mp hk
    exact ⟨k, _, if_neg (givenTo_ne_nil.mpr hw), rfl⟩
  · rintro ⟨k, a, ha, rfl⟩
    rw [totalFor] at ha
    split at ha
    · exact absurd ha (by simp)
    next hne =>
      obtain rfl := Option.some.inj ha
      exact ⟨⟨_, givenTo_ne_nil.mp hne, rfl⟩, by rw [windowedKey_windowedRow.mpr rfl]; simp⟩

/-- What the events of a window give to its key. -/
theorem totalFor_window {z d : String} {e : ℤ} (hgrid : minutes 1 ∣ e - minutes 5) :
    totalFor (contributions windowKeys powerSum events) (tableKey (z, d, e)) =
      if events.filter (InWindow z d e) = [] then none
      else some ((events.filter (InWindow z d e)).map powerSum).sum := by
  have hinside : (events.filter fun r => tableKey (z, d, e) ∈ windowKeys r) =
      events.filter (InWindow z d e) :=
    List.filter_congr fun r _ => decide_eq_decide.mpr (mem_windowKeys_tableKey hgrid r)
  rw [totalFor, givenTo_contributions nodup_windowKeys, hinside]
  simp only [List.map_eq_nil_iff]

/-- The row of a window, from the powers inside it. -/
def rowOf (z d : String) (e : ℤ) (powers : List ℚ) : WindowedRow :=
  ⟨some (e - minutes 5), some e, some z, some d, some (powers.sum / powers.length),
    some powers.sum⟩

/-- **The rows of the view**, for events with a power: one for each window that starts on the
minute and has an event, with their mean and their sum. -/
theorem mem_windowView_iff (hpowers : ∀ r ∈ events, (powerSum r).2 = 1) {row : WindowedRow} :
    row ∈ windowView events ↔ ∃ z d e, minutes 1 ∣ e - minutes 5 ∧
      events.filter (InWindow z d e) ≠ [] ∧
        row = rowOf z d e ((events.filter (InWindow z d e)).map power) := by
  have hrow : ∀ {z d e}, events.filter (InWindow z d e) ≠ [] →
      windowedRow (tableKey (z, d, e)) ((events.filter (InWindow z d e)).map powerSum).sum =
        rowOf z d e ((events.filter (InWindow z d e)).map power) := by
    intro z d e hne
    have hcount : (events.filter (InWindow z d e)).length ≠ 0 := by simpa using hne
    rw [sum_powerSum_accepted fun r hr => hpowers r (List.mem_filter.mp hr).1]
    simp [windowedRow, rowOf, tableKey, hcount]
  rw [mem_windowView]
  constructor
  · rintro ⟨⟨z, d, e⟩, a, ha, rfl⟩
    -- something was given to the key, so that its window starts on the minute
    have hgrid : minutes 1 ∣ e - minutes 5 := by
      have hgiven : givenTo (contributions windowKeys powerSum events) (tableKey (z, d, e)) ≠ [] :=
        fun hnil => by simp [totalFor, hnil] at ha
      rw [givenTo_contributions nodup_windowKeys] at hgiven
      obtain ⟨r, hr⟩ := List.exists_mem_of_ne_nil _ (mt List.map_eq_nil_iff.mpr hgiven)
      obtain ⟨-, -, -, -, hgrid, -⟩ :=
        mem_windowKeys.mp (of_decide_eq_true (List.mem_filter.mp hr).2)
      exact hgrid
    rw [totalFor_window hgrid] at ha
    split at ha
    · exact absurd ha (by simp)
    next hne => exact ⟨z, d, e, hgrid, hne, by rw [← Option.some.inj ha, hrow hne]⟩
  · rintro ⟨z, d, e, hgrid, hne, rfl⟩
    refine ⟨(z, d, e), _, ?_, (hrow hne).symm⟩
    rw [totalFor_window hgrid, if_neg hne]

/-- The rows of the view have different keys. -/
theorem nodup_windowView (events : List (Reading ℤ)) :
    ((windowView events).filterMap windowedKey).Nodup := by
  refine List.Nodup.sublist (List.filter_sublist.filterMap _) ?_
  rw [groupBy, List.filterMap_map]
  refine (nodup_groupKeys Prod.fst _).filterMap fun w w' k hk hk' => ?_
  exact (windowedKey_windowedRow.mp hk).trans (windowedKey_windowedRow.mp hk').symm

/-- The view, as a table. -/
def viewTable (events : List (Reading ℤ)) : LiveTable :=
  ⟨windowView events, nodup_windowView events⟩

/-- **What the view has under a key**: what a session shows that was given the same. -/
theorem find_viewTable (hperm : events.Perm events') (k : String × String × ℤ) :
    (viewTable events).find k =
      sessionRow .empty (contributions windowKeys powerSum events') k := by
  have htotal : totalFor (contributions windowKeys powerSum events) (tableKey k) =
      totalFor (contributions windowKeys powerSum events') (tableKey k) :=
    totalFor_perm (hperm.flatMap_right _) _
  rw [sessionRow, ← htotal]
  cases ha : totalFor (contributions windowKeys powerSum events) (tableKey k) with
  | none =>
    refine Option.eq_none_iff_forall_ne_some.mpr fun r hr => ?_
    obtain ⟨hmem, hk⟩ := Table.mem_of_find hr
    obtain ⟨k', a, ha', rfl⟩ := mem_windowView.mp hmem
    obtain rfl : k' = k := by
      obtain ⟨he, hz, hd⟩ := WindowKey.mk.inj (windowedKey_windowedRow.mp hk)
      exact Prod.ext (Option.some.inj hz) (Prod.ext (Option.some.inj hd) he)
    rw [ha] at ha'
    exact absurd ha' (by simp)
  | some a =>
    exact Table.find_of_mem (mem_windowView.mpr ⟨k, a, ha, rfl⟩) (windowedKey_windowedRow.mpr rfl)

/-- The rows of the view have a key. -/
theorem keyed_windowView : ∀ r ∈ windowView events, windowedKey r ≠ none := fun _ hr =>
  of_decide_eq_true (List.mem_filter.mp hr).2

end View

/-! ### What a session has committed -/

section Session

variable {hash : WindowedRow → Fin 4} {batches : List MicroBatch}

/-- What calls of the sink have committed, when nothing is purged. -/
def committedTable (calls : List Callback) : LiveTable :=
  (Table.empty : LiveTable).upsertAll windowedUpsert (calls.flatMap fun c => committed c.2.1)

theorem keyed_committedTable (calls : List Callback) :
    ∀ r ∈ (committedTable calls).rows, windowedKey r ≠ none := by
  intro r hr
  obtain ⟨x, hx, hkey⟩ := Table.key_mem_upsertAll hr
  obtain ⟨c, -, hc⟩ := List.mem_flatMap.mp ((List.mem_append.mp hx).resolve_left (by
    simp [Table.empty]))
  rw [hkey]
  exact windowedKey_ne_none_of_committed hc

/-- **A session is calls of the sink**, and what these have committed are the totals of what it
was given. -/
theorem exists_calls (hash : WindowedRow → Fin 4) (hfeed : Feed batches) :
    ∃ calls : List Callback,
      (exec (onBatch hash) (LiveState.start .empty) batches).table =
          exec callbackStep .empty calls ∧
        ∀ k, (committedTable calls).find k = sessionRow .empty (givenIn batches) k := by
  refine exec_induction (onBatch hash) (fun bs s => Feed bs → Exactly bs s →
    ∃ calls : List Callback, s.table = exec callbackStep .empty calls ∧
      ∀ k, (committedTable calls).find k = sessionRow .empty (givenIn bs) k)
    (fun _ _ => ⟨[], rfl, fun _ => rfl⟩) (fun bs b ih hfeed' _ => ?_) batches hfeed
    (exactly_exec hash hfeed)
  have hexact := exactly_exec hash hfeed'.of_append
  obtain ⟨calls, htable, hfind⟩ := ih hfeed'.of_append hexact
  generalize exec (onBatch hash) (LiveState.start .empty) bs = s at hexact htable
  refine ⟨calls ++ [(s.batchId, spread hash (microBatch s.stream b).2, none)], ?_, fun k => ?_⟩
  · rw [exec_append, ← htable]
    rfl
  · -- the same partitions, merged into the table that was never purged
    have hmerged := @find_merged hash ⟨s.stream, committedTable calls, s.batchId⟩ _ _ .empty
      hexact.tracks b k
    have hnext : committedTable
        (calls ++ [(s.batchId, spread hash (microBatch s.stream b).2, none)]) =
          (foreachPartition (spread hash (microBatch s.stream b).2)
            (committedTable calls)).state := by
      rw [foreachPartition_eq, Attempt.done_state, committedTable, List.flatMap_append,
        Table.upsertAll_append, List.flatMap_singleton]
      rfl
    rw [hexact.givenIn_next hfeed', hnext, hmerged]
    split
    next => rfl
    next hnone =>
      have htotal : totalFor (givenIn bs ++ givenBy s.stream b) (tableKey k) =
          totalFor (givenIn bs) (tableKey k) :=
        totalFor_of_not_handed fun a ha => hnone ⟨_, ha, windowedKey_windowedRow.mpr rfl⟩
      rw [sessionRow, htotal]
      exact hfind k

/-- **What was never purged is the windows themselves**: the table of a session shows what the
windows of the events show that were processed. -/
theorem perm_windowView (hash : WindowedRow → Fin 4) (hfeed : Feed batches)
    {events : List (Reading ℤ)} (hevents : events.Perm (processed batches))
    (lower : String → String) (thresholds : List LimitRow) :
    (getViolatedDevices lower false
        (exec (onBatch hash) (LiveState.start .empty) batches).table.rows thresholds).Perm
      (getViolatedDevices lower false (windowView events) thresholds) := by
  obtain ⟨calls, htable, hfind⟩ := exists_calls hash hfeed
  have hperm : (committedTable calls).rows.Perm (viewTable events).rows :=
    Table.perm_of_find (keyed_committedTable calls) keyed_windowView fun k => by
      rw [hfind, find_viewTable (hevents.trans (perm_distinctEvents hfeed).symm)]
      rfl
  rw [htable]
  refine (perm_devices_callbacks lower thresholds calls).trans ?_
  refine devicesSummary_perm_of_recentRows lower ?_ thresholds
  rw [recentRows_eq, recentRows_eq]
  exact perm_kept cutoff_le hperm

end Session

/-! ### From the simulator on -/

/-- **The live view is one query over the readings**: in every run of the simulator beside the
panel whose iterations write different timestamps, and for every way its messages are delivered
– with processing time that does not go back, and nothing from the future –, the live view shows
at any moment what it would show of one row for each window, zone and type: the sum and the mean
over the readings in it that have arrived and were accepted, each taken once. -/
theorem liveView_endToEnd (lower : String → String) (thresholds : List LimitRow)
    (hash : WindowedRow → Fin 4) {toTimestamp : String → Option ℤ} {t : DevicesStatus}
    {es : List Event} {s : House} {batches : List MicroBatch}
    (h : Run Step (House.new t) es s) (hstamps : ((stampsIn es).map toTimestamp).Nodup)
    (hordered : batches.Pairwise fun a b => a.currentTimestamp ≤ b.currentTimestamp)
    (hpast : ∀ b ∈ batches, ∀ r ∈ b.rows, ∀ time ∈ r.timestamp, time ≤ b.currentTimestamp)
    (hsent : DeliveredFrom toTimestamp es batches) :
    let table := (exec (onBatch hash) (LiveState.start .empty) batches).table
    let view := windowView ((arrivedIn toTimestamp es batches).map (Payload.toEvent toTimestamp))
    (getViolatedDevices lower false table.rows thresholds).Perm
        (getViolatedDevices lower false view thresholds) ∧
      ∀ row, row ∈ view ↔ ∃ z d e, minutes 1 ∣ e - minutes 5 ∧
        let counted := countedIn toTimestamp es batches z d e
        counted ≠ [] ∧ row = rowOf z d e (counted.map Payload.watts) := by
  intro table view
  have hfeed : Feed batches := feed_of_run h hstamps hordered hpast hsent
  have harrived := perm_processed h hstamps hsent
  refine ⟨perm_windowView hash hfeed harrived.symm lower thresholds, fun row => ?_⟩
  have hpowers : ∀ r ∈ (arrivedIn toTimestamp es batches).map (Payload.toEvent toTimestamp),
      (powerSum r).2 = 1 := by
    intro r hr
    obtain ⟨b, -, hb⟩ := List.mem_flatMap.mp (List.mem_dedup.mp (harrived.mem_iff.mpr hr))
    exact (powerSum_of_accepted hb).2
  rw [mem_windowView_iff hpowers]
  simp only [← map_countedIn, List.map_map, ne_eq, List.map_eq_nil_iff]
  rfl

/-- The reading of the refrigerator arrives three times, and the view has it once, at the twentieth
part of its 80 watts. -/
theorem liveView_endToEnd_thrice :
    let batches := [⟨minutes 60, [noonEvent, noonEvent]⟩, ⟨minutes 61, [noonEvent]⟩]
    let table := (exec (onBatch fun _ => 0) (LiveState.start .empty) batches).table
    let view := windowView
      ((arrivedIn (fun _ => some (minutes 59)) oneIteration batches).map
        (Payload.toEvent fun _ => some (minutes 59)))
    shownCosts (getViolatedDevices asciiLower false table.rows applianceLimits) =
        [(some "Critical_Appliance", some 4)] ∧
      (getViolatedDevices asciiLower false table.rows applianceLimits).Perm
          (getViolatedDevices asciiLower false view applianceLimits) := by
  intro batches table view
  exact ⟨by decide +kernel, (liveView_endToEnd asciiLower applianceLimits (fun _ => 0)
    run_oneIteration (by decide) (by decide) (by decide +kernel) deliveredFrom_thrice).1⟩

end SmartHomeEnergy
