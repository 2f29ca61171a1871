import SmartHomeEnergy.Live.Exact

/-!
# Restarts of the live layer

When `spark_stream.py` starts, it moves the checkpoint of the last run away and reads on
from the latest offsets: the state of the query is gone, the table stays
(`SmartHomeEnergy.liveStep`). What a key was given before the restart is therefore
forgotten, and the first row handed over for it afterwards overwrites the old total
with the total since the restart (`SmartHomeEnergy.Resumed.storedTotal_eq`).

That first upsert is the only step at which a stored total can fall while its row stays
(`SmartHomeEnergy.storedTotal_of_restarts`). No assumption is made on the times of the events:
a key whose accumulator is evicted is late, and is not handed over again.
-/

namespace SmartHomeEnergy

open Relational Streaming Transition

/-! ### Runs with restarts -/

/-- What happens to the live layer. -/
inductive LiveLabel
  /-- A micro-batch is processed. -/
  | batch (b : MicroBatch)
  /-- The program is stopped and started again. -/
  | restart

/-- One step of the live layer. -/
def liveStep (hash : WindowedRow → Fin 4) (s : LiveState) : LiveLabel → LiveState
  | .batch b => onBatch hash s b
  | .restart => LiveState.start s.table

/-- The micro-batches since the last start. -/
def session (ls : List LiveLabel) : List MicroBatch :=
  ls.foldl (fun bs l => match l with
    | .batch b => bs ++ [b]
    | .restart => []) []

/-- The state of a query after the micro-batches of a session. -/
def streamAfter (bs : List MicroBatch) : StreamState :=
  bs.foldl (fun s b => (microBatch s b).1) StreamState.start

/-- What the micro-batches of a session give to the groups that are not late, each in the state
it finds. -/
def givenSince : StreamState → List MicroBatch → List (WindowKey × PowerSum)
  | _, [] => []
  | s, b :: bs => givenBy s b ++ givenSince (microBatch s b).1 bs

/-- **The total since the start**: the powers that a session has given to the group of a key. -/
def totalSince (k : String × String × ℤ) (bs : List MicroBatch) : ℚ :=
  ((givenTo (givenSince StreamState.start bs) (tableKey k)).map Prod.fst).sum

/-- A session has handed over a row for a key. -/
def Handed (k : String × String × ℤ) (bs : List MicroBatch) : Prop :=
  ∃ pre b post, bs = pre ++ b :: post ∧
    ∃ r ∈ (microBatch (streamAfter pre) b).2, windowedKey r = some k

/-- The micro-batch hands over the first row for the key since the last start. -/
def FirstUpsert (k : String × String × ℤ) (ls : List LiveLabel) (b : MicroBatch) : Prop :=
  Handed k (session ls ++ [b]) ∧ ¬Handed k (session ls)

/-- The total stored under a key. -/
def storedTotal (k : String × String × ℤ) (t : LiveTable) : ℚ :=
  ((t.find k).bind (·.totalPowerWatts)).getD 0

theorem session_snoc_batch (ls : List LiveLabel) (b : MicroBatch) :
    session (ls ++ [.batch b]) = session ls ++ [b] := by
  simp [session]

theorem session_snoc_restart (ls : List LiveLabel) : session (ls ++ [.restart]) = [] := by
  simp [session]

theorem givenSince_snoc (s : StreamState) (bs : List MicroBatch) (b : MicroBatch) :
    givenSince s (bs ++ [b]) =
      givenSince s bs ++ givenBy (bs.foldl (fun s b => (microBatch s b).1) s) b := by
  induction bs generalizing s with
  | nil => simp [givenSince]
  | cons c bs ih => rw [List.cons_append, givenSince, givenSince, ih, List.append_assoc]; rfl

theorem handed_snoc {k : String × String × ℤ} {bs : List MicroBatch} {b : MicroBatch} :
    Handed k (bs ++ [b]) ↔
      Handed k bs ∨ ∃ r ∈ (microBatch (streamAfter bs) b).2, windowedKey r = some k := by
  constructor
  · rintro ⟨pre, c, post, heq, h⟩
    -- the micro-batch that hands over is the last one, or one before it
    rcases List.eq_nil_or_concat post with rfl | ⟨post, c', rfl⟩
    · obtain ⟨rfl, hc⟩ := List.append_inj' heq rfl
      obtain rfl := List.singleton_inj.mp hc
      exact Or.inr h
    · rw [List.concat_eq_append, ← List.cons_append, ← List.append_assoc] at heq
      exact Or.inl ⟨pre, c, post, (List.append_inj' heq rfl).1, h⟩
  · rintro (⟨pre, c, post, rfl, h⟩ | h)
    · exact ⟨pre, c, post ++ [b], by simp, h⟩
    · exact ⟨bs, b, [], by simp, h⟩

/-! ### The invariant of a run -/

/-- **The invariant of a run**: the query is in the state of its session, the table
follows what the session was given, and a key was given something exactly when a row
was handed over for it. -/
structure Resumed (ls : List LiveLabel) (s : LiveState) (given : List (WindowKey × PowerSum))
    (t₀ : LiveTable) : Prop where
  stream : s.stream = streamAfter (session ls)
  tracks : ∃ past, Tracks s.stream past given
  follows : Follows t₀ given s.table
  handed : ∀ k, totalFor given (tableKey k) ≠ none ↔ Handed k (session ls)

section Run

variable {hash : WindowedRow → Fin 4} {ls : List LiveLabel} {s : LiveState}
  {given : List (WindowKey × PowerSum)} {t₀ : LiveTable}

theorem resumed_start (hs : session ls = []) (t : LiveTable) :
    Resumed ls (LiveState.start t) [] t where
  stream := by rw [hs]; rfl
  tracks := ⟨[], tracks_start⟩
  follows := follows_start t
  handed k := by
    rw [hs]
    refine iff_of_false (by simp [totalFor, givenTo, groupRows]) ?_
    rintro ⟨pre, b, post, heq, -⟩
    exact absurd heq (by simp)

/-- **A micro-batch keeps the invariant of the run.** -/
theorem Resumed.batch (h : Resumed ls s given t₀) (b : MicroBatch) :
    Resumed (ls ++ [.batch b]) (onBatch hash s b) (given ++ givenBy s.stream b) t₀ := by
  obtain ⟨past, htracks⟩ := h.tracks
  refine ⟨?_, ⟨_, htracks.microBatch b⟩, h.follows.onBatch htracks b, fun k => ?_⟩
  · rw [session_snoc_batch, streamAfter, List.foldl_append, ← streamAfter, ← h.stream]
    rfl
  · rw [session_snoc_batch, handed_snoc, ← h.handed, ← h.stream]
    -- the key was given something before, or is given something now: then the query emits it
    by_cases hex : ∃ r ∈ (microBatch s.stream b).2, windowedKey r = some k
    · obtain ⟨r, hr, hk⟩ := hex
      obtain ⟨w, a, ha, rfl⟩ := htracks.emits hr
      obtain rfl := windowedKey_windowedRow.mp hk
      exact iff_of_true (by simp [ha]) (Or.inr ⟨_, hr, hk⟩)
    · rw [totalFor_of_not_handed fun a ha => hex ⟨_, ha, windowedKey_windowedRow.mpr rfl⟩]
      exact (or_iff_left hex).symm

/-- **Every run keeps the invariant**, over the table its last start found. -/
theorem resumed_exec (hash : WindowedRow → Fin 4) (t : LiveTable) (ls : List LiveLabel) :
    ∃ t₀, Resumed ls (exec (liveStep hash) (LiveState.start t) ls)
      (givenSince StreamState.start (session ls)) t₀ := by
  refine exec_induction _ (fun ls s => ∃ t₀, Resumed ls s
    (givenSince StreamState.start (session ls)) t₀) ⟨t, resumed_start rfl t⟩ (fun ls l ih => ?_) ls
  obtain ⟨t₀, h⟩ := ih
  cases l with
  | batch b =>
    rw [session_snoc_batch, givenSince_snoc, ← streamAfter, ← h.stream]
    exact ⟨t₀, h.batch b⟩
  | restart =>
    rw [session_snoc_restart]
    exact ⟨_, resumed_start (session_snoc_restart ls) _⟩

/-! ### What a session has stored -/

/-- **Once a session has handed over a row for a key, the table holds the total since the
start**, if it still holds a row. -/
theorem Resumed.storedTotal_eq (h : Resumed ls s given t₀) {k : String × String × ℤ}
    (hhanded : Handed k (session ls)) (hrow : s.table.find k ≠ none) :
    storedTotal k s.table = ((givenTo given (tableKey k)).map Prod.fst).sum := by
  obtain ⟨row, hrow⟩ := Option.ne_none_iff_exists'.mp hrow
  obtain ⟨a, ha⟩ := Option.ne_none_iff_exists'.mp ((h.handed k).mpr hhanded)
  obtain ⟨past, htracks⟩ := h.tracks
  have hsession := h.follows k row hrow
  rw [sessionRow, ha] at hsession
  have hcount := (total_spec htracks.powers ha).2
  have hsum : a.1 = ((givenTo given (tableKey k)).map Prod.fst).sum := by
    rw [totalFor] at ha
    split at ha
    · exact absurd ha (by simp)
    · rw [← Option.some.inj ha, sum_powerSum]
  rw [storedTotal, hrow, ← Option.some.inj hsession, ← hsum]
  simp [windowedRow, hcount]

/-! ### A stored total falls only at a first upsert -/

/-- Adding powers does not make a total smaller. -/
theorem total_le_total {more : List (WindowKey × PowerSum)} {k : WindowKey} {a a' : PowerSum}
    (hmore : ∀ p ∈ more, 0 ≤ p.2.1) (ha : totalFor given k = some a)
    (ha' : totalFor (given ++ more) k = some a') : a.1 ≤ a'.1 := by
  rw [totalFor_append, ha, addTo] at ha'
  split at ha'
  · rw [Option.some.inj ha']
  · rw [← Option.some.inj ha', Option.getD_some, Prod.fst_add, sum_powerSum]
    refine le_add_of_nonneg_right (List.sum_nonneg fun x hx => ?_)
    obtain ⟨y, hy, rfl⟩ := List.mem_map.mp hx
    obtain ⟨p, hp, rfl⟩ := List.mem_map.mp hy
    exact hmore p (mem_groupRows.mp hp).1

/-- **One micro-batch**: the total of a row that stays does not fall, unless this is the
first upsert of its key. -/
theorem Resumed.storedTotal_step (h : Resumed ls s given t₀) {b : MicroBatch}
    {k : String × String × ℤ} (hold : s.table.find k ≠ none)
    (hnew : (onBatch hash s b).table.find k ≠ none) (hfirst : ¬FirstUpsert k ls b) :
    storedTotal k s.table ≤ storedTotal k (onBatch hash s b).table := by
  obtain ⟨old, hold⟩ := Option.ne_none_iff_exists'.mp hold
  obtain ⟨new, hnew⟩ := Option.ne_none_iff_exists'.mp hnew
  have h' : Resumed (ls ++ [.batch b]) (onBatch hash s b) (given ++ givenBy s.stream b) t₀ :=
    h.batch b
  have hrow := h.follows k old hold
  have hrow' := h'.follows k new hnew
  obtain ⟨past, htracks⟩ := h.tracks
  rw [storedTotal, storedTotal, hold, hnew]
  rw [sessionRow] at hrow hrow'
  by_cases hhanded : Handed k (session ls)
  · -- the session has given the key something, and this batch may add to it
    obtain ⟨a, ha⟩ := Option.ne_none_iff_exists'.mp ((h.handed k).mpr hhanded)
    have hhanded' : Handed k (session (ls ++ [.batch b])) := by
      rw [session_snoc_batch]
      exact handed_snoc.mpr (Or.inl hhanded)
    obtain ⟨a', ha'⟩ := Option.ne_none_iff_exists'.mp ((h'.handed k).mpr hhanded')
    rw [ha] at hrow
    rw [ha'] at hrow'
    rw [← Option.some.inj hrow, ← Option.some.inj hrow']
    have hc := (total_spec htracks.powers ha).2
    have hc' := (total_spec (htracks.microBatch b).powers ha').2
    simpa [windowedRow, hc, hc'] using
      total_le_total (fun p hp => (powers_givenBy s.stream b p hp).1) ha ha'
  · -- the row is still the one the session has found
    have hhanded' : ¬Handed k (session (ls ++ [.batch b])) := by
      rw [session_snoc_batch]
      exact fun hc => hfirst ⟨hc, hhanded⟩
    have ha := not_not.mp (mt (h.handed k).mp hhanded)
    have ha' := not_not.mp (mt (h'.handed k).mp hhanded')
    rw [ha] at hrow
    rw [ha'] at hrow'
    rw [Option.some.inj (hrow.symm.trans hrow')]

end Run

/-- **A stored total never falls while its row stays**, but for the first upsert of the
key after a start. -/
theorem storedTotal_le (hash : WindowedRow → Fin 4) (t : LiveTable) (pre mid : List LiveLabel)
    (k : String × String × ℤ)
    (hstays : ∀ p q, mid = p ++ q →
      (exec (liveStep hash) (LiveState.start t) (pre ++ p)).table.find k ≠ none)
    (hfirst : ∀ p b q, mid = p ++ .batch b :: q → ¬FirstUpsert k (pre ++ p) b) :
    storedTotal k (exec (liveStep hash) (LiveState.start t) pre).table ≤
      storedTotal k (exec (liveStep hash) (LiveState.start t) (pre ++ mid)).table := by
  induction mid using List.reverseRecOn with
  | nil => simp
  | append_singleton mid l ih =>
    have hle := ih (fun p q hpq => hstays p (q ++ [l]) (by rw [hpq, List.append_assoc]))
      fun p b q hpq => hfirst p b (q ++ [l]) (by rw [hpq, List.append_assoc]; rfl)
    refine hle.trans ?_
    have hold := hstays mid [l] rfl
    have hnew := hstays (mid ++ [l]) [] (by simp)
    obtain ⟨t₀, h⟩ := resumed_exec hash t (pre ++ mid)
    rw [← List.append_assoc, exec_append _ _ (pre ++ mid), exec_cons, exec_nil] at hnew ⊢
    generalize exec (liveStep hash) (LiveState.start t) (pre ++ mid) = s at h hold hnew ⊢
    cases l with
    | batch b => exact h.storedTotal_step hold hnew (hfirst mid b [] rfl)
    | restart => exact le_rfl

/-- **What restarts do to a stored total**, in every run and over every table: while its row
stays, it never falls but at the first upsert of its key after a start; and from that upsert on
it is the total since the start. -/
theorem storedTotal_of_restarts (hash : WindowedRow → Fin 4) (t : LiveTable)
    (k : String × String × ℤ) :
    (∀ pre mid : List LiveLabel,
      (∀ p q, mid = p ++ q →
        (exec (liveStep hash) (LiveState.start t) (pre ++ p)).table.find k ≠ none) →
      (∀ p b q, mid = p ++ .batch b :: q → ¬FirstUpsert k (pre ++ p) b) →
      storedTotal k (exec (liveStep hash) (LiveState.start t) pre).table ≤
        storedTotal k (exec (liveStep hash) (LiveState.start t) (pre ++ mid)).table) ∧
    ∀ ls : List LiveLabel, Handed k (session ls) →
      (exec (liveStep hash) (LiveState.start t) ls).table.find k ≠ none →
      storedTotal k (exec (liveStep hash) (LiveState.start t) ls).table =
        totalSince k (session ls) := by
  refine ⟨fun pre mid => storedTotal_le hash t pre mid k, fun ls hhanded hrow => ?_⟩
  obtain ⟨t₀, h⟩ := resumed_exec hash t ls
  exact h.storedTotal_eq hhanded hrow

/-- A micro-batch with two events of the refrigerator. -/
def noon : MicroBatch :=
  ⟨minutes 60, [fridgeReading (minutes 59) 150, fridgeReading (minutes 58) 140]⟩

/-- A later one, of the same window. -/
def pastNoon : MicroBatch := ⟨minutes 61, [fridgeReading (minutes 60) 130]⟩

/-- With a restart between the two, the row of the window that ends at minute 62 stays,
and its total falls from 290 to 130. -/
theorem storedTotal_falls :
    (∀ ls ∈ [[.batch noon], [.batch noon, .restart], [.batch noon, .restart, .batch pastNoon]],
      (exec (liveStep fun _ => 0) (LiveState.start .empty) ls).table.find
        ("Kitchen", "Critical_Appliance", minutes 62) ≠ none) ∧
      storedTotal ("Kitchen", "Critical_Appliance", minutes 62)
          (exec (liveStep fun _ => 0) (LiveState.start .empty)
            [.batch noon, .restart, .batch pastNoon]).table <
        storedTotal ("Kitchen", "Critical_Appliance", minutes 62)
          (exec (liveStep fun _ => 0) (LiveState.start .empty) [.batch noon]).table := by
  decide +kernel

/-- Without one, it rises; and what the restart leaves of it is the power of the event since. -/
theorem storedTotal_of_restarts_noon :
    storedTotal ("Kitchen", "Critical_Appliance", minutes 62)
        (exec (liveStep fun _ => 0) (LiveState.start .empty) [.batch noon]).table ≤
      storedTotal ("Kitchen", "Critical_Appliance", minutes 62)
        (exec (liveStep fun _ => 0) (LiveState.start .empty)
          ([.batch noon] ++ [.batch pastNoon])).table ∧
    storedTotal ("Kitchen", "Critical_Appliance", minutes 62)
        (exec (liveStep fun _ => 0) (LiveState.start .empty)
          [.batch noon, .restart, .batch pastNoon]).table =
      totalSince ("Kitchen", "Critical_Appliance", minutes 62) [pastNoon] ∧
    totalSince ("Kitchen", "Critical_Appliance", minutes 62) [pastNoon] = 130 := by
  obtain ⟨hle, hsince⟩ := storedTotal_of_restarts (fun _ => 0) .empty
    ("Kitchen", "Critical_Appliance", minutes 62)
  refine ⟨hle [.batch noon] [.batch pastNoon] ?_ ?_, hsince [.batch noon, .restart, .batch pastNoon]
    ⟨[], pastNoon, [], rfl, by decide +kernel⟩ (by decide +kernel), by decide +kernel⟩
  · intro p q hpq
    rcases p with _ | ⟨l, _ | ⟨l', p⟩⟩
    · decide +kernel
    · obtain rfl := (List.cons.inj hpq).1
      decide +kernel
    · exact absurd (congrArg List.length hpq) (by simp)
  · rintro p b q hpq ⟨-, hfirst⟩
    rcases p with _ | ⟨l, p⟩
    · exact hfirst ⟨[], noon, [], rfl, by decide +kernel⟩
    · exact absurd (congrArg List.length hpq) (by simp)

end SmartHomeEnergy
