import SmartHomeEnergy.Dashboard.Operation

/-!
# The badges of the live view

Next to the cost of a device type the dashboard puts a badge: the limit is exceeded, kept, or not
specified. The limit comes from a query that takes the largest of all thresholds whose name fits
the type, and the thresholds from a form that replaces those of one user and may fail; the cost
comes from a stream that drops, restarts and purges.

Whatever these programs have done, the badges that are rendered are those of the last saved form
(`SmartHomeEnergy.badges_sound`): **a limit is exceeded when there is a positive one, and the cost
is above all of them**, be they for the type or for any name that fits it; it is kept when the cost
is not above some positive one; and it is not specified when none is positive. In particular a limit
of a twentieth of what the stream lets through of a type is never exceeded.
-/

namespace SmartHomeEnergy

open Numeric Relational Streaming Transition

/-! ### A badge -/

/-- The badge of a device type in `index.html`. -/
inductive LimitBadge
  | exceeded
  | safe
  | unspecified
  deriving DecidableEq

/-- The conditions of the template; `|float` makes zero of a missing value. -/
def limitBadge (v : ViolatedDevice) : LimitBadge :=
  match v.max10minLimit with
  | some limit =>
    if 0 < limit then
      if limit < v.current10minCost.getD 0 then .exceeded else .safe
    else .unspecified
  | none => .unspecified

section Badge

variable {lower : String → String} {limits : List LimitRow} {d : String} {c x : ℚ}
  {v : ViolatedDevice}

/-- A limit is saved under a name that fits the device type. -/
def LimitFor (lower : String → String) (limits : List LimitRow) (d : String) (x : ℚ) : Prop :=
  ∃ t ∈ limits, Concerns lower (some d) t ∧ t.maxPriceLimitUsd = some x

/-- **A badge fits** the limits for a device type and its cost. -/
structure BadgeFits (lower : String → String) (limits : List LimitRow) (d : String) (c : ℚ)
    (badge : LimitBadge) : Prop where
  exceeded : badge = .exceeded ↔
    (∃ x, LimitFor lower limits d x ∧ 0 < x) ∧ ∀ x, LimitFor lower limits d x → x < c
  safe : badge = .safe ↔ ∃ x, LimitFor lower limits d x ∧ 0 < x ∧ c ≤ x
  unspecified : badge = .unspecified ↔ ∀ x, LimitFor lower limits d x → x ≤ 0
  generous : ∀ x, LimitFor lower limits d x → (liveCap d : ℚ) / 20 ≤ x → badge = .safe

theorem liveCap_pos (d : String) : 0 < liveCap d := by
  unfold liveCap
  split_ifs <;> norm_num

/-- The joined limit is the largest one for the device type. -/
theorem joinedLimit_eq_some {m : ℚ} : joinedLimit lower limits (some d) = some m ↔
    LimitFor lower limits d m ∧ ∀ x, LimitFor lower limits d x → x ≤ m := by
  rw [joinedLimit, nullMax_eq_some]
  simp only [some_mem_limits, LimitFor]

theorem joinedLimit_eq_none :
    joinedLimit lower limits (some d) = none ↔ ∀ x, ¬LimitFor lower limits d x := by
  constructor
  · intro hnone x hx
    obtain ⟨m, hm, -⟩ := exists_nullMax_of_mem (some_mem_limits.mpr hx)
    exact absurd (hnone.symm.trans hm) (by simp)
  · intro hnot
    refine Option.eq_none_iff_forall_ne_some.mpr fun m hm => ?_
    exact hnot m (joinedLimit_eq_some.mp hm).1

/-- No limit is positive. -/
theorem badgeFits_unspecified (hnone : ∀ x, LimitFor lower limits d x → x ≤ 0) :
    BadgeFits lower limits d c .unspecified where
  exceeded := iff_of_false (by simp) fun ⟨⟨x, hx, hx0⟩, _⟩ => absurd hx0 (not_lt.mpr (hnone x hx))
  safe := iff_of_false (by simp) fun ⟨x, hx, hx0, _⟩ => absurd hx0 (not_lt.mpr (hnone x hx))
  unspecified := iff_of_true rfl hnone
  generous x hx hcap := by
    have hpos : (0 : ℚ) < liveCap d := Nat.cast_pos.mpr (liveCap_pos d)
    linarith [hnone x hx]

/-- A limit is positive, and all are below the cost. -/
theorem badgeFits_exceeded (hx : LimitFor lower limits d x) (hx0 : 0 < x)
    (hall : ∀ y, LimitFor lower limits d y → y < c) (hcap : c ≤ liveCap d / 20) :
    BadgeFits lower limits d c .exceeded where
  exceeded := iff_of_true rfl ⟨⟨x, hx, hx0⟩, hall⟩
  safe := iff_of_false (by simp) fun ⟨y, hy, _, hle⟩ => absurd (hall y hy) (not_lt.mpr hle)
  unspecified := iff_of_false (by simp) fun hnone => absurd hx0 (not_lt.mpr (hnone x hx))
  generous y hy hle := absurd ((hall y hy).trans_le hcap) (not_lt.mpr hle)

/-- A positive limit is not below the cost. -/
theorem badgeFits_safe (hx : LimitFor lower limits d x) (hx0 : 0 < x) (hle : c ≤ x) :
    BadgeFits lower limits d c .safe where
  exceeded := iff_of_false (by simp) fun ⟨_, hall⟩ => absurd (hall x hx) (not_lt.mpr hle)
  safe := iff_of_true rfl ⟨x, hx, hx0, hle⟩
  unspecified := iff_of_false (by simp) fun hnone => absurd hx0 (not_lt.mpr (hnone x hx))
  generous _ _ _ := rfl

/-- **The badge fits**, when the cost is at most a twentieth of the cap. -/
theorem badgeFits_of_joinedLimit (hlimit : v.max10minLimit = joinedLimit lower limits (some d))
    (hcost : v.current10minCost = some c) (hcap : c ≤ liveCap d / 20) :
    BadgeFits lower limits d c (limitBadge v) := by
  rw [limitBadge, hlimit, hcost]
  cases hm : joinedLimit lower limits (some d) with
  | none => exact badgeFits_unspecified fun x hx => absurd hx (joinedLimit_eq_none.mp hm x)
  | some m =>
    obtain ⟨hmem, hmax⟩ := joinedLimit_eq_some.mp hm
    simp only [Option.getD_some]
    rcases lt_or_ge 0 m with hm0 | hm0
    · rw [if_pos hm0]
      rcases lt_or_ge m c with hlt | hge
      · rw [if_pos hlt]
        exact badgeFits_exceeded hmem hm0 (fun x hx => (hmax x hx).trans_lt hlt) hcap
      · rw [if_neg (not_lt.mpr hge)]
        exact badgeFits_safe hmem hm0 hge
    · rw [if_neg (not_lt.mpr hm0)]
      exact badgeFits_unspecified fun x hx => (hmax x hx).trans hm0

end Badge

/-! ### The badges of a running house -/

/-- The columns of a threshold that the query of the live view reads. -/
def ThresholdRow.toLimitRow (row : ThresholdRow) : LimitRow :=
  ⟨row.deviceName, row.maxPriceLimitUsd⟩

/-- The limits there are after a form: its own, and those that other users had. -/
def limitsOf (form : PreferencesForm) (d : PreferenceDatabase) : List LimitRow :=
  (submitted form).map (fun entry => ⟨some entry.1, some entry.2⟩) ++
    (foreignRows d).2.map ThresholdRow.toLimitRow

section Running

variable {D : Type} [DecidableEq D] {d d₀ : PreferenceDatabase} {form : PreferencesForm}
  {lower : String → String} {v : ViolatedDevice} {shown : DashboardContext}

omit [DecidableEq D] in
/-- The thresholds in the tables are the limits of the form. -/
theorem mem_limitsOf (hform : HoldsForm form d) (hforeign : foreignRows d = foreignRows d₀)
    {limit : LimitRow} :
    limit ∈ d.deviceThresholds.map ThresholdRow.toLimitRow ↔ limit ∈ limitsOf form d₀ := by
  have hown : (submitted form).map (fun entry => (⟨some entry.1, some entry.2⟩ : LimitRow)) =
      (d.deviceThresholds.filter fun row => row.userId = some 1).map ThresholdRow.toLimitRow := by
    rw [hform.thresholds, List.map_map]
    rfl
  rw [limitsOf, hown, ← hforeign, ← List.map_append, foreignRows]
  have hsplit := List.filter_append_perm (fun row : ThresholdRow => decide (row.userId = some 1))
    d.deviceThresholds
  simp only [← decide_not] at hsplit
  exact ((hsplit.map ThresholdRow.toLimitRow).mem_iff).symm

/-- Limits that are the same rows are the same for every device type. -/
theorem limitFor_congr {limits limits' : List LimitRow} (lower : String → String)
    (h : ∀ limit, limit ∈ limits ↔ limit ∈ limits') (type : String) (x : ℚ) :
    LimitFor lower limits type x ↔ LimitFor lower limits' type x :=
  exists_congr fun t => and_congr_left' (h t)

/-- What is shown of a device type comes with the largest limit that fits it. -/
theorem max10minLimit_of_shown {rows : List WindowedRow} {limits : List LimitRow} {raises : Bool}
    (hv : v ∈ getViolatedDevices lower raises rows limits) :
    v.max10minLimit = joinedLimit lower limits v.deviceName := by
  rw [getViolatedDevices] at hv
  split at hv
  next => exact absurd hv List.not_mem_nil
  next =>
    obtain ⟨k, -, rfl⟩ := mem_groupBy.mp ((devicesSummary_perm lower rows limits).mem_iff.mp hv)
    rfl

/-- **The badges are those of the last saved form**, whatever the notebooks, the stream, the panel
and the form have done, in whatever order and with whatever failures, and whatever queries of the
page raise. -/
theorem badges_sound (constraints : List (List Column)) (time : SparkTime D)
    (fromJson : String → Reading String) (hash : WindowedRow → Fin 4) (devices : DevicesStatus)
    (preferences : PreferenceDatabase) (hrow : ∃ row ∈ preferences.userPreferences, row.id = 1)
    (es : List (PlatformEvent D)) (form : PreferencesForm)
    (hform : LastSaved (es.filterMap PlatformEvent.form?) form)
    (electricityPrices : List PriceRow) (fails : DashboardQuery → Bool) (toChar : D → String)
    (lower : String → String) (yearMonth : String) (hour : ℕ) (metabaseUrl : Option String) :
    let s := exec (platformStep constraints time fromJson hash) (.start devices preferences) es
    ∀ shown ∈ getDashboardPage fails (s.tables electricityPrices) toChar lower yearMonth hour
        metabaseUrl, ∀ v ∈ shown.violatedDevices, ∃ type cost, v.deviceName = some type ∧
      v.current10minCost = some cost ∧
        BadgeFits lower (limitsOf form preferences) type cost (limitBadge v) := by
  intro s shown hshown v hv
  have hs : s = _ := tables_exec constraints time fromJson hash (.start devices preferences) es
  have hsaved : HoldsForm form s.preferences := by
    rw [hs]
    exact holdsForm_of_lastSaved hrow hform
  have hforeign : foreignRows s.preferences = foreignRows preferences := by
    rw [hs]
    exact (exec_preferenceStep_frame hrow _).2
  have hlive : ∀ r ∈ s.live.table.rows, Bounded r := fun r hr => by
    rw [hs] at hr
    exact ((runsFaulty_exec hash _).rows r hr).bounded
  obtain ⟨target, htarget⟩ := exists_boundBudget (Option.mem_def.mp hshown)
  rw [getDashboardPage_eq metabaseUrl htarget] at hshown
  obtain rfl := Option.some.inj hshown
  obtain ⟨type, cost, hname, hcost, -, hcap⟩ :=
    (getViolatedDevices_spec hlive lower _ _).2 v hv
  have hlimit := max10minLimit_of_shown hv
  have hmem : ∀ limit, limit ∈ limitsOf form preferences ↔
      limit ∈ (s.tables electricityPrices).deviceThresholds := fun limit =>
    (mem_limitsOf hsaved hforeign).symm
  have hsame : joinedLimit lower (limitsOf form preferences) (some type) =
      joinedLimit lower (s.tables electricityPrices).deviceThresholds (some type) := by
    refine Option.ext fun m => ?_
    simp only [joinedLimit_eq_some, limitFor_congr lower hmem]
  refine ⟨type, cost, hname, hcost, badgeFits_of_joinedLimit ?_ hcost hcap⟩
  rw [hsame, hlimit, hname]

end Running

/-- A form with a limit for critical appliances, and a reading of the refrigerator. -/
def limitedMorning : List (PlatformEvent String) :=
  [.form (⟨80, true, ["Critical_Appliance"], [5]⟩, fun _ => false),
    .stream (.batch ⟨minutes 60, [fridgeReading (minutes 59) 300]⟩ (fun _ => none) none)]

/-- Fifteen is above the limit of five. -/
theorem badges_sound_limitedMorning :
    let s := exec (platformStep [analyticsTarget] isoTime fridgeAt fun _ => 0)
      (.start kitchen.table savedBudget) limitedMorning
    let page := getDashboardPage (fun _ => false) (s.tables []) (fun _ => "2026-01") asciiLower
      "2026-01" 12 none
    page.map (fun shown => shown.violatedDevices.map limitBadge) = some [.exceeded] ∧
      ∀ shown ∈ page, ∀ v ∈ shown.violatedDevices, ∃ type cost, v.deviceName = some type ∧
        v.current10minCost = some cost ∧
          BadgeFits asciiLower (limitsOf ⟨80, true, ["Critical_Appliance"], [5]⟩ savedBudget) type
            cost (limitBadge v) := by
  have hrow : ∃ row ∈ savedBudget.userPreferences, row.id = 1 := by simp [savedBudget]
  have hsaves : Saves (⟨80, true, ["Critical_Appliance"], [5]⟩, fun _ => false) := by
    refine ⟨by simp, ?_⟩
    rintro (h | h | ⟨k, entry, -, -, h⟩ | h) <;> simp at h
  have hlast : LastSaved (limitedMorning.filterMap PlatformEvent.form?)
      ⟨80, true, ["Critical_Appliance"], [5]⟩ := ⟨[], _, [], rfl, hsaves, rfl, by simp⟩
  exact ⟨by decide +kernel, badges_sound [analyticsTarget] isoTime fridgeAt (fun _ => 0)
    kitchen.table savedBudget hrow limitedMorning _ hlast [] (fun _ => false) (fun _ => "2026-01")
    asciiLower "2026-01" 12 none⟩

end SmartHomeEnergy
