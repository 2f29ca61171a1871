import Mathlib.Tactic.Linarith
import SmartHomeEnergy.Relational.Frame

/-!
# What the model is trained on, and what it is asked

`ml_data.ipynb` trains the model on `spark_windowed_energy`, with a column of zeros and ones
for every zone and every device type, and stores the names of the columns with the model.
`ai_report_generator.ipynb` builds a row of its own for a zone and a device type: it writes
down the two ones, inserts what is missing with zero, and selects the stored names. Whatever
goes wrong there is caught, and the model is then passed over without a word.

Nothing goes wrong (`SmartHomeEnergy.predictInput_eq`): the columns of the hour, of the zones
and of the types have names that cannot be confused, so the row that the model is asked for is
the row it was trained on (`SmartHomeEnergy.encoders_agree`), and a zone or a type it does not
know is a block of zeros.
-/

namespace SmartHomeEnergy

open Relational

/-! ### Training -/

/-- A row of `fetch_historical_data_with_spark`. -/
structure TrainingRow where
  hour : ℕ
  zone : String
  deviceType : String
  avgPowerWatts : ℚ

/-- The rows, as a data frame. -/
def historicalData (rows : List TrainingRow) : Frame :=
  [("hour", rows.map fun r => .number r.hour), ("zone", rows.map fun r => .text r.zone),
    ("device_type", rows.map fun r => .text r.deviceType),
    ("avg_power_watts", rows.map fun r => .number r.avgPowerWatts)]

/-- `df_encoded`. -/
def dfEncoded (rows : List TrainingRow) : Option Frame :=
  Frame.getDummies ["zone", "device_type"] (historicalData rows)

/-- `X`: what the model is trained on. -/
def trainingFeatures (rows : List TrainingRow) : Option Frame :=
  (dfEncoded rows).map (Frame.drop ["avg_power_watts"])

/-- A trained model: the names it was trained on, and its prediction for a frame of one row,
which may raise. -/
structure Model where
  featureNames : List String
  predict : Frame → Option ℚ

/-- `train_predictive_model`; the regressor, and the choice of the rows it is fitted to, are
the first argument. Fitting may raise, and there is no model then. -/
def trainPredictiveModel (fit : Frame → List Cell → Option (Frame → Option ℚ))
    (rows : List TrainingRow) : Option Model :=
  if rows.length < 5 then none
  else (dfEncoded rows).bind fun encoded =>
    let x := encoded.drop ["avg_power_watts"]
    (encoded.column "avg_power_watts").bind fun y => (fit x y).map fun predict => ⟨x.names, predict⟩

/-! ### Prediction -/

/-- A value in an f-string. -/
def formatted (s : Option String) : String := s.getD "None"

/-- The frame of one row, before it is filled up. -/
def inputData (hour : ℕ) (zone deviceType : String) : Frame :=
  [("hour", [.number hour]), ("zone_" ++ zone, [.number 1]),
    ("device_type_" ++ deviceType, [.number 1])]

/-- `input_data`, as it is handed to the model. -/
def predictInput (featureNames : List String) (hour : ℕ) (zone deviceType : String) :
    Option Frame :=
  ((inputData hour zone deviceType).fill (.number 0) featureNames).select featureNames

/-- `predict_smart_threshold`: the fallback without a model, and when anything raises. -/
def predictSmartThreshold (model : Option Model) (hour : ℕ) (zone deviceType : Option String)
    (fallbackWatts : Option ℚ) : Option ℚ :=
  match model with
  | none => fallbackWatts
  | some m =>
    match (predictInput m.featureNames hour (formatted zone) (formatted deviceType)).bind
      m.predict with
    | some predictedWatts => some predictedWatts
    | none => fallbackWatts

/-! ### The columns -/

/-- The zones of the training rows, in the order of their columns. -/
def zones (rows : List TrainingRow) : List String :=
  Frame.categories (rows.map fun r => .text r.zone)

/-- The device types of the training rows, in the order of their columns. -/
def deviceTypes (rows : List TrainingRow) : List String :=
  Frame.categories (rows.map fun r => .text r.deviceType)

/-- **The encoding** of an hour, a zone and a device type over the training rows. -/
def encoding (rows : List TrainingRow) (hour : ℕ) (zone deviceType : String) :
    List (String × Cell) :=
  ("hour", .number hour) ::
    ((zones rows).map (fun z => ("zone_" ++ z, Cell.indicator (z = zone))) ++
      (deviceTypes rows).map fun t => ("device_type_" ++ t, Cell.indicator (t = deviceType)))

/-- The names that are stored with a model of the rows. -/
def featureNames (rows : List TrainingRow) : List String :=
  "hour" :: ((zones rows).map (fun z => "zone_" ++ z) ++
    (deviceTypes rows).map fun t => "device_type_" ++ t)

section Columns

variable {rows : List TrainingRow} {hour : ℕ} {zone deviceType : String}

theorem ne_of_head {s t : String} (h : s.toList.head? ≠ t.toList.head?) : s ≠ t := by
  rintro rfl
  exact h rfl

/-- **The names cannot be confused**: a column of a zone is not one of a device type. -/
theorem zone_ne_deviceType (z t : String) : "zone_" ++ z ≠ "device_type_" ++ t :=
  ne_of_head (by simp [String.toList_append])

theorem hour_ne_zone (z : String) : "hour" ≠ "zone_" ++ z :=
  ne_of_head (by simp [String.toList_append])

theorem hour_ne_deviceType (t : String) : "hour" ≠ "device_type_" ++ t :=
  ne_of_head (by simp [String.toList_append])

theorem zone_ne_avgPower (z : String) : "zone_" ++ z ≠ "avg_power_watts" :=
  ne_of_head (by simp [String.toList_append])

theorem deviceType_ne_avgPower (t : String) : "device_type_" ++ t ≠ "avg_power_watts" :=
  ne_of_head (by simp [String.toList_append])

theorem append_left_inj (s : String) {a b : String} : s ++ a = s ++ b ↔ a = b := by
  constructor
  · intro h
    have hchars := congrArg String.toList h
    rw [String.toList_append, String.toList_append, List.append_cancel_left_eq] at hchars
    exact String.toList_inj.mp hchars
  · rintro rfl
    rfl

/-- The columns after `get_dummies`. -/
theorem dfEncoded_eq (rows : List TrainingRow) : dfEncoded rows =
    some (("hour", rows.map fun r => .number r.hour) ::
      ("avg_power_watts", rows.map fun r => .number r.avgPowerWatts) ::
      ((zones rows).map (fun z => ("zone_" ++ z, rows.map fun r => Cell.indicator (r.zone = z))) ++
        (deviceTypes rows).map fun t =>
          ("device_type_" ++ t, rows.map fun r => Cell.indicator (r.deviceType = t)))) := by
  have hzone : (historicalData rows).column "zone" = some (rows.map fun r => .text r.zone) := rfl
  have htype : (historicalData rows).column "device_type" =
      some (rows.map fun r => .text r.deviceType) := rfl
  have hdrop : (historicalData rows).drop ["zone", "device_type"] =
      [("hour", rows.map fun r => .number r.hour),
        ("avg_power_watts", rows.map fun r => .number r.avgPowerWatts)] := rfl
  rw [dfEncoded, Frame.getDummies, List.mapM_cons, List.mapM_cons, List.mapM_nil, hzone, htype,
    hdrop]
  simp only [Option.map_some, Option.pure_def, Option.bind_eq_bind, Option.bind_some,
    Frame.dummies, List.flatten_cons, List.flatten_nil, List.append_nil, List.cons_append,
    List.nil_append, List.map_map, zones, deviceTypes]
  simp [Function.comp_def, Cell.toText]

/-- What the model is trained on: the hours, and the indicators of the zones and of the
types. -/
theorem trainingFeatures_eq (rows : List TrainingRow) : trainingFeatures rows =
    some (("hour", rows.map fun r => .number r.hour) ::
      ((zones rows).map (fun z => ("zone_" ++ z, rows.map fun r => Cell.indicator (r.zone = z))) ++
        (deviceTypes rows).map fun t =>
          ("device_type_" ++ t, rows.map fun r => Cell.indicator (r.deviceType = t)))) := by
  rw [trainingFeatures, dfEncoded_eq, Option.map_some, Frame.drop,
    List.filter_cons_of_pos (by simp), List.filter_cons_of_neg (by simp),
    List.filter_eq_self.mpr]
  intro c hc
  rcases List.mem_append.mp hc with hc | hc
  · obtain ⟨z, -, rfl⟩ := List.mem_map.mp hc
    simp [zone_ne_avgPower]
  · obtain ⟨t, -, rfl⟩ := List.mem_map.mp hc
    simp [deviceType_ne_avgPower]

theorem column_inputData_hour :
    (inputData hour zone deviceType).column "hour" = some [.number hour] := by
  simp [Frame.column, inputData]

/-- The column of a zone is there for the zone that is asked for. -/
theorem column_inputData_zone (z : String) :
    (inputData hour zone deviceType).column ("zone_" ++ z) =
      if z = zone then some [.number 1] else none := by
  simp only [Frame.column, inputData, List.find?_cons, List.find?_nil,
    (zone_ne_deviceType _ _).symm, hour_ne_zone, append_left_inj, eq_comm (a := zone)]
  by_cases hz : z = zone <;> simp [hz]

theorem column_inputData_deviceType (t : String) :
    (inputData hour zone deviceType).column ("device_type_" ++ t) =
      if t = deviceType then some [.number 1] else none := by
  simp only [Frame.column, inputData, List.find?_cons, List.find?_nil, zone_ne_deviceType,
    hour_ne_deviceType, append_left_inj, eq_comm (a := deviceType)]
  by_cases ht : t = deviceType <;> simp [ht]

/-- **The row the model is asked for** is the encoding, in the order of the names. -/
theorem predictInput_eq (rows : List TrainingRow) (hour : ℕ) (zone deviceType : String) :
    predictInput (featureNames rows) hour zone deviceType =
      some ((encoding rows hour zone deviceType).map fun c => (c.1, [c.2])) := by
  have hone : ∀ (p : Prop) [Decidable p],
      (if p then some [Cell.number 1] else none).getD [Cell.number 0] = [Cell.indicator p] := by
    intro p _
    by_cases hp : p <;> simp [hp, Cell.indicator]
  rw [predictInput, Frame.select_fill _ (by simp [inputData])]
  simp only [featureNames, encoding, List.map_cons, List.map_append, List.map_map,
    Function.comp_def, column_inputData_hour, column_inputData_zone, column_inputData_deviceType]
  simp [Frame.height, inputData, hone]

theorem mem_zones {z : String} : z ∈ zones rows ↔ ∃ r ∈ rows, r.zone = z := by
  simp [zones, Frame.mem_categories]

theorem mem_deviceTypes {t : String} : t ∈ deviceTypes rows ↔ ∃ r ∈ rows, r.deviceType = t := by
  simp [deviceTypes, Frame.mem_categories]

theorem names_trainingFeatures {features : Frame} (h : trainingFeatures rows = some features) :
    features.names = featureNames rows := by
  rw [trainingFeatures_eq] at h
  simp [← Option.some.inj h, featureNames, Frame.names, Function.comp_def]

/-- No two columns have one name. -/
theorem nodup_featureNames (rows : List TrainingRow) : (featureNames rows).Nodup := by
  have hprefixed : ∀ (s : String) (cells : List Cell),
      ((Frame.categories cells).map fun z => s ++ z).Nodup := fun s cells =>
    (Frame.nodup_categories cells).map fun a b hab => (append_left_inj s).mp hab
  refine List.nodup_cons.mpr ⟨?_, List.nodup_append.mpr ⟨hprefixed _ _, hprefixed _ _, ?_⟩⟩
  · intro hmem
    rcases List.mem_append.mp hmem with hmem | hmem
    · obtain ⟨z, -, hz⟩ := List.mem_map.mp hmem
      exact hour_ne_zone z hz.symm
    · obtain ⟨t, -, ht⟩ := List.mem_map.mp hmem
      exact hour_ne_deviceType t ht.symm
  · rintro _ hz _ ht rfl
    obtain ⟨z, -, rfl⟩ := List.mem_map.mp hz
    obtain ⟨t, -, ht⟩ := List.mem_map.mp ht
    exact zone_ne_deviceType z t ht.symm

/-- What is stored of a model: the names of the columns it was trained on. -/
theorem trainPredictiveModel_eq (fit : Frame → List Cell → Option (Frame → Option ℚ))
    (rows : List TrainingRow) : trainPredictiveModel fit rows =
      if rows.length < 5 then none
      else (trainingFeatures rows).bind fun x =>
        (fit x (rows.map fun r => .number r.avgPowerWatts)).map (Model.mk (featureNames rows)) := by
  obtain ⟨encoded, hencoded⟩ : ∃ encoded, dfEncoded rows = some encoded := ⟨_, dfEncoded_eq rows⟩
  have hy : encoded.column "avg_power_watts" =
      some (rows.map fun r => .number r.avgPowerWatts) := by
    rw [dfEncoded_eq] at hencoded
    rw [← Option.some.inj hencoded, Frame.column, List.find?_cons_of_neg (by simp),
      List.find?_cons_of_pos (by simp), Option.map_some]
  have hx : trainingFeatures rows = some (encoded.drop ["avg_power_watts"]) := by
    rw [trainingFeatures, hencoded, Option.map_some]
  rw [trainPredictiveModel, hencoded, hx, Option.bind_some, Option.bind_some, hy, Option.bind_some,
    names_trainingFeatures hx]

theorem featureNames_of_trained {fit : Frame → List Cell → Option (Frame → Option ℚ)}
    {model : Model} (h : trainPredictiveModel fit rows = some model) :
    model.featureNames = featureNames rows := by
  rw [trainPredictiveModel_eq] at h
  split at h
  next => exact absurd h (by simp)
  next =>
    obtain ⟨x, -, h⟩ := Option.bind_eq_some_iff.mp h
    obtain ⟨predict, -, rfl⟩ := Option.map_eq_some_iff.mp h
    rfl

/-- A training row is trained on as its encoding. -/
theorem row_trainingFeatures {features : Frame} (h : trainingFeatures rows = some features)
    {i : ℕ} {r : TrainingRow} (hi : rows[i]? = some r) :
    features.row i = (encoding rows r.hour r.zone r.deviceType).map fun c => (c.1, some c.2) := by
  rw [trainingFeatures_eq] at h
  simp [← Option.some.inj h, Frame.row, encoding, hi, Function.comp_def, eq_comm]

end Columns

/-! ### The two encoders -/

/-- **The two encoders agree** on an hour, a zone and a device type: the frame the model was
trained on, and the frame of one row it is asked for. -/
structure EncodersAgree (rows : List TrainingRow) (model : Model) (hour : ℕ)
    (zone deviceType : String) (features input : Frame) : Prop where
  trained : trainingFeatures rows = some features
  asked : predictInput model.featureNames hour zone deviceType = some input
  trainedNames : features.names = model.featureNames
  askedNames : input.names = model.featureNames
  distinct : model.featureNames.Nodup
  oneRow : ∀ c ∈ input, c.2.length = 1
  /-- The hour, the indicator of the zone and the indicator of the type. -/
  values : input.row 0 = (encoding rows hour zone deviceType).map fun c => (c.1, some c.2)
  /-- The model is asked for this row; the fallback is left for what it cannot answer. -/
  threshold : ∀ fallbackWatts, predictSmartThreshold (some model) hour (some zone)
    (some deviceType) fallbackWatts = (model.predict input).or fallbackWatts
  seen : ∀ (i : ℕ) (r : TrainingRow), rows[i]? = some r → r.hour = hour → r.zone = zone →
    r.deviceType = deviceType → features.row i = input.row 0
  unseenZone : (∀ r ∈ rows, r.zone ≠ zone) →
    ∀ r ∈ rows, ("zone_" ++ r.zone, some (Cell.number 0)) ∈ input.row 0
  unseenDeviceType : (∀ r ∈ rows, r.deviceType ≠ deviceType) →
    ∀ r ∈ rows, ("device_type_" ++ r.deviceType, some (Cell.number 0)) ∈ input.row 0

/-- The encoding has an entry for every zone of the rows. -/
theorem mem_encoding_of_zone {rows : List TrainingRow} {r : TrainingRow} (hr : r ∈ rows)
    (hour : ℕ) (zone deviceType : String) :
    ("zone_" ++ r.zone, Cell.indicator (r.zone = zone)) ∈ encoding rows hour zone deviceType :=
  List.mem_cons_of_mem _ (List.mem_append_left _
    (List.mem_map.mpr ⟨_, mem_zones.mpr ⟨r, hr, rfl⟩, rfl⟩))

/-- And one for every device type of the rows. -/
theorem mem_encoding_of_deviceType {rows : List TrainingRow} {r : TrainingRow} (hr : r ∈ rows)
    (hour : ℕ) (zone deviceType : String) :
    ("device_type_" ++ r.deviceType, Cell.indicator (r.deviceType = deviceType)) ∈
      encoding rows hour zone deviceType :=
  List.mem_cons_of_mem _ (List.mem_append_right _
    (List.mem_map.mpr ⟨_, mem_deviceTypes.mpr ⟨r, hr, rfl⟩, rfl⟩))

/-- **Training and prediction encode alike**, whatever the model is asked for: the row is the
row it was trained on, and what it has not seen is a block of zeros. -/
theorem encoders_agree (fit : Frame → List Cell → Option (Frame → Option ℚ))
    {rows : List TrainingRow} {model : Model} (hmodel : trainPredictiveModel fit rows = some model)
    (hour : ℕ) (zone deviceType : String) :
    ∃ features input, EncodersAgree rows model hour zone deviceType features input := by
  obtain ⟨features, hfeatures⟩ : ∃ features, trainingFeatures rows = some features :=
    ⟨_, trainingFeatures_eq rows⟩
  have hasked : predictInput model.featureNames hour zone deviceType =
      some ((encoding rows hour zone deviceType).map fun c => (c.1, [c.2])) := by
    rw [featureNames_of_trained hmodel, predictInput_eq]
  have hvalues : Frame.row ((encoding rows hour zone deviceType).map fun c => (c.1, [c.2])) 0 =
      (encoding rows hour zone deviceType).map fun c => (c.1, some c.2) := by
    simp [Frame.row, Function.comp_def]
  refine ⟨features, _, hfeatures, hasked, ?_, ?_, ?_, ?_, hvalues, ?_, ?_, ?_, ?_⟩
  · rw [featureNames_of_trained hmodel, names_trainingFeatures hfeatures]
  · rw [featureNames_of_trained hmodel]
    simp [Frame.names, encoding, featureNames, Function.comp_def]
  · rw [featureNames_of_trained hmodel]
    exact nodup_featureNames rows
  · intro c hc
    obtain ⟨d, -, rfl⟩ := List.mem_map.mp hc
    rfl
  · intro fallbackWatts
    simp only [predictSmartThreshold, formatted, Option.getD_some, hasked, Option.bind_some]
    split <;> simp [*]
  · rintro i r hi rfl rfl rfl
    rw [hvalues, row_trainingFeatures hfeatures hi]
  · intro hunseen r hr
    rw [hvalues]
    refine List.mem_map.mpr ⟨_, mem_encoding_of_zone hr hour zone deviceType, ?_⟩
    simp [Cell.indicator, hunseen r hr]
  · intro hunseen r hr
    rw [hvalues]
    refine List.mem_map.mpr ⟨_, mem_encoding_of_deviceType hr hour zone deviceType, ?_⟩
    simp [Cell.indicator, hunseen r hr]

/-- A fridge and a lamp, five times an hour apart. -/
def fiveRows : List TrainingRow :=
  [⟨0, "Kitchen", "Fridge", 150⟩, ⟨1, "Kitchen", "Fridge", 140⟩, ⟨2, "Bedroom", "Lamp", 12⟩,
    ⟨3, "Kitchen", "Fridge", 160⟩, ⟨4, "Bedroom", "Lamp", 10⟩]

/-- The model of five rows is asked for a lamp in a zone that no row has. -/
theorem encoders_agree_fiveRows : ∃ features input,
    EncodersAgree fiveRows ⟨featureNames fiveRows, fun _ => some 11⟩ 4 "Garage" "Lamp"
      features input :=
  encoders_agree (fun _ _ => some fun _ => some 11)
    (by rw [trainPredictiveModel_eq, trainingFeatures_eq, if_neg (by decide)]; rfl) 4 "Garage"
    "Lamp"

end SmartHomeEnergy
