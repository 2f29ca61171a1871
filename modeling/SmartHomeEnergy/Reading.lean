import Mathlib.Data.Rat.Init

/-!
# The reading, as every job of the pipeline declares it

All jobs read the same record from Kafka and from the parquet layers: the schema of
`energy_events`, repeated in `spark_stream.py`, `raw_bronze_parquet.ipynb`,
`clean_silver_pipeline.ipynb` and `spark_dwh_batch.ipynb` with the same nine
nullable fields. The type of the timestamp is a parameter: it is a string as the
record is read, and a point in time once the stream has cast it.

Powers are exact rationals throughout.
-/

namespace SmartHomeEnergy

/-- A reading; every field is nullable. -/
structure Reading (τ : Type) where
  timestamp : Option τ
  houseType : Option String
  currency : Option String
  zone : Option String
  deviceId : Option String
  deviceType : Option String
  isRoomOccupied : Option Bool
  powerConsumptionWatts : Option ℚ
  status : Option String
  deriving DecidableEq

/-- The reading with its timestamp cast. -/
def Reading.castTimestamp {τ τ' : Type} (cast : τ → Option τ') (r : Reading τ) : Reading τ' :=
  { r with timestamp := r.timestamp.bind cast }

/-- The statuses the simulator writes. -/
inductive Status
  | on
  | off
  | lostSignal
  | sensorFault
  deriving DecidableEq

/-- The status as it stands in the message. -/
def Status.text : Status → String
  | .on => "ON"
  | .off => "OFF"
  | .lostSignal => "LOST_SIGNAL"
  | .sensorFault => "SENSOR_FAULT"

/-- The zones the simulator infers from a device's id. -/
inductive Zone
  | livingRoom
  | kitchen
  | masterBedroom
  | outdoorAndSecurity
  | garageAndUtility
  deriving DecidableEq

/-- The zone as it stands in the message. -/
def Zone.text : Zone → String
  | .livingRoom => "Living_Room"
  | .kitchen => "Kitchen"
  | .masterBedroom => "Master_Bedroom"
  | .outdoorAndSecurity => "Outdoor_&_Security"
  | .garageAndUtility => "Garage_&_Utility"

end SmartHomeEnergy
