import SmartHomeEnergy.Relational.Logic
import SmartHomeEnergy.Relational.GroupBy
import SmartHomeEnergy.Relational.Aggregate
import SmartHomeEnergy.Relational.Table
import SmartHomeEnergy.Relational.Overwrite
import SmartHomeEnergy.Relational.Frame
import SmartHomeEnergy.Relational.Like
import SmartHomeEnergy.Relational.Join
import SmartHomeEnergy.Relational.Retention
import SmartHomeEnergy.Numeric.Rounding
import SmartHomeEnergy.Transition.Run
import SmartHomeEnergy.Transition.Attempt
import SmartHomeEnergy.Streaming.Window
import SmartHomeEnergy.Streaming.Dedup
import SmartHomeEnergy.Streaming.Aggregation
import SmartHomeEnergy.Streaming.Checkpoint
import SmartHomeEnergy.Posix.Path
import SmartHomeEnergy.Reading
import SmartHomeEnergy.Simulator.Device
import SmartHomeEnergy.Dashboard.Devices
import SmartHomeEnergy.Dashboard.Preferences
import SmartHomeEnergy.Simulator.Override
import SmartHomeEnergy.Simulator.Eco
import SmartHomeEnergy.Orchestration.BronzeSilver
import SmartHomeEnergy.Ingestion.RawBronze
import SmartHomeEnergy.Cleaning.Filters
import SmartHomeEnergy.Live.Pipeline
import SmartHomeEnergy.Live.Sink
import SmartHomeEnergy.Live.Session
import SmartHomeEnergy.Live.Exact
import SmartHomeEnergy.Live.Restart
import SmartHomeEnergy.Live.Report
import SmartHomeEnergy.Warehouse.Daily
import SmartHomeEnergy.Warehouse.Sink
import SmartHomeEnergy.Warehouse.Split
import SmartHomeEnergy.Warehouse.Monthly
import SmartHomeEnergy.Warehouse.DeviceHours
import SmartHomeEnergy.Warehouse.Duplicates
import SmartHomeEnergy.Warehouse.Replay
import SmartHomeEnergy.Warehouse.Order
import SmartHomeEnergy.Warehouse.Faults
import SmartHomeEnergy.Warehouse.Summary
import SmartHomeEnergy.Warehouse.Refresh
import SmartHomeEnergy.Prediction.Encoding
import SmartHomeEnergy.Prediction.Alerts
import SmartHomeEnergy.Dashboard.LiveView
import SmartHomeEnergy.Live.Purge
import SmartHomeEnergy.Prediction.Savings
import SmartHomeEnergy.Dashboard.Saving
import SmartHomeEnergy.Dashboard.Page
import SmartHomeEnergy.Simulator.CacheRefresh
import SmartHomeEnergy.Orchestration.Notebooks
import SmartHomeEnergy.Streaming.Recovery
import SmartHomeEnergy.Warehouse.Recovery
import SmartHomeEnergy.Ingestion.Medallion
import SmartHomeEnergy.Warehouse.Accounts
import SmartHomeEnergy.Live.Faults
import SmartHomeEnergy.Live.Retained
import SmartHomeEnergy.Orchestration.Delivery
import SmartHomeEnergy.Dashboard.Registry
import SmartHomeEnergy.Dashboard.LastForm
import SmartHomeEnergy.Simulator.Timeliness
import SmartHomeEnergy.Simulator.Producer
import SmartHomeEnergy.Simulator.Coverage
import SmartHomeEnergy.Live.EndToEnd
import SmartHomeEnergy.Dashboard.LiveExact
import SmartHomeEnergy.Prediction.Operation
import SmartHomeEnergy.Acknowledgement
import SmartHomeEnergy.Warehouse.Archive
import SmartHomeEnergy.Dashboard.BatchView
import SmartHomeEnergy.Warehouse.EndToEnd
import SmartHomeEnergy.Ingestion.Lossless
import SmartHomeEnergy.Dashboard.Operation
import SmartHomeEnergy.Dashboard.Spending
import SmartHomeEnergy.Simulator.ModeInForce
import SmartHomeEnergy.Warehouse.SwitchedOff
import SmartHomeEnergy.Dashboard.Badges
