import AlarmSync.Program
import AlarmSync.Contract
import AlarmSync.Text
import AlarmSync.FlatJson
import AlarmSync.KeyFormat
import AlarmSync.Runtime
import AlarmSync.PlainWire
import AlarmSync.Register
import AlarmSync.Scope
import AlarmSync.Acknowledgement
import AlarmSync.Hydration
import AlarmSync.ReadBack
import AlarmSync.Mirror
import AlarmSync.ClosedLoop
import AlarmSync.Atomic
import AlarmSync.BypassLaw
import AlarmSync.FreshSettings
import AlarmSync.Echo
import AlarmSync.OneAction
import AlarmSync.Replay
import AlarmSync.Outcomes
import AlarmSync.Published
import AlarmSync.Eligibility
import AlarmSync.Rfc3339
import AlarmSync.CivilWire
import AlarmSync.Enablement
import AlarmSync.Recognition
import AlarmSync.Snooze
import AlarmSync.Expiry
import AlarmSync.Restart
import AlarmSync.Reduction
import AlarmSync.Isolation
import AlarmSync.Serializable
import AlarmSync.Process
import AlarmSync.Addresses
import AlarmSync.ConcurrentStartup
import AlarmSync.Shutdown
import AlarmSync.Faults
import AlarmSync.SharedLoop
import AlarmSync.Redelivery
import AlarmSync.Deployment
import AlarmSync.WholeRun
