import DebugBridge.Codec.Link
import DebugBridge.Codec.Phase
import DebugBridge.Main
import DebugBridge.Rehearsal.Files
import DebugBridge.Rehearsal.Schedule
import DebugBridge.Value.Printer
import DebugBridge.Proofs.Value.Reading
import DebugBridge.Proofs.Session.Run
import DebugBridge.Proofs.Session.Conduct
import DebugBridge.Proofs.Session.Correlation
import DebugBridge.Proofs.Session.Running
import DebugBridge.Proofs.Session.Exit
import DebugBridge.Proofs.Record.Failure
import DebugBridge.Proofs.Bridge.Registry
import DebugBridge.Proofs.Session.Duties
import DebugBridge.Proofs.Session.Standing
import DebugBridge.Proofs.Session.Announcement
import DebugBridge.Proofs.Session.Progress
import DebugBridge.Proofs.Session.Window
import DebugBridge.Proofs.Session.Shutdown
import DebugBridge.Proofs.Session.Tenure
import DebugBridge.Proofs.Session.Farewell
import DebugBridge.Proofs.Session.Closure
import DebugBridge.Proofs.Session.WarmUp
import DebugBridge.Proofs.Session.Lines
import DebugBridge.Proofs.Session.Startup
import DebugBridge.Proofs.Session.Lifecycle
import DebugBridge.Proofs.Session.Distribution
import DebugBridge.Proofs.Session.Navigation
import DebugBridge.Proofs.Session.Skipping
import DebugBridge.Proofs.Session.Success
import DebugBridge.Proofs.Session.FailedStart
import DebugBridge.Proofs.Bridge.Tenancy
import DebugBridge.Proofs.Bridge.Requests
import DebugBridge.Proofs.Bridge.Methods
import DebugBridge.Proofs.Session.Release
import DebugBridge.Proofs.Session.Settings
import DebugBridge.Proofs.Bridge.Removal
import DebugBridge.Proofs.Session.Pause
import DebugBridge.Proofs.Record.Bytes
import DebugBridge.Proofs.Record.Listing
import DebugBridge.Proofs.Value.Location
import DebugBridge.Proofs.Codec.RoundTrip
import DebugBridge.Proofs.Value.Order
