import Compositor.Budget.Bounds
import Compositor.Budget.Plan
import Compositor.Checked
import Compositor.CommandLine
import Compositor.DebugRect
import Compositor.Demo
import Compositor.Fault
import Compositor.Geometry.Grid
import Compositor.Geometry.Rect
import Compositor.Geometry.Transform
import Compositor.Host.Basic
import Compositor.Host.Fading
import Compositor.Host.Limiting
import Compositor.Host.Managing
import Compositor.Host.Roster
import Compositor.Host.Running
import Compositor.Json.Decode
import Compositor.Json.Printer
import Compositor.Json.Reader
import Compositor.Json.Token
import Compositor.Json.Value
import Compositor.Main
import Compositor.Manager.Config
import Compositor.Manager.Ledger
import Compositor.Manager.State
import Compositor.Manager.Usage
import Compositor.Metrics.Counter
import Compositor.Metrics.PassTimer
import Compositor.Metrics.Window
import Compositor.Platform
import Compositor.Platform.Limits
import Compositor.Proofs.Budget.Conservation
import Compositor.Proofs.Budget.Division
import Compositor.Proofs.Budget.Enumeration
import Compositor.Proofs.Budget.Following
import Compositor.Proofs.Budget.Importance
import Compositor.Proofs.Budget.Isolation
import Compositor.Proofs.Budget.Keeping
import Compositor.Proofs.Budget.Limits
import Compositor.Proofs.Budget.Monotone
import Compositor.Proofs.Budget.Serving
import Compositor.Proofs.Budget.Showing
import Compositor.Proofs.Budget.Windows
import Compositor.Proofs.DebugRect
import Compositor.Proofs.Geometry.Pixels
import Compositor.Proofs.Host.Accounts
import Compositor.Proofs.Host.Afterwards
import Compositor.Proofs.Host.Allotment
import Compositor.Proofs.Host.Appointments
import Compositor.Proofs.Host.Beside
import Compositor.Proofs.Host.Cadence
import Compositor.Proofs.Host.Chains
import Compositor.Proofs.Host.Coalescing
import Compositor.Proofs.Host.Ends
import Compositor.Proofs.Host.Enduring
import Compositor.Proofs.Host.Exclusive
import Compositor.Proofs.Host.Fading
import Compositor.Proofs.Host.Frames
import Compositor.Proofs.Host.Gate
import Compositor.Proofs.Host.Granting
import Compositor.Proofs.Host.Groups
import Compositor.Proofs.Host.Limiting
import Compositor.Proofs.Host.Managed
import Compositor.Proofs.Host.Minding
import Compositor.Proofs.Host.Ordered
import Compositor.Proofs.Host.Pacing
import Compositor.Proofs.Host.Paying
import Compositor.Proofs.Host.Promptness
import Compositor.Proofs.Host.Publishing
import Compositor.Proofs.Host.Refusing
import Compositor.Proofs.Host.Registries
import Compositor.Proofs.Host.Reporting
import Compositor.Proofs.Host.Requesting
import Compositor.Proofs.Host.Roster
import Compositor.Proofs.Host.Shutdown
import Compositor.Proofs.Host.Slots
import Compositor.Proofs.Host.Superseding
import Compositor.Proofs.Manager.Accounts
import Compositor.Proofs.Manager.Evolution
import Compositor.Proofs.Manager.Groups
import Compositor.Proofs.Manager.Requests
import Compositor.Proofs.Precision
import Compositor.Proofs.Scenario.Accounts
import Compositor.Proofs.Scenario.Allotment
import Compositor.Proofs.Scenario.Appointments
import Compositor.Proofs.Scenario.Cadence
import Compositor.Proofs.Scenario.Chains
import Compositor.Proofs.Scenario.Coalescing
import Compositor.Proofs.Scenario.Enduring
import Compositor.Proofs.Scenario.Exclusive
import Compositor.Proofs.Scenario.Fading
import Compositor.Proofs.Scenario.Gate
import Compositor.Proofs.Scenario.Groups
import Compositor.Proofs.Scenario.Lookup
import Compositor.Proofs.Scenario.Managed
import Compositor.Proofs.Scenario.Promptness
import Compositor.Proofs.Scenario.Publishing
import Compositor.Proofs.Scenario.Quitting
import Compositor.Proofs.Scenario.Refusing
import Compositor.Proofs.Scenario.Reporting
import Compositor.Proofs.Scenario.Run
import Compositor.Proofs.Scenario.Shutdown
import Compositor.Proofs.Scenario.Slots
import Compositor.Proofs.Scenario.Stopping
import Compositor.Proofs.Scenario.Superseding
import Compositor.Proofs.Scrollbar
import Compositor.Proofs.Surface.Cost
import Compositor.Proofs.Surface.Overlay
import Compositor.Proofs.Table
import Compositor.Proofs.Task.Advance
import Compositor.Proofs.Task.Ends
import Compositor.Proofs.Task.History
import Compositor.Proofs.Task.Mirroring
import Compositor.Proofs.Task.Order
import Compositor.Proofs.Task.Queue
import Compositor.Proofs.Task.Slots
import Compositor.Proofs.Task.Watch
import Compositor.Scenario.Perform
import Compositor.Scenario.Status
import Compositor.Scenario.Step
import Compositor.Scrollbar
import Compositor.Span
import Compositor.Stub
import Compositor.Surface
import Compositor.Surface.Memory
import Compositor.SystemClock
import Compositor.Table
import Compositor.Task.Action
import Compositor.Task.Cancel
import Compositor.Task.Loop
import Compositor.Task.Proxy
import Compositor.Task.Queue
import Compositor.Task.Worker
import Compositor.Text
import Compositor.Throttle.Limiter
import Compositor.Throttle.Registry
import Compositor.Tile
import Compositor.Proofs.Scenario.Quitting
import Compositor.Proofs.Task.Watch
import Compositor.Proofs.Metrics.Sliding
import Compositor.Proofs.Geometry.Enclosing
import Compositor.Proofs.Json.Describing
import Compositor.Proofs.Json.Parsing
import Compositor.Proofs.Json.Reading
import Compositor.Proofs.Json.Records
import Compositor.Proofs.Json.Scanning
import Compositor.Proofs.Json.Writing
import Compositor.Proofs.Manager.Configured
import Compositor.Proofs.Surface.Mapping
import Compositor.Proofs.Task.Draining
