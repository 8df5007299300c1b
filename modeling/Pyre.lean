import Pyre.Base.Run
import Pyre.Base.Table
import Pyre.Base.Text
import Pyre.Base.Transducer
import Pyre.Blocks.Machine
import Pyre.Proto
import Pyre.Supervisor.PaneIndex
import Pyre.Supervisor.SlotAllocation
import Pyre.Blocks.Bracketing
import Pyre.Blocks.Unbuffered
import Pyre.Blocks.Chunking
import Pyre.Blocks.Command
import Pyre.Shell.Bash
import Pyre.Blocks.Store
import Pyre.Blocks.Recorder
import Pyre.Blocks.StoredOutput
import Pyre.Base.Consecutive
import Pyre.Events.Bus
import Pyre.Events.Delivery
import Pyre.Events.Restart
import Pyre.Supervisor.Relay
import Pyre.Supervisor.StreamOrder
import Pyre.Supervisor.PaneParsers
import Pyre.Supervisor.Attribution
import Pyre.Base.Replay
import Pyre.Stream.RingBuf
import Pyre.Stream.Attach
import Pyre.Stream.Mirror
import Pyre.Layout
import Pyre.Session.Registry
import Pyre.Session.Windows
import Pyre.Session.Layouts
import Pyre.Supervisor.Windows
import Pyre.Supervisor.Operations
import Pyre.Supervisor.WindowLayouts
import Pyre.Supervisor.WindowListing
import Pyre.Supervisor.Placing
import Pyre.Supervisor.Splits
import Pyre.Supervisor.Failures
import Pyre.Session.Opening
import Pyre.Worker.Panes
import Pyre.Events.Lifecycle
import Pyre.Session.PaneEvents
import Pyre.Supervisor.PaneEvents
import Pyre.Blocks.Bookkeeping
import Pyre.Supervisor.Batcher
import Pyre.Supervisor.BlockEnds
import Pyre.Supervisor.SlotIdentity
import Pyre.Supervisor.LastClose
import Pyre.Supervisor.Superseded
import Pyre.Base.Locks
import Pyre.Supervisor.Handlers
import Pyre.Supervisor.LockOrder
import Pyre.Supervisor.HubClosing
import Pyre.State.Engines
import Pyre.Migration.Migrate
import Pyre.Migration.Backfill
import Pyre.Migration.StartUp
import Pyre.Migration.Sentinel
import Pyre.Migration.Retry
import Pyre.Migration.Switching
import Pyre.Layout.Tiling
import Pyre.Tui.AppState
import Pyre.Tui.EventLoop
import Pyre.Tui.Indices
import Pyre.Tui.OneTab
import Pyre.Base.Portions
import Pyre.Base.Ranked
import Pyre.Session.WindowOrder
import Pyre.Supervisor.WindowOrder
import Pyre.Session.Orphans
import Pyre.Base.Collect
import Pyre.Session.Collection
import Pyre.Supervisor.Collection
import Pyre.Tui.Resync
import Pyre.Gui.ControlClient
import Pyre.Gui.Pumps
import Pyre.Supervisor.StreamHeader
import Pyre.Base.Line
import Pyre.Gui.Keystrokes
import Pyre.Mcp.RunCommand
import Pyre.Worker.Requests
import Pyre.Supervisor.Orderly
import Pyre.Supervisor.Recovery
import Pyre.Supervisor.Survival
import Pyre.Session.Visible
import Pyre.Supervisor.Visible
import Pyre.Supervisor.VisibleEnds
import Pyre.Supervisor.VisibleOpens
import Pyre.Supervisor.VisibleRecovers
import Pyre.Supervisor.VisibleRuns
import Pyre.Base.Holdings
import Pyre.Session.Teardown
import Pyre.Session.TeardownRuns
import Pyre.Supervisor.Teardown
import Pyre.Gui.GithubLink
import Pyre.Gui.Notify
import Pyre.Layout.Closing
import Pyre.Layout.Geometry
import Pyre.Gpu.Panes
import Pyre.Gpu.Streams
import Pyre.Gui.Reloads
import Pyre.Gui.Terminals
import Pyre.Gui.Actions
import Pyre.Gui.Focus
import Pyre.Gui.Successor
import Pyre.Gui.Spawns
import Pyre.Supervisor.TeardownWindow
import Pyre.Supervisor.TeardownSession
import Pyre.Supervisor.TeardownRuns
import Pyre.Layout.FocusDir
import Pyre.Layout.Weights
import Pyre.Layout.Resizing
import Pyre.Migration.WindowBackfill
import Pyre.Migration.WindowRestart
import Pyre.Stream.Scrollback
import Pyre.Migration.SearchText
import Pyre.State.Reasons
import Pyre.Gui.Blocks
import Pyre.Tui.RecentBlocks
import Pyre.Tui.DragWeights
import Pyre.Session.Renames
import Pyre.Mcp.Prefixes
import Pyre.Git.Porcelain
import Pyre.Tui.CopySelection
import Pyre.Supervisor.Replay
import Pyre.Supervisor.Waiting
import Pyre.Tui.SessionStrip
import Pyre.Tui.StripLine
import Pyre.Tui.StripHits
import Pyre.Gui.CheckRuns
import Pyre.Gui.FocusDirection
import Pyre.Gui.EventLoop
import Pyre.Gui.PrCi
import Pyre.Search.Overlays
import Pyre.Gui.Inspector
import Pyre.Gui.FailedClose
import Pyre.Gui.Center
import Pyre.Gui.DividerDrag
import Pyre.Gpu.DragResize
import Pyre.Base.Loop
import Pyre.Worker.WriteAll
import Pyre.Base.Guarded
import Pyre.Base.Joined
import Pyre.Gui.Chrome
import Pyre.Gui.StatusBar
import Pyre.Gui.AgentOverview
import Pyre.Gui.TabStrip
import Pyre.Gui.InlineEdit
import Pyre.Shell.Hooks
import Pyre.Mcp.SessionLayout
import Pyre.Base.Matches
import Pyre.Base.Newlines
import Pyre.Stream.Capture
import Pyre.Mcp.Server
import Pyre.Mcp.Subscriptions
import Pyre.Base.Reader
import Pyre.Stream.FrontDoor
import Pyre.Base.Timers
import Pyre.Gui.Toasts
import Pyre.Tui.Screen
import Pyre.Tui.Turns
import Pyre.Tui.TabKeys
import Pyre.Tui.ScreenRange
import Pyre.Tui.KeyRouting
