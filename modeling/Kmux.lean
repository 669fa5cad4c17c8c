import Kmux.App.Attempts
import Kmux.App.Command
import Kmux.App.Completion
import Kmux.App.Driver
import Kmux.App.Inserts
import Kmux.App.LineEditor
import Kmux.App.LinkView
import Kmux.App.Outage
import Kmux.App.Overview
import Kmux.App.Reconnect
import Kmux.App.Registry
import Kmux.Client.ApplyWorker
import Kmux.Client.Attached
import Kmux.Client.CellGrid
import Kmux.Client.ClosedTwice
import Kmux.Client.DisplayRows
import Kmux.Client.FocusNeighbor
import Kmux.Client.GapFill
import Kmux.Client.GonePane
import Kmux.Client.GoneTab
import Kmux.Client.Grid
import Kmux.Client.Highlight
import Kmux.Client.LayoutResize
import Kmux.Client.LayoutResolve
import Kmux.Client.LayoutTiling
import Kmux.Client.Mouse
import Kmux.Client.PaneSession
import Kmux.Client.PauseAgreement
import Kmux.Client.Reanchor
import Kmux.Client.ResizeAgreement
import Kmux.Client.RoundTrip
import Kmux.Client.RowStamps
import Kmux.Client.Scrollback
import Kmux.Client.SelectPane
import Kmux.Client.SelectionText
import Kmux.Client.ServerHandler
import Kmux.Client.SessionManager
import Kmux.Client.Viewport
import Kmux.Client.Views
import Kmux.Daemon.AnsiEmit
import Kmux.Daemon.Attach
import Kmux.Daemon.Checkpoint
import Kmux.Daemon.CheckpointWriter
import Kmux.Daemon.ClientWriter
import Kmux.Daemon.Clients
import Kmux.Daemon.Connections
import Kmux.Daemon.ControlReserve
import Kmux.Daemon.DiffBuffer
import Kmux.Daemon.EffectiveSize
import Kmux.Daemon.Graveyard
import Kmux.Daemon.Handoff
import Kmux.Daemon.HandoffSettled
import Kmux.Daemon.Handshake
import Kmux.Daemon.Heartbeat
import Kmux.Daemon.Hold
import Kmux.Daemon.InputLock
import Kmux.Daemon.LogTail
import Kmux.Daemon.LogWriter
import Kmux.Daemon.Outbound
import Kmux.Daemon.PaneGate
import Kmux.Daemon.Paste
import Kmux.Daemon.ProcessStats
import Kmux.Daemon.PtyWindow
import Kmux.Daemon.Recover
import Kmux.Daemon.Relay
import Kmux.Daemon.ServerApp
import Kmux.Daemon.ViewState
import Kmux.Daemon.WordOwnership
import Kmux.Daemon.Worker
import Kmux.Daemon.WorkerHold
import Kmux.Daemon.WorkerRelease
import Kmux.Federation.Answers
import Kmux.Federation.Books
import Kmux.Federation.Connection
import Kmux.Federation.ForeignNames
import Kmux.Federation.InFlight
import Kmux.Federation.Keyed
import Kmux.Federation.Link
import Kmux.Federation.LockAgreement
import Kmux.Federation.LockLink
import Kmux.Federation.LockMoves
import Kmux.Federation.Messages
import Kmux.Federation.Names
import Kmux.Federation.PaneLock
import Kmux.Federation.PeerManager
import Kmux.Federation.Pipeline
import Kmux.Federation.Plain
import Kmux.Federation.Routes
import Kmux.Federation.Words
import Kmux.History.Backend
import Kmux.History.Capture
import Kmux.History.Erase
import Kmux.History.IndexSpace
import Kmux.History.Overflow
import Kmux.Lib.Apportion
import Kmux.Lib.Barrier
import Kmux.Lib.Budget
import Kmux.Lib.Delimiter
import Kmux.Lib.Framing
import Kmux.Lib.Guillotine
import Kmux.Lib.Inodes
import Kmux.Lib.Json
import Kmux.Lib.Ledger
import Kmux.Lib.MouseReports
import Kmux.Lib.Ownership
import Kmux.Lib.Record
import Kmux.Lib.Run
import Kmux.Lib.Terminal
import Kmux.Lib.TerminalRow
import Kmux.Lib.Throttle
import Kmux.Lib.Traversal
import Kmux.Lib.Utf8Text
import Kmux.Lib.Window
import Kmux.Protocol.Codec
import Kmux.Protocol.Endpoint
import Kmux.Protocol.Timestamp
import Kmux.Protocol.Vt
import Kmux.Pty.Signals
import Kmux.Render.Geometry
import Kmux.Render.Packed
import Kmux.Render.SceneCache
import Kmux.Session.Collapse
import Kmux.Session.Focus
import Kmux.Session.Layout
import Kmux.Session.LayoutInvariant
import Kmux.Session.Migrate
import Kmux.Session.Restore
import Kmux.Session.State
import Kmux.Session.Structure
import Kmux.Session.Weights
import Kmux.Stream.AttachRace
import Kmux.Stream.CellOps
import Kmux.Stream.Delivery
import Kmux.Stream.Digest
import Kmux.Stream.Forward
import Kmux.Stream.Heard
import Kmux.Stream.NoGap
import Kmux.Stream.Redelivery
import Kmux.Stream.Refinement
import Kmux.Stream.Replay
import Kmux.Stream.Resize
import Kmux.Stream.ResizeNotice
import Kmux.Transport.Admission
import Kmux.Transport.Identity
import Kmux.Transport.Listen
import Kmux.Transport.Probe
import Kmux.Transport.SocketAddr
import Kmux.Transport.SshConfig
import Kmux.Transport.SshHosts
import Kmux.Transport.Supervisor
import Kmux.Transport.Tofu
import Kmux.VtCore.DiffEngine
import Kmux.VtCore.Mirror
import Kmux.VtCore.MockBackend
