import Waywallen.Library.HashMap
import Waywallen.Library.Table
import Waywallen.Library.UnixPath
import Waywallen.Library.Evolves
import Waywallen.Library.Sql
import Waywallen.Library.Transition
import Waywallen.Library.TaskPool
import Waywallen.Store.Repo
import Waywallen.Store.Scan
import Waywallen.Store.Sync
import Waywallen.Store.Probe
import Waywallen.Store.Written
import Waywallen.Store.Refresh
import Waywallen.Filter.Rules
import Waywallen.Filter.Grouped
import Waywallen.Filter.Queries
import Waywallen.Filter.QueueFilter
import Waywallen.Filter.Ordered
import Waywallen.Library.Best
import Waywallen.Filter.Duplicates
import Waywallen.Queue.State
import Waywallen.Queue.Steps
import Waywallen.Queue.Answers
import Waywallen.Queue.Picks
import Waywallen.Plugin.Schema
import Waywallen.Plugin.Reconcile
import Waywallen.Dma.Negotiate
import Waywallen.Display.Layout
import Waywallen.Settings
import Waywallen.Settings.Store
import Waywallen.Settings.Saved
import Waywallen.Settings.Flush
import Waywallen.Tasks.Manager
import Waywallen.Tasks.Located
import Waywallen.Tasks.Unique
import Waywallen.Tasks.Told
import Waywallen.Tasks.Terminal
import Waywallen.Tasks.Cleared
import Waywallen.Wallpaper.Properties
import Waywallen.Filter.Attached
import Waywallen.Renderer.Handle
import Waywallen.Routing.Autopause
import Waywallen.Routing.Table
import Waywallen.Routing.TableOps
import Waywallen.Routing.Router
import Waywallen.Routing.RouterFrames
import Waywallen.Routing.Snapshot
import Waywallen.Daemon.State
import Waywallen.Daemon.Exec
import Waywallen.Daemon.Frames
import Waywallen.Daemon.Queues
import Waywallen.Daemon.Continues
import Waywallen.Daemon.Handles
import Waywallen.Daemon.Channels
import Waywallen.Display.Sequence
import Waywallen.Display.Generations
import Waywallen.Teardown.Acks
import Waywallen.Teardown.Replies
import Waywallen.Teardown.Orphans
import Waywallen.Sync.Reaper
import Waywallen.Sync.Timeline
import Waywallen.Sync.FanOut
import Waywallen.Sync.Fences
import Waywallen.Dma.Gate
import Waywallen.Dma.Passes
import Waywallen.Dma.Choice
import Waywallen.Bridge.Caps
import Waywallen.Daemon.Registration
import Waywallen.Lifecycle.Debounce
import Waywallen.Lifecycle.Reconcile
import Waywallen.Lifecycle.PauseCauses
import Waywallen.Lifecycle.Sockets
import Waywallen.Lifecycle.Resume
import Waywallen.Store.FailedScan
import Waywallen.Store.Rows
import Waywallen.Store.Rounds
import Waywallen.Store.Pass
import Waywallen.Store.Fresh
import Waywallen.Apply.Roster
import Waywallen.Apply.Paths
import Waywallen.Apply.Failure
import Waywallen.Apply.Reuse
import Waywallen.Playlist.Assigned
import Waywallen.Playlist.Deactivated
import Waywallen.Library.Shuffle
import Waywallen.Playlist.Cursor
import Waywallen.Playlist.Order
import Waywallen.Playlist.Position
import Waywallen.Library.Rounds
import Waywallen.Playlist.Rounds
import Waywallen.Remote.Installed
import Waywallen.Plugin.Live
import Waywallen.Plugin.Received
import Waywallen.Wallpaper.Live
import Waywallen.Wallpaper.Shown
import Waywallen.Wallpaper.Covered
import Waywallen.Wallpaper.Respawn
import Waywallen.Settings.Displays
import Waywallen.Display.Pointer
import Waywallen.Bridge.Directive
import Waywallen.Library.ByteStream
import Waywallen.Library.LittleEndian
import Waywallen.Wire.Framing
import Waywallen.Wire.Delivered
import Waywallen.Wayproto.Parser
import Waywallen.Wayproto.Format
import Waywallen.Wayproto.Codecs
import Waywallen.Teardown.Unlinked
import Waywallen.Display.Fill
import Waywallen.Filter.Complement
import Waywallen.Filter.Contains
import Waywallen.Filter.GroupLaws
import Waywallen.Filter.Sorts
import Waywallen.Filter.SqlText
import Waywallen.Library.Decimal
import Waywallen.Library.History
import Waywallen.Plugin.Repaired
import Waywallen.Plugin.Validated
import Waywallen.Queue.Cursor
import Waywallen.Queue.Rotator
import Waywallen.Library.Json
import Waywallen.Wallpaper.Columns
import Waywallen.Library.FileTree
import Waywallen.Plugin.Installer
import Waywallen.Store.Scanning
import Waywallen.Store.Pending
import Waywallen.Filter.StoredPath
import Waywallen.Library.Lossy
import Waywallen.Wayproto.Printed
import Waywallen.Wayproto.Text
import Waywallen.Library.Broadcast
import Waywallen.Startup.Feed
import Waywallen.Startup.Ready
import Waywallen.Startup.Recall
import Waywallen.Playlist.Repo
import Waywallen.Display.Connection
import Waywallen.Display.Served
import Waywallen.Plugin.LuaJson
import Waywallen.Ui.Thumbnails
import Waywallen.Ui.FilterEditor
import Waywallen.Display.Backend
import Waywallen.Startup.LibraryWatch
