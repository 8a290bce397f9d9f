import MiniDos.Lib.BlockIO
import MiniDos.Fat.Layout
import MiniDos.Fat.Table
import MiniDos.Fat.Name
import MiniDos.Fat.Directory
import MiniDos.Fat.File
import MiniDos.Lib.Chain
import MiniDos.Fat.Codec
import MiniDos.Fat.TableSpec
import MiniDos.Fat.Entries
import MiniDos.Fat.ChainSpec
import MiniDos.Fat.Slots
import MiniDos.Fat.NameSpec
import MiniDos.Fat.Grammar
import MiniDos.Fat.DirSpec
import MiniDos.Fat.Volume
import MiniDos.Fat.Scratch
import MiniDos.Fat.WriteSpec
import MiniDos.Fat.CopySpec
import MiniDos.Fat.OpSpec
import MiniDos.Fat.Preserve
import MiniDos.Fat.OpPreserve
import MiniDos.Fat.Session
import MiniDos.Fat.Rollback
import MiniDos.Fat.WriteCorrect
import MiniDos.Fat.Crash
import MiniDos.Fat.Fault
import MiniDos.Fat.Naming
import MiniDos.Fat.Sweep
import MiniDos.Lib.Halting
import MiniDos.Fat.Halting
import MiniDos.Fat.SweepHalt
import MiniDos.Fat.SweepEcho
import MiniDos.Lib.Interleave
import MiniDos.Fat.Preempt
import MiniDos.Fat.Boot
import MiniDos.Drive.Table
import MiniDos.Lib.Confine
import MiniDos.Fat.Confine
import MiniDos.Lib.Orbit
import MiniDos.Lib.Ratio
import MiniDos.Lib.Stale
import MiniDos.Fat.Allocator
import MiniDos.Fat.ReadSpec
import MiniDos.Fat.ReadFound
import MiniDos.Fat.ReadFault
import MiniDos.Fat.Listing
import MiniDos.Lib.Touch
import MiniDos.Lib.Transition
import MiniDos.Sched.Model
import MiniDos.Sched.Invariant
import MiniDos.Sched.Fair
import MiniDos.Lib.Scan
import MiniDos.Sched.Occupant
import MiniDos.Apps.Model
import MiniDos.Apps.Tables
import MiniDos.Apps.Steps
import MiniDos.Apps.Launch
import MiniDos.Apps.Stages
import MiniDos.Apps.Records
import MiniDos.Lib.Ranges
import MiniDos.Apps.Memory
import MiniDos.Lib.Action
import MiniDos.Files.Model
import MiniDos.Files.Shape
import MiniDos.Files.Context
import MiniDos.Files.Shell
import MiniDos.Fat.Tree
import MiniDos.Fat.TreeOps
import MiniDos.Files.Dirs
import MiniDos.Files.DirCalls
import MiniDos.Files.DirRuns
import MiniDos.Files.Mounts
import MiniDos.Files.MountRuns
import MiniDos.Lib.Picture
import MiniDos.Lib.Plane
import MiniDos.Video.Dirty
import MiniDos.Video.Model
import MiniDos.Video.Blit
import MiniDos.Video.Sync
import MiniDos.Video.Frame
import MiniDos.Video.Bare
import MiniDos.Video.Gfx
import MiniDos.Video.Lock
import MiniDos.Video.LockRuns
import MiniDos.Ui.Batch
import MiniDos.Ui.Rect
import MiniDos.Ui.Manager
import MiniDos.Ui.Dispatch
import MiniDos.Ui.Roster
import MiniDos.Ui.Moves
import MiniDos.Ui.Session
import MiniDos.User.Memory
import MiniDos.User.FileCalls
import MiniDos.User.Calls
import MiniDos.User.Bounds
import MiniDos.User.Graphics
import MiniDos.Input.Decoder
import MiniDos.Input.Layout
import MiniDos.Lib.Ring
import MiniDos.Input.Ports
import MiniDos.Input.Delivery
import MiniDos.Shell.Script
import MiniDos.Shell.Lines
import MiniDos.Video.Scale
import MiniDos.Ui.Surface
import MiniDos.Fat.MakeDir
import MiniDos.Ui.Paint
import MiniDos.Lib.Glob
import MiniDos.Fat.Wildcard
import MiniDos.Apps.Arena
import MiniDos.Apps.Slot
import MiniDos.Apps.Elf
import MiniDos.Drive.Floppy
import MiniDos.Sched.Sleep
import MiniDos.Fat.CopyContent
import MiniDos.Fat.CopyCorrect
import MiniDos.Fat.Deliver
import MiniDos.Files.Serving
import MiniDos.Files.Transfer
import MiniDos.Files.OwnDrive
import MiniDos.Files.Clipboard
import MiniDos.Lib.Fields
import MiniDos.Shell.Numbers
import MiniDos.Shell.Clock
import MiniDos.Input.Modifiers
import MiniDos.Input.Repeats
import MiniDos.Lib.Paging
import MiniDos.Memory.Paging
import MiniDos.Memory.KernelMap
import MiniDos.Memory.AppMap
import MiniDos.Sched.Runtime
import MiniDos.Shell.Shares
import MiniDos.Shell.Complete
import MiniDos.Shell.Cycle
import MiniDos.Lib.Stores
import MiniDos.Shell.Editor
import MiniDos.Shell.Buffers
import MiniDos.Lib.Paths
import MiniDos.Fat.Paths
import MiniDos.Files.Paths
import MiniDos.Files.Places
import MiniDos.Time.Timer
import MiniDos.Time.Rtc
import MiniDos.Lib.Raster
import MiniDos.Video.Bytes
import MiniDos.Video.Room
import MiniDos.Video.SameMode
import MiniDos.Video.Stepping
import MiniDos.Video.Shade
import MiniDos.Lib.Terminal
import MiniDos.Video.Glyphs
import MiniDos.Video.Console
import MiniDos.Lib.Selection
import MiniDos.Ui.Cards
import MiniDos.Ui.Stack
import MiniDos.Ui.Frames
import MiniDos.Ui.Calm
import MiniDos.Ui.Clicks
import MiniDos.Ui.Gauges
import MiniDos.Ui.Scroll
import MiniDos.Ui.Hold
import MiniDos.Lib.Sheet
import MiniDos.Lib.Search
import MiniDos.Lib.Undo
import MiniDos.Files.Api
import MiniDos.Edit.Grid
import MiniDos.Edit.Reload
import MiniDos.Edit.Search
import MiniDos.Edit.Model
import MiniDos.Edit.Keys
import MiniDos.Edit.Undo
import MiniDos.Edit.Target
import MiniDos.Lib.History
import MiniDos.Desk.Model
import MiniDos.Desk.History
import MiniDos.Desk.Listing
import MiniDos.Lib.Caret
import MiniDos.Ui.TextInput
import MiniDos.Ui.Bitmap
import MiniDos.Ui.BitmapBounds
import MiniDos.Ui.BitmapDecode
import MiniDos.Ui.BitmapDraw
import MiniDos.Ui.Draws
import MiniDos.Ui.TextFallback
import MiniDos.Ui.TextAgree
import MiniDos.Lib.Cover
import MiniDos.Ui.Damage
import MiniDos.Debug.Log
import MiniDos.Input.Packets
import MiniDos.Lib.Real16
import MiniDos.Boot.Split
import MiniDos.Boot.Read
import MiniDos.Boot.Load
import MiniDos.Desk.Resize
import MiniDos.Desk.Grid
