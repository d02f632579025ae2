import Dx12Track.Launcher.JoinInv
import Dx12Track.Launcher.Locations
import Dx12Track.Dll.Threads
import Dx12Track.Launcher.Replay
import Dx12Track.Dll.Hooks
import Dx12Track.Pipe.Server
import Dx12Track.Launcher.Arrival
import Dx12Track.Launcher.Rundowns
import Dx12Track.Launcher.Census
import Dx12Track.Launcher.Sidecar
import Dx12Track.Launcher.PostExit
import Dx12Track.Dll.LogOrder
import Dx12Track.Dll.ModuleCoverage
import Dx12Track.Dll.DiagLine
import Dx12Track.Launcher.Elevation
import Dx12Track.Launcher.Attribution
import Dx12Track.Launcher.Arguments
import Dx12Track.Dll.DebugNames
import Dx12Track.Dll.Repatch
import Dx12Track.Dll.PdbInfo
import Dx12Track.Launcher.Indexes
import Dx12Track.Launcher.HandoffBounds
import Dx12Track.Launcher.Environment
import Dx12Track.Launcher.Clock
import Dx12Track.Launcher.DeadRecords
import Dx12Track.Launcher.Timeouts
import Dx12Track.Launcher.ExitCutoff
import Dx12Track.Dll.ObjectHooks
import Dx12Track.Launcher.SideText
import Dx12Track.Launcher.Capture
import Dx12Track.Etw.Callbacks
import Dx12Track.Etw.Sessions
import Dx12Track.Launcher.Relaunch
import Dx12Track.MinHook.Threads
import Dx12Track.MinHook.Search
import Dx12Track.Dll.ExportHooks
import Dx12Track.Etw.Monitor
