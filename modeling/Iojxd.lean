import Iojxd.TransitionRun
import Iojxd.InputLoop
import Iojxd.WaitStatus
import Iojxd.LuaValue
import Iojxd.Caster
import Iojxd.TracerModel
import Iojxd.TracerRuns
import Iojxd.TracerVerdicts
import Iojxd.TraceeLifecycle
import Iojxd.SockModel
import Iojxd.SockRuns
import Iojxd.SockStream
import Iojxd.SockCompletion
import Iojxd.SockIsolation
import Iojxd.CommandHandler
import Iojxd.DaemonModel
import Iojxd.DaemonHistory
import Iojxd.DaemonSessions
import Iojxd.LuaTable
import Iojxd.JudgeSettings
import Iojxd.JudgeIsolation
import Iojxd.TracerClassification
import Iojxd.SockWakeUp
import Iojxd.LinkedCells
import Iojxd.CycQueueModel
import Iojxd.CycQueueRefinement
import Iojxd.TimerModel
import Iojxd.TimerRuns
import Iojxd.TimerFlags
import Iojxd.TimerIdle
import Iojxd.SocketModel
import Iojxd.SocketRuns
import Iojxd.DescriptorLedger
import Iojxd.SocketDescriptors
import Iojxd.SocketCloses
import Iojxd.SocketWatchers
import Iojxd.SocketStates
import Iojxd.SocketBooks
import Iojxd.SocketOwnership
import Iojxd.SockFrames
import Iojxd.LuaConnModel
import Iojxd.LuaConnLifetime
import Iojxd.RefBase
import Iojxd.LuaWatcherModel
import Iojxd.LuaWatcherLifetime
import Iojxd.SockTranscript
import Iojxd.SockDrain
import Iojxd.SockAgreement
import Iojxd.LuaBytes
import Iojxd.DaemonReads
import Iojxd.LuaServerModel
import Iojxd.LuaServerRuns
import Iojxd.LuaServerAsserts
import Iojxd.LuaServerWrappers
import Iojxd.LuaServerLifetime
import Iojxd.RecordedCells
import Iojxd.CycQueueFree
import Iojxd.ChildTermination
import Iojxd.LuaFiles
import Iojxd.JudgeCompile
import Iojxd.TracerSignals
import Iojxd.ReadBufferLength
import Iojxd.FloatRounding
import Iojxd.TimeLimit
import Iojxd.SetupModel
import Iojxd.ConnectOutcome
import Iojxd.SetupLeaks
import Iojxd.SetupFollows
import Iojxd.LuaStack
import Iojxd.CoroutineResume
import Iojxd.SharedStore
import Iojxd.SessionModel
import Iojxd.SessionRuns
import Iojxd.SessionIsolation
import Iojxd.SessionVerdicts
import Iojxd.OneShot
import Iojxd.ChildReaper
import Iojxd.ChildBlocks
import Iojxd.ChildDelivery
import Iojxd.DaemonDialogue
import Iojxd.TextFields
import Iojxd.ResultFormat
import Iojxd.SeparatedRegions
import Iojxd.CycQueueFamily
import Iojxd.SockHeapModel
import Iojxd.SockHeapStrip
import Iojxd.SockHeapRefinement
import Iojxd.ServedModel
import Iojxd.ServedRefinement
import Iojxd.ServedReplies
import Iojxd.ServedDelivery
import Iojxd.ServedWhole
