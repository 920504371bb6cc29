import TmatePlugin.Lib.Transition
import TmatePlugin.Lib.CString
import TmatePlugin.Lib.CInt
import TmatePlugin.Lib.Outcome
import TmatePlugin.Lib.Loop
import TmatePlugin.Lib.Buffer
import TmatePlugin.Lib.History
import TmatePlugin.Lib.Fifo
import TmatePlugin.Lib.Ring
import TmatePlugin.Lib.RWLock
import TmatePlugin.Lib.Shell
import TmatePlugin.Lib.CodeWords
import TmatePlugin.Lib.Utf8
import TmatePlugin.Lib.WordBytes
import TmatePlugin.Lib.BufferedReader
import TmatePlugin.Lib.Retention
import TmatePlugin.Lib.Parser
import TmatePlugin.Lib.ReadBack
import TmatePlugin.Lib.Masking
import TmatePlugin.Lib.Files
import TmatePlugin.Lib.FileTree
import TmatePlugin.L1Base.CJson
import TmatePlugin.L1Base.CJsonParse
import TmatePlugin.L1Base.CJsonText
import TmatePlugin.L1Base.CJsonPrint
import TmatePlugin.L1Base.Utf8Validator
import TmatePlugin.L1Base.Frame
import TmatePlugin.L1Base.Hybi13
import TmatePlugin.L1Base.Hybi13Stream
import TmatePlugin.L1Base.Hybi13Frames
import TmatePlugin.L1Base.Hybi13Messages
import TmatePlugin.L1Base.WsConnection
import TmatePlugin.L1Base.WsClose
import TmatePlugin.L1Base.NotifyFrame
import TmatePlugin.L1Base.LogRotation
import TmatePlugin.L1Base.LogRetention
import TmatePlugin.L1Base.LogReopen
import TmatePlugin.L1Base.LogRoot
import TmatePlugin.L1Base.LogLine
import TmatePlugin.L1Base.LogRing
import TmatePlugin.L1Base.SpecialLogs
import TmatePlugin.L1Base.MaskText
import TmatePlugin.L1Base.SensitiveString
import TmatePlugin.L1Base.RecursiveMutex
import TmatePlugin.L1Base.VplError
import TmatePlugin.L1Base.CreatePath
import TmatePlugin.L2Plugin.StateFiles
import TmatePlugin.L2Plugin.Scripts
import TmatePlugin.L2Plugin.OutputPaths
import TmatePlugin.L2Plugin.ReadOutput
import TmatePlugin.L2Plugin.StateValues
import TmatePlugin.L2Plugin.Commands
import TmatePlugin.L2Plugin.CommandAcks
import TmatePlugin.L2Plugin.AckFailures
import TmatePlugin.L2Plugin.PasswordArg
import TmatePlugin.L2Plugin.PluginData
import TmatePlugin.L2Plugin.Alarms
import TmatePlugin.L2Plugin.UpdateLoader
import TmatePlugin.L2Plugin.LoaderSafety
import TmatePlugin.L2Plugin.Properties
import TmatePlugin.L2Plugin.ParamLists
import TmatePlugin.L3Machine.States
import TmatePlugin.L3Machine.Handlers
import TmatePlugin.L3Machine.Registration
import TmatePlugin.L3Machine.Interleaved
import TmatePlugin.L3Machine.ServerOffline
import TmatePlugin.L3Machine.OnMessage
import TmatePlugin.L3Machine.RetryPause
import TmatePlugin.L4Threads.Mailbox
import TmatePlugin.L4Threads.DataThread
import TmatePlugin.L4Threads.StatesRequest
import TmatePlugin.L4Threads.CheckCadence
import TmatePlugin.L4Threads.MainWait
import TmatePlugin.L4Threads.Traffic
import TmatePlugin.L4Threads.CommandObjects
import TmatePlugin.L4Threads.ClientLifetime
import TmatePlugin.L4Threads.LogRotationLock
import TmatePlugin.L4Threads.WsLink
import TmatePlugin.L4Threads.CloseHandshake
