import LinuxEmbedded.Lib.Machine
import LinuxEmbedded.Lib.Ring
import LinuxEmbedded.Lib.DropOldest
import LinuxEmbedded.Gateway.Common
import LinuxEmbedded.Gateway.Sbuffer
import LinuxEmbedded.Gateway.SbufferThreads
import LinuxEmbedded.Gateway.SbufferFifo
import LinuxEmbedded.Gateway.DataManager
import LinuxEmbedded.Lib.Session
import LinuxEmbedded.Gateway.Averages
import LinuxEmbedded.Gateway.Alerts
import LinuxEmbedded.Lib.Wakeups
import LinuxEmbedded.Gateway.SbufferWakeup
import LinuxEmbedded.Gateway.Connections
import LinuxEmbedded.Gateway.SensorRecord
import LinuxEmbedded.Gateway.ConnectionManager
import LinuxEmbedded.Gateway.Alignment
import LinuxEmbedded.Gateway.Timeouts
import LinuxEmbedded.Gateway.Descriptors
import LinuxEmbedded.Gateway.SensorStream
import LinuxEmbedded.Gateway.Consumers
import LinuxEmbedded.Gateway.ReadingLedger
import LinuxEmbedded.Gateway.EndToEnd
import LinuxEmbedded.Gateway.SbufferSections
import LinuxEmbedded.Gateway.Locks
import LinuxEmbedded.Gateway.LogStream
import LinuxEmbedded.Gateway.LogProcess
import LinuxEmbedded.Gateway.Shutdown
import LinuxEmbedded.Gateway.ShutdownWakeup
import LinuxEmbedded.Gateway.Quiescence
import LinuxEmbedded.Gateway.ShutdownDrain
import LinuxEmbedded.Gateway.DropReports
import LinuxEmbedded.Gateway.FailedCalls
import LinuxEmbedded.Gateway.SensorIsolation
import LinuxEmbedded.Gateway.StorageLoop
import LinuxEmbedded.Gateway.ConsumerLoops
import LinuxEmbedded.Gateway.ShutdownLoops
import LinuxEmbedded.Gateway.ClientScan
import LinuxEmbedded.Gateway.ConnectionBounds
import LinuxEmbedded.Chat.Stream
import LinuxEmbedded.Chat.Attempts
import LinuxEmbedded.Chat.Threads
import LinuxEmbedded.Chat.Peers
import LinuxEmbedded.Chat.Progress
import LinuxEmbedded.Chat.Network
import LinuxEmbedded.Chat.Traffic
import LinuxEmbedded.Chat.ClientsArray
import LinuxEmbedded.Chat.UiRun
import LinuxEmbedded.Chat.Attribution
import LinuxEmbedded.Chat.ClientList
import LinuxEmbedded.Chat.Commands
import LinuxEmbedded.Chat.CommandLines
import LinuxEmbedded.Chat.OwnNumber
import LinuxEmbedded.Chat.UserText
import LinuxEmbedded.CharDev.ReadBack
import LinuxEmbedded.CharDev.Chunks
import LinuxEmbedded.Lib.Lifecycle
import LinuxEmbedded.Drivers.Load
import LinuxEmbedded.Drivers.Led
import LinuxEmbedded.Drivers.LedWriters
import LinuxEmbedded.Gateway.StorageThread
import LinuxEmbedded.Gateway.LogFile
import LinuxEmbedded.Chat.CommandText
import LinuxEmbedded.Lib.Strtol
import LinuxEmbedded.Gateway.CommandLine
import LinuxEmbedded.Gateway.SensorNode
import LinuxEmbedded.Gateway.AlertSources
import LinuxEmbedded.Exercises.SumArrMutex
import LinuxEmbedded.Exercises.ThreadSyncMutex
import LinuxEmbedded.Exercises.ReadWriteLock
import LinuxEmbedded.Exercises.VarCondEnd
import LinuxEmbedded.Exercises.ProcessSignal
import LinuxEmbedded.Gateway.Startup
