import Nucleo.Lib.StampedQueue
import Nucleo.Lib.Tickets
import Nucleo.Lib.Memory
import Nucleo.Lib.Tlv
import Nucleo.Lib.Trace
import Nucleo.Lib.Comp
import Nucleo.Lib.TwoRuns
import Nucleo.Lib.Ring
import Nucleo.Lib.Ownership
import Nucleo.Lib.Guarded
import Nucleo.Lib.Walk
import Nucleo.Lib.BlockStore
import Nucleo.Lib.Resources
import Nucleo.Posix
import Nucleo.Inet
import Nucleo.InetText
import Nucleo.Clock
import Nucleo.SignalQueue
import Nucleo.Signal
import Nucleo.SignalCalls
import Nucleo.SignalActions
import Nucleo.SignalAccesses
import Nucleo.PendSv
import Nucleo.Timers
import Nucleo.SignalNumbers
import Nucleo.DhcpMessage
import Nucleo.DhcpOptions
import Nucleo.DhcpClient
import Nucleo.DhcpRequest
import Nucleo.DhcpBounds
import Nucleo.DhcpLease
import Nucleo.TimespecOrder
import Nucleo.TimespecAlgebra
import Nucleo.ClockResolution
import Nucleo.ClockWords
import Nucleo.TimersManage
import Nucleo.TimerIds
import Nucleo.TimerRuns
import Nucleo.DhcpLeaseTimes
import Nucleo.DhcpRenewal
import Nucleo.DnsMessage
import Nucleo.DnsResponse
import Nucleo.Lib.Chain
import Nucleo.DnsNames
import Nucleo.DnsRecords
import Nucleo.W5100Chip
import Nucleo.W5100Reg2
import Nucleo.FileTable
import Nucleo.W5100Socket
import Nucleo.W5100Ring
import Nucleo.W5100Dhcp
import Nucleo.W5100Fifo
import Nucleo.FatFs
import Nucleo.FatDir
import Nucleo.DirStream
import Nucleo.FatFsEffects
import Nucleo.Syscalls
import Nucleo.DirHandles
import Nucleo.FatOpenObjects
import Nucleo.FatSeek
import Nucleo.FatFileSize
import Nucleo.W5100Calls
import Nucleo.W5100Effects
import Nucleo.W5100Ownership
import Nucleo.W5100OwnershipRuns
import Nucleo.W5100Rights
import Nucleo.W5100NullDeref
import Nucleo.Descriptors
import Nucleo.ClosedDescriptors
import Nucleo.W5100BlockingMode
import Nucleo.W5100RxRing
import Nucleo.W5100Datagrams
import Nucleo.W5100RecvBounds
import Nucleo.W5100Meter
import Nucleo.W5100Readings
import Nucleo.W5100Errors
import Nucleo.W5100Still
import Nucleo.W5100SlotTypes
import Nucleo.Lib.Retry
import Nucleo.SigTimedWait
import Nucleo.SignalPreempt
import Nucleo.SignalDelivery
import Nucleo.Lib.Coupling
import Nucleo.SpiBus
import Nucleo.W5100Ports
import Nucleo.W5100PortNames
import Nucleo.W5100Readiness
import Nucleo.W5100Connections
import Nucleo.W5100Undisturbed
import Nucleo.W5100OnConnection
import Nucleo.W5100Linked
import Nucleo.W5100Ties
import Nucleo.Lib.Alarms
import Nucleo.Lib.BitWords
import Nucleo.Select
import Nucleo.SelectCallers
import Nucleo.Waits
import Nucleo.SdSpi
import Nucleo.SdDisk
import Nucleo.SdInit
import Nucleo.SdCard
import Nucleo.BlockStorage
import Nucleo.DiskHistory
import Nucleo.SdStart
import Nucleo.Poll
import Nucleo.NetCalls
import Nucleo.Sntp
import Nucleo.NtpTimes
import Nucleo.Timesync
import Nucleo.SyncSteps
import Nucleo.ClockEstimate
import Nucleo.NetClients
import Nucleo.Rfc868Time
import Nucleo.DnsQuery
import Nucleo.GetHostByName
import Nucleo.NetDescriptors
