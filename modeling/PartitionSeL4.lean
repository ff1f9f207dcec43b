import PartitionSeL4.Lib.Run
import PartitionSeL4.Lib.TimeTable
import PartitionSeL4.Lib.Scan
import PartitionSeL4.Lib.Bytes
import PartitionSeL4.Data
import PartitionSeL4.Sched
import PartitionSeL4.Partition
import PartitionSeL4.Server
import PartitionSeL4.Port
import PartitionSeL4.SchedProof
import PartitionSeL4.Layout
import PartitionSeL4.Invariant
import PartitionSeL4.Step
import PartitionSeL4.Boot
import PartitionSeL4.WellFormed
import PartitionSeL4.Temporal
import PartitionSeL4.Running
import PartitionSeL4.Records
import PartitionSeL4.Budget
import PartitionSeL4.Accounting
import PartitionSeL4.Stopped
import PartitionSeL4.Isolation
import PartitionSeL4.Authority
import PartitionSeL4.PortProof
import PartitionSeL4.Survival
import PartitionSeL4.Channel
import PartitionSeL4.Apex
import PartitionSeL4.Refos.DataStruct
import PartitionSeL4.Refos.ObjectTable
import PartitionSeL4.Refos.BitmapPool
import PartitionSeL4.Refos.PageDir
import PartitionSeL4.Refos.NameRegistry
import PartitionSeL4.Refos.Pager
import PartitionSeL4.Refos.Session
import PartitionSeL4.Refos.Pending
import PartitionSeL4.Refos.Dataspace
import PartitionSeL4.Refos.Frames
import PartitionSeL4.Refos.Ring
import PartitionSeL4.Refos.Stream
import PartitionSeL4.Refos.Unmarshal
import PartitionSeL4.Refos.ShareBounds
import PartitionSeL4.Refos.Identifiers
import PartitionSeL4.Refos.VspaceLife
import PartitionSeL4.Refos.StaticHeap
import PartitionSeL4.Refos.HeapGrowth
import PartitionSeL4.Refos.FileTable
import PartitionSeL4.Refos.Writev
import PartitionSeL4.Refos.WritevStdout
import PartitionSeL4.Refos.WritevFiles
import PartitionSeL4.Refos.WritevProof
import PartitionSeL4.Refos.Dispatch
import PartitionSeL4.Refos.Share
import PartitionSeL4.Refos.ServerRing
import PartitionSeL4.Refos.Watch
import PartitionSeL4.Refos.ContentInit
import PartitionSeL4.Lib.BitWords
import PartitionSeL4.Refos.Bitmask
import PartitionSeL4.Refos.WaitingList
import PartitionSeL4.Refos.Reply
import PartitionSeL4.Lib.Arena
import PartitionSeL4.Lib.Bisect
import PartitionSeL4.Refos.Window
import PartitionSeL4.Refos.Search
import PartitionSeL4.Refos.Vspace
import PartitionSeL4.Refos.VspaceStep
import PartitionSeL4.Refos.VspaceProof
import PartitionSeL4.Lib.RefCount
import PartitionSeL4.Refos.MemServ
import PartitionSeL4.Refos.ProcessTable
import PartitionSeL4.Refos.MemServProof
import PartitionSeL4.Refos.Exhaustion
import PartitionSeL4.Refos.Fault
import PartitionSeL4.Refos.FaultProof
import PartitionSeL4.Refos.Permissions
import PartitionSeL4.Refos.Anonymous
import PartitionSeL4.Refos.Delegation
import PartitionSeL4.Refos.Device
import PartitionSeL4.Refos.Input
import PartitionSeL4.Refos.Waiters
import PartitionSeL4.Refos.FileServ
import PartitionSeL4.Refos.FileServSafe
import PartitionSeL4.Refos.Paging
import PartitionSeL4.Refos.FileServPages
import PartitionSeL4.Refos.RamBounds
import PartitionSeL4.Refos.RamFile
import PartitionSeL4.Refos.RamNames
import PartitionSeL4.Refos.Naming
import PartitionSeL4.Refos.Rpc
import PartitionSeL4.Refos.Mmap
import PartitionSeL4.Lib.Slots
import PartitionSeL4.Refos.Slots
import PartitionSeL4.Creation
import PartitionSeL4.Clone
import PartitionSeL4.PortChecks
import PartitionSeL4.Freshness
import PartitionSeL4.Lib.Block
import PartitionSeL4.Refos.Cvector
import PartitionSeL4.Refos.IdPool
import PartitionSeL4.Refos.Chash
import PartitionSeL4.Refos.TimerClock
import PartitionSeL4.Kernel.CdtFind
import PartitionSeL4.Kernel.Fastpath
import PartitionSeL4.Kernel.Domains
