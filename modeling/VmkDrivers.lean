import VmkDrivers.Vmklinux.Cancel
import VmkDrivers.Vmklinux.CnaQueues
import VmkDrivers.Vmklinux.CnaVlan
import VmkDrivers.Vmklinux.CompObjects
import VmkDrivers.Vmklinux.CompletionWait
import VmkDrivers.Vmklinux.Dcb
import VmkDrivers.Vmklinux.DmaPool
import VmkDrivers.Vmklinux.DmaSync
import VmkDrivers.Vmklinux.EthCrc
import VmkDrivers.Vmklinux.IodmEventCount
import VmkDrivers.Vmklinux.IodmRequests
import VmkDrivers.Vmklinux.LinkStatus
import VmkDrivers.Vmklinux.Napi
import VmkDrivers.Vmklinux.NetRegister
import VmkDrivers.Vmklinux.NetTx
import VmkDrivers.Vmklinux.PktFrags
import VmkDrivers.Vmklinux.PktLayout
import VmkDrivers.Vmklinux.PortEvents
import VmkDrivers.Vmklinux.ProcRead
import VmkDrivers.Vmklinux.QueueDepth
import VmkDrivers.Vmklinux.RcuBarrier
import VmkDrivers.Vmklinux.RcuCover
import VmkDrivers.Vmklinux.ScheduleTimeout
import VmkDrivers.Vmklinux.ScsiBusy
import VmkDrivers.Vmklinux.ScsiCmdDone
import VmkDrivers.Vmklinux.ScsiCompletions
import VmkDrivers.Vmklinux.ScsiDeletion
import VmkDrivers.Vmklinux.ScsiExecute
import VmkDrivers.Vmklinux.ScsiHost
import VmkDrivers.Vmklinux.ScsiRecycled
import VmkDrivers.Vmklinux.ScsiSense
import VmkDrivers.Vmklinux.Signal
import VmkDrivers.Vmklinux.SkbToPkt
import VmkDrivers.Vmklinux.WorkMemory
import VmkDrivers.Vmkplexer.ChardevIndices
import VmkDrivers.Vmkplexer.ChardevPending
import VmkDrivers.Vmkplexer.ChardevUnregister
import VmkDrivers.Vmkplexer.Entropy
import VmkDrivers.Vmkplexer.ProcfsSpelling
import VmkDrivers.Vmkplexer.ProcfsTree
import VmkDrivers.Wfs.BertRtt
import VmkDrivers.Wfs.Carrier
import VmkDrivers.Wfs.CommandLine
import VmkDrivers.Wfs.FibDump
import VmkDrivers.Wfs.FibFlush
import VmkDrivers.Wfs.FibPeers
import VmkDrivers.Wfs.FibTrim
import VmkDrivers.Wfs.Flood
import VmkDrivers.Wfs.LinkState
import VmkDrivers.Wfs.LocalState
import VmkDrivers.Wfs.MacTable
import VmkDrivers.Wfs.MtuRoom
import VmkDrivers.Wfs.NapiList
import VmkDrivers.Wfs.OptionScan
import VmkDrivers.Wfs.PeerExpiry
import VmkDrivers.Wfs.QVectorBudget
import VmkDrivers.Wfs.RapsChannel
import VmkDrivers.Wfs.RapsTimers
import VmkDrivers.Wfs.ReceiveRuns
import VmkDrivers.Wfs.Reopen
import VmkDrivers.Wfs.SkbCustody
import VmkDrivers.Wfs.Statistics
import VmkDrivers.Wfs.TransmitConservation
