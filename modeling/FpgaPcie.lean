import FpgaPcie.Lib.Transition
import FpgaPcie.Lib.Segments
import FpgaPcie.Lib.Paging
import FpgaPcie.Lib.Keyed
import FpgaPcie.Lib.Polling
import FpgaPcie.Lib.WrapCounter
import FpgaPcie.Lib.Holdings
import FpgaPcie.Lib.LinkReader
import FpgaPcie.Lib.PageTable
import FpgaPcie.Lib.AddressSpace
import FpgaPcie.Lib.Mutex
import FpgaPcie.Lib.Interleaving
import FpgaPcie.Mprace.DescriptorWG
import FpgaPcie.Mprace.SendExact
import FpgaPcie.Mprace.KernelPath
import FpgaPcie.Mprace.ListIntegrity
import FpgaPcie.Mprace.WaitOutcome
import FpgaPcie.Mprace.BounceFrame
import FpgaPcie.Mprace.InterruptEnable
import FpgaPcie.Mprace.WalkBounds
import FpgaPcie.Mprace.RequestRange
import FpgaPcie.Mprace.SentList
import FpgaPcie.Mprace.ChannelPair
import FpgaPcie.Driver.OwnMapping
import FpgaPcie.Driver.FailedCall
import FpgaPcie.Driver.UserPages
import FpgaPcie.Driver.ListViews
import FpgaPcie.Driver.PageLock
import FpgaPcie.Driver.HandleNames
import FpgaPcie.Driver.IdLookups
import FpgaPcie.Driver.ProbeFailure
import FpgaPcie.Driver.DeviceNumbers
import FpgaPcie.Driver.Removal
import FpgaPcie.Driver.EntryDiscipline
import FpgaPcie.Driver.InterruptAccount
import FpgaPcie.Driver.ClearedQueue
import FpgaPcie.Driver.UserMemoryExact
import FpgaPcie.Driver.SgList
import FpgaPcie.Driver.Mmap
import FpgaPcie.Driver.CUserMemory
import FpgaPcie.Driver.SyncCoverage
import FpgaPcie.Driver.MappingLock
import FpgaPcie.Driver.BarPlacement
import FpgaPcie.Creotech.StreamOrder
import FpgaPcie.Creotech.HalfBounds
import FpgaPcie.Creotech.CharMmap
import FpgaPcie.Creotech.CallOutcome
import FpgaPcie.Creotech.CompletionFlag
import FpgaPcie.Creotech.MappingBalance
import FpgaPcie.Creotech.SettingsFrame
import FpgaPcie.Creotech.TransferCount
import FpgaPcie.Creotech.ProbeRemove
import FpgaPcie.Lib.Bus
import FpgaPcie.Mprace.Board
import FpgaPcie.Mprace.BlockAccess
import FpgaPcie.Mprace.MPRACE2
import FpgaPcie.Mprace.BoardDma
import FpgaPcie.Driver.PageEntries
import FpgaPcie.Driver.CompatPages
import FpgaPcie.Lib.Ram
import FpgaPcie.Mprace.DescriptorListWG
import FpgaPcie.Mprace.ListInMemory
import FpgaPcie.Lib.TextPage
import FpgaPcie.Driver.Listings
import FpgaPcie.Mprace.DataGenerator
import FpgaPcie.Lib.Serial
import FpgaPcie.Mprace.ICS8430I
import FpgaPcie.Lib.TextStream
import FpgaPcie.Mprace.V4ConfigSMAP
import FpgaPcie.Mprace.PinInRegister
import FpgaPcie.Lib.Refinement
import FpgaPcie.Lib.Scatter
import FpgaPcie.Mprace.UserBuffer
import FpgaPcie.Mprace.CopyMachine
import FpgaPcie.Mprace.CopyRuns
import FpgaPcie.Mprace.BoardRoundTrip
import FpgaPcie.Lib.MessageQueue
import FpgaPcie.Mprace.IpcQueues
import FpgaPcie.Mprace.IpcRuns
import FpgaPcie.Mprace.IpcAnswers
import FpgaPcie.Mprace.IpcProgress
import FpgaPcie.Mprace.IpcShared
import FpgaPcie.Mprace.BoardPaths
import FpgaPcie.Lib.Throwing
import FpgaPcie.Lib.Leases
import FpgaPcie.Lib.Mirror
import FpgaPcie.Mprace.BufferMemory
import FpgaPcie.Mprace.BufferLedger
import FpgaPcie.Mprace.BufferEntries
import FpgaPcie.Lib.Rotation
import FpgaPcie.Creotech.StreamFill
import FpgaPcie.Creotech.StreamClient
import FpgaPcie.Creotech.StreamDelivery
