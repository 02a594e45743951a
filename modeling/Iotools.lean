import Iotools.Interaction
import Iotools.Bytes
import Iotools.Numeral
import Iotools.Platform
import Iotools.Diagnostics
import Iotools.Sys
import Iotools.Commands
import Iotools.I2cDev
import Iotools.Smbus
import Iotools.Mmio
import Iotools.Pci
import Iotools.IoPort
import Iotools.Logic
import Iotools.Misc
import Iotools.RegisterFiles
import Iotools.Tables
import Iotools.Setup
import Iotools.Traces
import Iotools.SmbusOperands
import Iotools.SmbusRun
import Iotools.SmbusGuarantees
import Iotools.SmbusRoundTrip
import Iotools.SmbusByteOrder
import Iotools.MmioAccess
import Iotools.WrittenValues
import Iotools.Cacheability
import Iotools.IntrusiveList
import Iotools.Registry
import Iotools.Dispatch
import Iotools.Links
import Iotools.Invocation
import Iotools.PciNames
import Iotools.PciAccess
import Iotools.PciList
import Iotools.IoAccess
import Iotools.LogicLaws
import Iotools.RegisterReports
import Iotools.WritereadExchange
import Iotools.Descriptors
import Iotools.DescriptorBalance
import Iotools.DescriptorLeaks
import Iotools.NumericOperands
import Iotools.BlockOperands
import Iotools.EntrySafety
import Iotools.RegisterSafety
import Iotools.TableSafety
import Iotools.Bits
import Iotools.ScomAddress
import Iotools.BitCommands
import Iotools.LogicResults
import Iotools.DumpWindow
import Iotools.DumpText
import Iotools.DumpModes
import Iotools.LinkReports
import Iotools.PciProcfs
import Iotools.CpuPinning
import Iotools.BusyLoop
import Iotools.ChipId
import Iotools.BlockMemory
import Iotools.Contracts
import Iotools.Authority
import Iotools.EntryContracts
import Iotools.DeviceContracts
import Iotools.RegisterContracts
import Iotools.CommandContracts
import Iotools.ProgramContracts
import Iotools.Sessions
import Iotools.MemorySessions
import Iotools.PciSessions
import Iotools.RegisterSessions
import Iotools.Scripts
import Iotools.SmbusDevices
import Iotools.SmbusSessions
import Iotools.LinkSessions
import Iotools.Interleavings
import Iotools.SharedSlots
import Iotools.SingleAccess
import Iotools.ConcurrentRuns
import Iotools.CoreNumbers
import Iotools.CpuSweep
import Iotools.ConcurrentLinks
