import Viosnd.Lib.Runs
import Viosnd.Lib.Loans
import Viosnd.Lib.Effects
import Viosnd.Lib.Slots
import Viosnd.Lib.Stock
import Viosnd.Lib.Clock
import Viosnd.Lib.Paths
import Viosnd.Lib.LossyWindow
import Viosnd.Lib.RingQueue
import Viosnd.Lib.ThreadPool
import Viosnd.Lib.QueueLedger
import Viosnd.Lib.BoundedQueue
import Viosnd.Lib.Decimator
import Viosnd.Lib.Laps
import Viosnd.Lib.Machines
import Viosnd.Lib.QueueRuns
import Viosnd.Lib.EventIndex
import Viosnd.Render.SetState
import Viosnd.Render.Effects
import Viosnd.Render.Reset
import Viosnd.Render.Lifecycle
import Viosnd.Render.Stock
import Viosnd.Render.Ownership
import Viosnd.Render.Conservation
import Viosnd.Render.TxRing
import Viosnd.Render.PacketOrder
import Viosnd.Render.SharedCursor
import Viosnd.Render.Clock
import Viosnd.Render.Period
import Viosnd.Render.PacketCount
import Viosnd.Render.Resample
import Viosnd.Render.Downsample
import Viosnd.Render.Outstanding
import Viosnd.Render.Tuning
import Viosnd.Render.Retry
import Viosnd.Render.EndOfStream
import Viosnd.Render.Unnumbered
import Viosnd.Render.Shifted
import Viosnd.Render.Wraparound
import Viosnd.Capture.Effects
import Viosnd.Capture.Session
import Viosnd.Capture.Integrity
import Viosnd.Capture.SharedCounters
import Viosnd.Capture.Position
import Viosnd.Capture.Continuity
import Viosnd.Capture.Ownership
import Viosnd.Capture.Response
import Viosnd.VirtIO.Layout
import Viosnd.VirtIO.LiveQueue
import Viosnd.VirtIO.PcmQueues
import Viosnd.VirtIO.RingTokens
import Viosnd.VirtIO.PackedQueue
import Viosnd.VirtIO.RingsAgree
import Viosnd.VirtIO.Notification
import Viosnd.VirtIO.PackedNotification
import Viosnd.VirtIO.UsedElements
import Viosnd.VirtIO.Representation
import Viosnd.Acx.Moves
import Viosnd.Acx.Submission
import Viosnd.Acx.Periods
import Viosnd.Acx.Pump
import Viosnd.Acx.Completion
import Viosnd.Control.Messages
import Viosnd.Control.Ownership
import Viosnd.Control.Safety
import Viosnd.Acx.ControlSafety
import Viosnd.Worker.References
import Viosnd.Worker.Safety
import Viosnd.Circuit.Stream
import Viosnd.Circuit.Effects
import Viosnd.Circuit.Callbacks
import Viosnd.Circuit.PacketBounds
import Viosnd.Circuit.Lending
import Viosnd.Circuit.Ownership
import Viosnd.Circuit.PacketConservation
import Viosnd.Device.StreamPair
import Viosnd.Lib.Tokens
import Viosnd.Lib.Residues
import Viosnd.Lib.SlotRanges
import Viosnd.Render.ClockArithmetic
import Viosnd.Buffer.Allocation
import Viosnd.Buffer.Geometry
import Viosnd.Buffer.Bounds
import Viosnd.Lib.LinkedCells
import Viosnd.Device.DmaBlocks
import Viosnd.Worker.ReferenceCalls
import Viosnd.Worker.Reclaim
import Viosnd.Worker.ReclaimSafety
import Viosnd.Pci.NotifyAddress
import Viosnd.Pci.ConfigRead
import Viosnd.Pci.QueueBooks
import Viosnd.Wdf.BufferSafety
import Viosnd.Wdf.SlicedPool
import Viosnd.Wdf.SliceSafety
import Viosnd.Wdf.TransactionLifetime
import Viosnd.Device.EventQueue
import Viosnd.Device.EventDelivery
import Viosnd.Lib.Dialogue
import Viosnd.Control.Requests
import Viosnd.Control.Commands
import Viosnd.Acx.PcmInfoQuery
import Viosnd.Device.Registers
import Viosnd.Acx.Lifecycle
import Viosnd.Acx.LifecycleSafety
import Viosnd.VirtIO.PackedUsedElements
import Viosnd.Circuit.CaptureContinuity
import Viosnd.Circuit.PcmProtocol
import Viosnd.Device.AdapterStart
import Viosnd.Device.AdapterSafety
import Viosnd.Pci.LegacyQueues
import Viosnd.Pci.LegacySafety
import Viosnd.Lib.Tables
import Viosnd.Pci.BaseAddresses
import Viosnd.Pci.BarWindows
import Viosnd.Pci.BarSessions
