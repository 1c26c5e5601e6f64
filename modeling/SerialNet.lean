import SerialNet.FrameCodec
import SerialNet.FrameRoundTrip
import SerialNet.FrameIndex
import SerialNet.FrameGrammar
import SerialNet.FrameLength
import SerialNet.FrameCorruption
import SerialNet.ByteAdapter
import SerialNet.ByteChunks
import SerialNet.PacketTypeCodec
import SerialNet.Delivery
import SerialNet.TimerHandles
import SerialNet.Drivers.SocatTunHostDriver
import SerialNet.Drivers.TunProtocol
import SerialNet.Drivers.MacLearning
import SerialNet.Drivers.AddressHistory
import SerialNet.Drivers.TapBounds
import SerialNet.Drivers.Interface
import SerialNet.Master.AddressPool
import SerialNet.Master.Phases
import SerialNet.Master.PacketBounds
import SerialNet.Master.Reports
import SerialNet.Master.Tokens
import SerialNet.Master.AddressReplies
import SerialNet.Master.StaticLines
import SerialNet.Master.RequestIds
import SerialNet.Master.Eviction
import SerialNet.Master.ReadyWork
import SerialNet.Master.Progress
import SerialNet.Master.DiscoveryRounds
import SerialNet.Master.Commands
import SerialNet.Master.Credit
import SerialNet.Master.Wiring
import SerialNet.Master.Fairness
import SerialNet.Master.HeapScheduler
import SerialNet.SourceAddress
import SerialNet.Bus.Agreement
import SerialNet.Bus.Arbitration
import SerialNet.Bus.Exclusion
import SerialNet.Bus.Addressing
import SerialNet.Bus.StaticAddresses
import SerialNet.StateChart.LifeCycle
import SerialNet.StateChart.Termination
import SerialNet.Bus.Broadcast
import SerialNet.Bus.Tunnel
import SerialNet.Master.ChartRuns
import SerialNet.Bus.Results
import SerialNet.Bus.LineRuns
import SerialNet.Bus.Restart
import SerialNet.Bus.Ethernet
import SerialNet.Bus.NullModem
import SerialNet.Bus.LineTraffic
import SerialNet.Bus.Shutdown
