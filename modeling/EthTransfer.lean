import EthTransfer.Stack.Refinement
import EthTransfer.Receive.Order
import EthTransfer.Receive.Duplicate
import EthTransfer.Transmit.Stream
import EthTransfer.Transmit.SynPosition
import EthTransfer.Transmit.FlowControl
import EthTransfer.Transmit.SegmentSize
import EthTransfer.Transmit.Retransmission
import EthTransfer.Close.Reset
import EthTransfer.Close.States
import EthTransfer.Close.Fin
import EthTransfer.Close.FinPosition
import EthTransfer.Close.PeerFin
import EthTransfer.Handshake
import EthTransfer.Translation
import EthTransfer.Isolation
import EthTransfer.Driver.Enc28j60
import EthTransfer.Driver.GetPacket
import EthTransfer.Driver.ReceiveRing
import EthTransfer.Driver.PacketLength
import EthTransfer.Http.Content
import EthTransfer.Http.Upload
import EthTransfer.Http.Server
import EthTransfer.Http.Agreement
import EthTransfer.Http.Segmentation
import EthTransfer.Http.Loop
import EthTransfer.Http.Bounds
import EthTransfer.Http.Session
import EthTransfer.Http.Release
import EthTransfer.Frames.Bytes
import EthTransfer.Frames.Destination
import EthTransfer.Frames.Copies
import EthTransfer.Frames.Transmit
import EthTransfer.Frames.Wire
import EthTransfer.Frames.Scratch
import EthTransfer.Frames.WellFormed
import EthTransfer.Frames.OptionCut
import EthTransfer.Frames.Determined
import EthTransfer.Http.BlankLine
import EthTransfer.Http.Memory
import EthTransfer.Http.Lookup
import EthTransfer.Http.Body
import EthTransfer.Http.Response
import EthTransfer.Frames.OptionWalk
import EthTransfer.Receive.Merge
import EthTransfer.Frames.EchoReply
import EthTransfer.Transmit.Timer
import EthTransfer.Receive.Progress
import EthTransfer.Close.DeadWrite
import EthTransfer.Driver.Bus
import EthTransfer.Driver.Balance
import EthTransfer.Driver.AmbientBank
import EthTransfer.Driver.GpioSpi
import EthTransfer.Driver.SpiSession
import EthTransfer.Driver.Simulation
import EthTransfer.Http.Arguments
import EthTransfer.Http.Delivery
import EthTransfer.Driver.Boot
import EthTransfer.Whole.OnChip
