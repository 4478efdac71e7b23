import CanNet.Lib.Bits
import CanNet.Lib.Machine
import CanNet.Lib.Ring
import CanNet.Lib.Simulation
import CanNet.Lib.RingReader
import CanNet.Lib.Mailbox
import CanNet.Lib.RuleList
import CanNet.Lib.RangeSearch
import CanNet.Lib.Loops
import CanNet.Lib.Codec
import CanNet.Lib.Registers
import CanNet.Config
import CanNet.Mcan
import CanNet.Driver
import CanNet.Controller
import CanNet.Handler
import CanNet.RxScan
import CanNet.Node
import CanNet.Transmit
import CanNet.Recovery
import CanNet.RxBuffers
import CanNet.RxFifo0
import CanNet.RxFifos
import CanNet.Reports
import CanNet.TxFrames
import CanNet.Acceptance
import CanNet.Interrupts
import CanNet.Ticker
import CanNet.Period
import CanNet.Clock
import CanNet.Counter
import CanNet.Ticks
import CanNet.Divisor
import CanNet.Commands
import CanNet.Accounting
import CanNet.Dispatch
import CanNet.CommandFrames
import CanNet.Slave
import CanNet.Link
import CanNet.TxMailbox
import CanNet.Telemetry
import CanNet.Overlay
import CanNet.Console
import CanNet.ConsoleTraffic
import CanNet.ConsoleReceive
import CanNet.Mega
import CanNet.Network
import CanNet.TxStores
import CanNet.Modes
import CanNet.RxStatements
import CanNet.ClockTree
import CanNet.BitRate
