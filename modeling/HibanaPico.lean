import HibanaPico.Support.Runs
import HibanaPico.Support.Lockstep
import HibanaPico.Support.Network
import HibanaPico.Support.Lists
import HibanaPico.Support.Cells
import HibanaPico.Support.Slots
import HibanaPico.Support.Format
import HibanaPico.Support.CharDisplay
import HibanaPico.Support.Framing
import HibanaPico.Support.Ring
import HibanaPico.Support.Replay
import HibanaPico.Support.Keyed
import HibanaPico.Support.Scanning
import HibanaPico.Support.Wire
import HibanaPico.Support.Trimming
import HibanaPico.Support.Ledger
import HibanaPico.Support.Choreography
import HibanaPico.Support.Cyclic
import HibanaPico.Support.Spans
import HibanaPico.Support.Json
import HibanaPico.Support.Splitting
import HibanaPico.Support.Doze
import HibanaPico.Transport.Types
import HibanaPico.UnoQ.Uart
import HibanaPico.UnoQ.Resync
import HibanaPico.UnoQ.Soundness
import HibanaPico.UnoQ.SingleByte
import HibanaPico.UnoQ.TwoUarts
import HibanaPico.UnoQ.ProofQueue
import HibanaPico.UnoQ.ProofList
import HibanaPico.UnoQ.ProofCarrier
import HibanaPico.UnoQ.Drain
import HibanaPico.UnoQ.UartCarriers
import HibanaPico.UnoQ.SendDeadline
import HibanaPico.Sio.Types
import HibanaPico.Sio.Doze
import HibanaPico.Baker.Mailbox
import HibanaPico.Baker.Carrier
import HibanaPico.Baker.System
import HibanaPico.Baker.Steps
import HibanaPico.Baker.Doze
import HibanaPico.Baker.Accounting
import HibanaPico.Baker.Sends
import HibanaPico.Baker.Locality
import HibanaPico.Baker.Lanes
import HibanaPico.Baker.Epf
import HibanaPico.Baker.EpfLoaded
import HibanaPico.Baker.EpfSpool
import HibanaPico.Baker.EpfCommit
import HibanaPico.Rp2w.Words
import HibanaPico.Rp2w.Accumulator
import HibanaPico.Rp2w.Segments
import HibanaPico.Rp2w.Carrier
import HibanaPico.Rp2w.System
import HibanaPico.Rp2w.Streams
import HibanaPico.Rp2w.Senders
import HibanaPico.Rp2w.Interleaving
import HibanaPico.Rp2w.Cancel
import HibanaPico.Rp2w.Stash
import HibanaPico.Rp2w.Doze
import HibanaPico.Rp2w.Delivery
import HibanaPico.Rp2w.ExactlyOnce
import HibanaPico.Sio.Hand
import HibanaPico.Baker.Requeue
import HibanaPico.Baker.Traffic
import HibanaPico.Baker.TrafficLoop
import HibanaPico.Rp2w.Requeue
import HibanaPico.Sio.Requeue
import HibanaPico.Rp2w.EpfRoute
import HibanaPico.Rp2w.EpfReaders
import HibanaPico.Rp2w.EpfIngress
import HibanaPico.Rp2w.EpfPreemption
import HibanaPico.Rp2w.Gspi
import HibanaPico.Appkit.Roles
import HibanaPico.Appkit.Attach
import HibanaPico.Appkit.FutureArena
import HibanaPico.Appkit.Wasi
import HibanaPico.Appkit.Engine
import HibanaPico.Appkit.Imports
import HibanaPico.Appkit.Arena
import HibanaPico.Appkit.Conversation
import HibanaPico.Appkit.Host
import HibanaPico.UnoQ.Scheduler
import HibanaPico.UnoQ.Wakeups
import HibanaPico.UnoQ.Matrix
import HibanaPico.Appkit.Embedded
import HibanaPico.Appkit.Agree
import HibanaPico.Appkit.Budget
import HibanaPico.Cyw43439.Types
import HibanaPico.Cyw43439.Device
import HibanaPico.Cyw43439.Bounds
import HibanaPico.Cyw43439.Steps
import HibanaPico.Cyw43439.ReceiveQueue
import HibanaPico.Cyw43439.Transactions
import HibanaPico.Cyw43439.BootGate
import HibanaPico.Cyw43439.Replies
import HibanaPico.Cyw43439.PeekLabel
import HibanaPico.Cyw43439.Mesh
import HibanaPico.Cyw43439.Host
import HibanaPico.Cyw43439.Exchange
import HibanaPico.TimerRoute.Alarm
import HibanaPico.TimerRoute.Arming
import HibanaPico.TimerRoute.Shared
import HibanaPico.SensorPanel.Sample
import HibanaPico.SensorPanel.Fresh
import HibanaPico.UnoQ.Protocol
import HibanaPico.UnoQ.HumanInput
import HibanaPico.UnoQ.Shell
import HibanaPico.UnoQ.LlmCommand
import HibanaPico.UnoQ.WholeLine
import HibanaPico.UnoQ.Transcript
import HibanaPico.UnoQ.FaceCycle
import HibanaPico.UnoQ.Session
import HibanaPico.UnoQ.SessionTalk
import HibanaPico.UnoQ.SessionFaces
import HibanaPico.UnoQ.Args
import HibanaPico.UnoQ.JsonString
import HibanaPico.UnoQ.JsonField
import HibanaPico.SensorPanel.Payloads
import HibanaPico.SensorPanel.Choreography
import HibanaPico.SensorPanel.Session
import HibanaPico.SensorPanel.Lockstep
import HibanaPico.SensorPanel.Conformance
import HibanaPico.SensorPanel.Acks
import HibanaPico.SensorPanel.Recovery
import HibanaPico.SensorPanel.LcdText
import HibanaPico.SensorPanel.LcdRows
import HibanaPico.SensorPanel.Lcd
import HibanaPico.SensorPanel.Literals
import HibanaPico.Split.Carrier
import HibanaPico.Split.Delivery
import HibanaPico.Split.Counters
import HibanaPico.Rp2040Sio.Device
import HibanaPico.Rp2040Sio.Cores
import HibanaPico.Rp2040Sio.Fifo
import HibanaPico.Rp2040Sio.Launch
