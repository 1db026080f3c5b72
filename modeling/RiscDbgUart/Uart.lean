/-
  `uart.sv`: the receiver with its FIFO, the transmitter, and the register that says whose the line is.

  A byte that the receiver announces is offered to the FIFO in the same cycle, and a full FIFO drops it.
  The FIFO asks the transmitter for a pause while it is half full; the transmitter puts a byte of its own
  on the line for that, and another one when the FIFO has drained.  The second channel gets the line
  while the receiver reports a line error, and for single cycles when a switch is asked for.

  The receiver is driven by the line alone, and the transmitter by what is here called `txIn`, so that
  both are components: what is proved of the receiver on any line and of the transmitter under any client
  holds inside (`rx_component`, `tx_component`).

  The FIFO cannot refuse the receiver, and the receiver does not know that it is full.  That no byte is lost
  is therefore a matter of who reads the FIFO and how fast, which is settled for a polite host in
  `SerialWrites`.
-/
import RiscDbgUart.Clocked.Component
import RiscDbgUart.SimpleFifo
import RiscDbgUart.UartRx
import RiscDbgUart.UartTx

set_option linter.unusedVariables false

namespace RiscDbgUart.Uart

open Clocked

/-- The default of `SIMPLE_FIFO`. -/
abbrev ABITS : Nat := 2

/-- The three blocks and the register of the channel switch. -/
structure State where
  rx : UartRx.State
  fifo : SimpleFifo.State ABITS
  tx : UartTx.State
  channel : Bool

/-- The client's side of both directions, the line in, the second channel's line out, and the pin that
    asks for a switch of channels. -/
structure Input where
  weI : Bool := false
  dsendI : Byte := 0
  escDetectedI : Bool := false
  reI : Bool := false
  rx0I : Bool := true
  tx1I : Bool := true
  swChannelI : Bool := false
deriving DecidableEq, Repr

/-! ## The outputs -/

/-- `DREC_O`: the oldest byte of the FIFO. -/
def drecO (s : State) : Byte := SimpleFifo.rDataO s.fifo

/-- `RX_EMPTY_O` -/
def rxEmptyO (s : State) : Bool := SimpleFifo.emptyO s.fifo

/-- `RX_FULL_O` -/
def rxFullO (s : State) : Bool := SimpleFifo.fullO s.fifo

/-- `TX_READY_O`: the transmitter is not busy with a frame. -/
def txReadyO (s : State) : Bool := !UartTx.txBusyO s.tx

/-- `CHANNEL_O` -/
def channelO (s : State) : Bool := s.channel

/-- `RX1_O` -/
def rx1O (s : State) : Bool := UartRx.rx1O s.rx

/-! ## The wiring -/

/-- What the FIFO sees: the receiver on the one side, which it cannot refuse, and the client's read on the
    other. -/
def fifoIn (s : State) (i : Input) : SimpleFifo.Input :=
  { reI := i.reI, weI := s.rx.core.rxDoneO, wDataI := s.rx.core.dataO }

/-- What the transmitter sees: the client's byte, and the fill of the receiver's FIFO as the wish for a
    pause. -/
def txIn (s : State) (i : Input) : UartTx.Input :=
  { txStartI := i.weI
    sendPauseI := SimpleFifo.halfFullO s.fifo
    escDetectedI := i.escDetectedI
    channelI := s.channel
    tx1I := i.tx1I
    dataI := i.dsendI }

/-- `TX0_O` -/
def tx0O (s : State) (i : Input) : Bool := UartTx.tx0O s.tx (txIn s i)

def reset (r : Rates) (s : State) : State :=
  { rx := UartRx.reset r
    fifo := SimpleFifo.reset ABITS s.fifo.ram
    tx := UartTx.reset r s.tx
    channel := false }

def next (r : Rates) (s : State) (i : Input) : State :=
  { rx := UartRx.next r s.rx i.rx0I
    fifo := SimpleFifo.next s.fifo (fifoIn s i)
    tx := UartTx.next r s.tx (txIn s i)
    -- `CHANGE_CHANNEL`
    channel := UartRx.channelO s.rx || (i.swChannelI && !s.channel) }

theorem rx_component (r : Rates) :
    Component (next r) (UartRx.next r) State.rx (fun _ i => i.rx0I) := fun _ _ => rfl

theorem tx_component (r : Rates) : Component (next r) (UartTx.next r) State.tx txIn :=
  fun _ _ => rfl

/-- The byte that the receiver announces in a cycle, and the FIFO stores if it is not full. -/
def announced (s : State) : Option Byte := if s.rx.core.rxDoneO then some s.rx.core.dataO else none

theorem received_eq (s : State) : s.rx.core.received = (announced s).toList := by
  rw [UartRx.Core.received, announced]
  cases s.rx.core.rxDoneO <;> rfl

end RiscDbgUart.Uart
