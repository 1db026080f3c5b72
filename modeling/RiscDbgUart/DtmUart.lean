/-
  `dtm_uart.sv`: the debug transport module on a serial line.

  The UART, the two escape modules, the TAP, the two interconnects and the bridge to the debug module
  interface, wired as the source wires them.  A byte comes in by the receiver and its FIFO, `RX_Escape`
  makes a symbol of it, the TAP takes the symbol as a command or as data, and a word that is complete goes
  through the write interconnect to the bridge or to a stream.  A word to be read comes from the bridge
  or a stream through the read interconnect to the TAP, which sends it byte by byte through `TX_Escape`
  and the transmitter.

  The combinational paths go one way: from the registers of the TAP to the interconnects (`writeIntc`,
  `readIntc`), from there back to the TAP (`tapIn`), and from the TAP to `RX_Escape` (`rxEscIn`).

  The parts that were looked at alone (`WriteSide`, `DmiReadSide`) are components of the whole: they run
  in it as they would with the rest in their input.
-/
import RiscDbgUart.Clocked.Component
import RiscDbgUart.ReadSide
import RiscDbgUart.RxEscape
import RiscDbgUart.TxEscape
import RiscDbgUart.Uart
import RiscDbgUart.WriteSide

set_option linter.unusedVariables false

namespace RiscDbgUart.DtmUart

open Clocked

/-- The registers of the six blocks; the write interconnect has none. -/
structure State where
  uart : Uart.State
  rxEsc : RxEscape.State
  txEsc : TxEscape.State
  tap : DmiUartTap.State
  readIntc : ReadInterconnect.State
  dmi : DmiUart.State

/-- The lines of both channels, the debug module's end of the interface, and the STB targets. -/
structure Input where
  rx0I : Bool := true
  tx1I : Bool := true
  dmiRespValidI : Bool := false
  dmiRespI : BitVec 32 := 0
  dmiReqReadyI : Bool := true
  stbI : ReadInterconnect.Devices := {}
  stbReadyI : WriteInterconnect.Ready := {}

/-! ## The wiring -/

/-- `TX_READY_I` of `TX_Escape`: `uintf_ready && !channel`.  While the line belongs to the second channel
    the escape module must not start a byte. -/
def escTxReady (s : State) : Bool := Uart.txReadyO s.uart && !Uart.channelO s.uart

/-- The outputs of the write interconnect, with the ready of the bridge as the one of the debug module. -/
def writeIntc (s : State) (i : Input) : WriteInterconnect.Output :=
  WriteInterconnect.mux s.tap.wr.currentWriteAddress (DmiUartTap.writeDataO s.tap)
    (DmiUartTap.writeValidO s.tap) { i.stbReadyI with dmiWriteReadyI := s.dmi.tapWriteReadyO }

/-- What the read interconnect sees of the devices: the `STB` targets from outside, and the bridge. -/
def devices (s : State) (i : Input) : ReadInterconnect.Devices :=
  { i.stbI with
    dmiReadValidI := s.dmi.tapReadValidO
    dmiReadDataI := DmiUart.tapReadDataO s.dmi }

/-- `READ_VALID_O` and `READ_DATA_O` of the read interconnect, which keeps the data it showed last where
    the addressed device is not valid. -/
def readIntc (s : State) (i : Input) : Bool × BitVec WIDTH :=
  ReadInterconnect.settle s.readIntc s.tap.rd.currentReadAddress s.tap.rd.readReadyO (devices s i)

/-- The pins of the TAP: symbols from `RX_Escape`, the ready of `TX_Escape`, and the two interconnects. -/
def tapIn (s : State) (i : Input) : DmiUartTap.Input :=
  { dataRecI := s.rxEsc.data
    rxEmptyI := RxEscape.rxEmptyO s.rxEsc
    cmdRecI := RxEscape.commandO s.rxEsc
    txReadyI := TxEscape.txReadyO s.txEsc (escTxReady s)
    writeReadyI := (writeIntc s i).writeReadyO
    readDataI := (readIntc s i).2
    readValidI := (readIntc s i).1
    validAddressI := s.readIntc.validAddressO }

/-- The pins of `RX_Escape`, between the UART's FIFO and the TAP. -/
def rxEscIn (s : State) (i : Input) : RxEscape.Input :=
  { dataRecI := Uart.drecO s.uart
    rxEmptyI := Uart.rxEmptyO s.uart
    readI := DmiUartTap.readO s.tap (tapIn s i) }

/-- The pins of `TX_Escape`, between the TAP's serializer and the UART. -/
def txEscIn (s : State) : TxEscape.Input :=
  { txReadyI := escTxReady s
    dataSendI := s.tap.ser.dataByteO
    writeI := s.tap.ser.writeO
    writeCommandI := s.tap.rd.sendCommand
    commandI := s.tap.rd.commandO }

/-- The pins of the UART; `SW_CHANNEL_I` is tied to zero, so only a line error switches the channel. -/
def uartIn (s : State) (i : Input) : Uart.Input :=
  { weI := s.txEsc.writeO
    dsendI := s.txEsc.dataSendO
    escDetectedI := s.txEsc.escDetectedO
    reI := RxEscape.readO s.rxEsc (Uart.rxEmptyO s.uart)
    rx0I := i.rx0I
    tx1I := i.tx1I
    swChannelI := false }

/-- The pins of `DMI_UART`, with the interconnects on one side and the debug module on the other. -/
def dmiIn (s : State) (i : Input) : DmiUart.Input :=
  { tapReadReadyI :=
      (ReadInterconnect.ready s.tap.rd.currentReadAddress s.tap.rd.readReadyO).dmiReadReadyO
    tapWriteValidI := (writeIntc s i).dmiWriteValidO
    tapWriteDataI := (writeIntc s i).dmiWriteDataO
    dmiRespValidI := i.dmiRespValidI
    dmiRespI := i.dmiRespI
    dmiReqReadyI := i.dmiReqReadyI }

/-- `TX0_O` -/
def tx0O (s : State) (i : Input) : Bool := Uart.tx0O s.uart (uartIn s i)

/-- The state behind a reset, with the registers of `s` where the source resets none. -/
def reset (r : Rates) (s : State) (i : Input) : State :=
  { uart := Uart.reset r s.uart
    rxEsc := RxEscape.reset
    txEsc := TxEscape.reset
    tap := DmiUartTap.reset s.tap
    readIntc := ReadInterconnect.reset (devices s i)
    dmi := DmiUart.reset }

def next (r : Rates) (esc : Byte) (s : State) (i : Input) : State :=
  { uart := Uart.next r s.uart (uartIn s i)
    rxEsc := RxEscape.next esc s.rxEsc (rxEscIn s i)
    txEsc := TxEscape.next esc s.txEsc (txEscIn s)
    tap := DmiUartTap.next s.tap (tapIn s i)
    readIntc := ReadInterconnect.next s.readIntc s.tap.rd.currentReadAddress s.tap.rd.readReadyO
      (devices s i)
    dmi := DmiUart.next s.dmi (dmiIn s i) }

/-! ## Its components -/

/-- The TAP, the write interconnect and the bridge. -/
def writeSide (s : State) : WriteSide.State := ⟨s.tap, s.dmi⟩

def writeSideIn (s : State) (i : Input) : WriteSide.Input :=
  { tapI := tapIn s i, readyI := i.stbReadyI, dmiI := dmiIn s i }

/-- The pins of the TAP, the read interconnect and the bridge that these do not drive. -/
def readSideIn (s : State) (i : Input) : DmiReadSide.Input :=
  { sideI := { tapI := tapIn s i, devI := i.stbI }, dmiI := dmiIn s i }

theorem uart_component (r : Rates) (esc : Byte) :
    Component (next r esc) (Uart.next r) State.uart uartIn := fun _ _ => rfl

theorem writeSide_component (r : Rates) (esc : Byte) :
    Component (next r esc) WriteSide.next writeSide writeSideIn := fun _ _ => rfl

end RiscDbgUart.DtmUart
