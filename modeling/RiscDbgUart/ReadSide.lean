/-
  The read side of `dtm_uart.sv`: the TAP and the read interconnect wired together, with the four STB
  channels and the DMI channel as inputs; and the same with `DMI_UART` on the DMI channel.

  The word and the valid the TAP sees in a cycle are those the interconnect's latches have settled
  at in that cycle; the address of a valid device is registered.

  The first of the two leaves the DMI channel open, with any behaviour behind it; the second has the
  bridge there, with its register of responses.
-/
import RiscDbgUart.DmiUartTap
import RiscDbgUart.DmiUart
import RiscDbgUart.ReadInterconnect

set_option linter.unusedVariables false

namespace RiscDbgUart.ReadSide

/-! ## The TAP and the interconnect -/

structure State where
  tap : DmiUartTap.State
  ic : ReadInterconnect.State
deriving DecidableEq, Repr, Inhabited

/-- The pins of the TAP that the interconnect does not drive, and the devices. -/
structure Input where
  tapI : DmiUartTap.Input := {}
  devI : ReadInterconnect.Devices := {}

/-- `read_valid` and `read_data` in this cycle. -/
def settled (s : State) (d : ReadInterconnect.Devices) : Bool × BitVec WIDTH :=
  ReadInterconnect.settle s.ic s.tap.rd.currentReadAddress s.tap.rd.readReadyO d

/-- What the TAP sees: the word of the addressed device, and the address of one that is valid. -/
def tapIn (s : State) (i : Input) : DmiUartTap.Input :=
  { i.tapI with
    readValidI := (settled s i.devI).1
    readDataI := (settled s i.devI).2
    validAddressI := s.ic.validAddressO }

/-- The readys the devices see. -/
def ready (s : State) : ReadInterconnect.Ready :=
  ReadInterconnect.ready s.tap.rd.currentReadAddress s.tap.rd.readReadyO

def reset (s : State) (d : ReadInterconnect.Devices) : State :=
  { tap := DmiUartTap.reset s.tap, ic := ReadInterconnect.reset d }

def next (s : State) (i : Input) : State :=
  { tap := DmiUartTap.next s.tap (tapIn s i)
    ic := ReadInterconnect.next s.ic s.tap.rd.currentReadAddress s.tap.rd.readReadyO i.devI }

/-- While ready is low the latches are closed. -/
theorem settled_closed {s : State} (d : ReadInterconnect.Devices)
    (h : s.tap.rd.readReadyO = false) : settled s d = (s.ic.readValid, s.ic.readData) := by
  simp [settled, ReadInterconnect.settle, h]

end RiscDbgUart.ReadSide

/-! ## With the DMI bridge -/

namespace RiscDbgUart.DmiReadSide

structure State where
  side : ReadSide.State
  dmi : DmiUart.State
deriving DecidableEq, Repr, Inhabited

/-- The pins of the read side that the bridge does not drive, and those of the bridge that the read
    side does not drive: its write port and the bus of the debug module. -/
structure Input where
  sideI : ReadSide.Input := {}
  dmiI : DmiUart.Input := {}

/-- The devices, with the bridge in the DMI's place. -/
def devices (s : State) (i : Input) : ReadInterconnect.Devices :=
  { i.sideI.devI with
    dmiReadValidI := s.dmi.tapReadValidO
    dmiReadDataI := DmiUart.tapReadDataO s.dmi }

/-- What the read side sees. -/
def sideIn (s : State) (i : Input) : ReadSide.Input := { i.sideI with devI := devices s i }

/-- What the TAP sees. -/
def tapIn (s : State) (i : Input) : DmiUartTap.Input := ReadSide.tapIn s.side (sideIn s i)

/-- What the bridge sees. -/
def dmiIn (s : State) (i : Input) : DmiUart.Input :=
  { i.dmiI with tapReadReadyI := (ReadSide.ready s.side).dmiReadReadyO }

def reset (s : State) (i : Input) : State :=
  { side := ReadSide.reset s.side (devices s i), dmi := DmiUart.reset }

def next (s : State) (i : Input) : State :=
  { side := ReadSide.next s.side (sideIn s i), dmi := DmiUart.next s.dmi (dmiIn s i) }

end RiscDbgUart.DmiReadSide
