/-
  The write side of `dtm_uart.sv`: the TAP, the write interconnect and `DMI_UART` wired together, with
  the STB targets' readys as inputs.

  The interconnect is combinational: what a target sees in a cycle is what the TAP's registers hold in
  that cycle, and the TAP's `WRITE_READY_I` is the ready of the addressed target.

  `toDmi` says that the word is for the bridge.  At any other address the bridge sees no valid, so a word
  for an STB target and a word for the debug module cannot be taken for one another.
-/
import RiscDbgUart.DmiUartTap
import RiscDbgUart.DmiUart
import RiscDbgUart.WriteInterconnect

set_option linter.unusedVariables false

namespace RiscDbgUart.WriteSide

open DmiUartTap

structure State where
  tap : DmiUartTap.State
  dmi : DmiUart.State
deriving DecidableEq, Repr, Inhabited

/-- The pins of the TAP and of the bridge that are not driven by one another, and the readys of the
    STB targets. -/
structure Input where
  tapI : DmiUartTap.Input := {}
  readyI : WriteInterconnect.Ready := {}
  dmiI : DmiUart.Input := {}

/-- What the interconnect drives. -/
def mux (s : State) (i : Input) : WriteInterconnect.Output :=
  WriteInterconnect.mux s.tap.wr.currentWriteAddress (writeDataO s.tap) (writeValidO s.tap)
    { i.readyI with dmiWriteReadyI := s.dmi.tapWriteReadyO }

/-- What the TAP sees. -/
def tapIn (s : State) (i : Input) : DmiUartTap.Input :=
  { i.tapI with writeReadyI := (mux s i).writeReadyO }

/-- What the bridge sees: the word for its address, with its valid. -/
def dmiIn (s : State) (i : Input) : DmiUart.Input :=
  { i.dmiI with
    tapWriteValidI := (mux s i).dmiWriteValidO
    tapWriteDataI := (mux s i).dmiWriteDataO }

def reset (s : State) : State := { tap := DmiUartTap.reset s.tap, dmi := DmiUart.reset }

def next (s : State) (i : Input) : State :=
  { tap := DmiUartTap.next s.tap (tapIn s i), dmi := DmiUart.next s.dmi (dmiIn s i) }

/-- `ADDR_DMI` is the address of the write side. -/
def toDmi (s : State) : Bool := s.tap.wr.currentWriteAddress == ADDR_DMI

theorem mux_dmi {s : State} (i : Input) (h : toDmi s = true) :
    mux s i = { dmiWriteValidO := writeValidO s.tap, writeReadyO := s.dmi.tapWriteReadyO
                dmiWriteDataO := writeDataO s.tap } := by
  unfold toDmi at h
  rw [beq_iff_eq] at h
  simp [mux, WriteInterconnect.mux, h]

/-- The bridge sees a valid only at its own address. -/
theorem mux_dmiValid (s : State) (i : Input) :
    (mux s i).dmiWriteValidO = (toDmi s && writeValidO s.tap) := by
  cases h : toDmi s
  · unfold toDmi at h
    rw [beq_eq_false_iff_ne] at h
    unfold mux WriteInterconnect.mux
    rw [if_neg h]
    split_ifs <;> rfl
  · rw [mux_dmi i h]
    rfl

end RiscDbgUart.WriteSide
