/-
  `tap_write_interconnect.sv`: routes the TAP's write word to the device its address names.  It is
  purely combinational.  A device sees its valid and the low bits of the word; the TAP sees the
  device's ready, and an address without a device is always ready.
-/
import RiscDbgUart.UartPkg

set_option linter.unusedVariables false

namespace RiscDbgUart.WriteInterconnect

/-- The ready inputs of the devices. -/
structure Ready where
  dmiWriteReadyI : Bool := false
  stb0ControlReadyI : Bool := false
  stb0DataReadyI : Bool := false
  stb1ControlReadyI : Bool := false
  stb1DataReadyI : Bool := false

/-- The valid and data outputs to the devices. -/
structure Output where
  dmiWriteValidO : Bool := false
  dmiWriteDataO : BitVec 41 := 0
  stb0ControlValidO : Bool := false
  stb0ControlO : BitVec 8 := 0
  stb0DataValidO : Bool := false
  stb0DataO : BitVec 32 := 0
  stb1ControlValidO : Bool := false
  stb1ControlO : BitVec 8 := 0
  stb1DataValidO : Bool := false
  stb1DataO : BitVec 32 := 0
  writeReadyO : Bool := false

/-- `WRITE_RV_MUX` with `RST_NI` high: valid and data go to the device that is addressed, and its ready comes
    back.  An address without a device is always ready, and the word goes nowhere. -/
def mux (writeAddressI : Addr) (writeDataI : BitVec WIDTH) (writeValidI : Bool) (r : Ready) :
    Output :=
  if writeAddressI = ADDR_DMI then
    { dmiWriteValidO := writeValidI
      writeReadyO := r.dmiWriteReadyI
      dmiWriteDataO := writeDataI }
  else if writeAddressI = ADDR_STB0_CS then
    { stb0ControlValidO := writeValidI
      writeReadyO := r.stb0ControlReadyI
      stb0ControlO := writeDataI.setWidth 8 }
  else if writeAddressI = ADDR_STB0_D then
    { stb0DataValidO := writeValidI
      writeReadyO := r.stb0DataReadyI
      stb0DataO := writeDataI.setWidth 32 }
  else if writeAddressI = ADDR_STB1_CS then
    { stb1ControlValidO := writeValidI
      writeReadyO := r.stb1ControlReadyI
      stb1ControlO := writeDataI.setWidth 8 }
  else if writeAddressI = ADDR_STB1_D then
    { stb1DataValidO := writeValidI
      writeReadyO := r.stb1DataReadyI
      stb1DataO := writeDataI.setWidth 32 }
  else { writeReadyO := true }

end RiscDbgUart.WriteInterconnect
