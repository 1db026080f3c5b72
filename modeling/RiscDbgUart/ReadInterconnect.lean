/-
  `tap_read_interconnect.sv`: shows the TAP the valid and the data of the device its read address
  names, and reports the address of a valid device.

  `read_valid` and `read_data` are not assigned while `READ_READY_I` is low, and a device narrower
  than the word assigns only the low bits of `read_data`; what is not assigned keeps its value.  So
  the two variables are part of the state: `readValid` and `readData` are what they held at the end
  of the cycle before, and `settle` gives what they hold in this cycle.

  `ADDR_STB1_D` raises the ready of STB0's data channel, as the source does.
-/
import RiscDbgUart.UartPkg

set_option linter.unusedVariables false

namespace RiscDbgUart.ReadInterconnect

/-- What `read_valid` and `read_data` held at the end of the cycle before, and the registered address of a
    valid device. -/
structure State where
  readValid : Bool
  readData : BitVec WIDTH
  validAddressO : Addr
deriving DecidableEq, Repr, Inhabited

/-- The valid and data inputs of the devices. -/
structure Devices where
  dmiReadValidI : Bool := false
  dmiReadDataI : BitVec 41 := 0
  stb0StatusValidI : Bool := false
  stb0StatusI : BitVec 8 := 0
  stb0DataValidI : Bool := false
  stb0DataI : BitVec 32 := 0
  stb1StatusValidI : Bool := false
  stb1StatusI : BitVec 8 := 0
  stb1DataValidI : Bool := false
  stb1DataI : BitVec 32 := 0

/-- The ready outputs to the devices. -/
structure Ready where
  dmiReadReadyO : Bool := false
  stb0StatusReadyO : Bool := false
  stb0DataReadyO : Bool := false
  stb1StatusReadyO : Bool := false
  stb1DataReadyO : Bool := false
deriving DecidableEq, Repr, Inhabited

/-- `READ_RV_MUX`, the ready side: the device that is addressed gets the ready of the TAP.  The last branch
    gives it to the data channel of STB0, as the source does. -/
def ready (readAddressI : Addr) (readReadyI : Bool) : Ready :=
  if readReadyI then
    if readAddressI = ADDR_DMI then { dmiReadReadyO := readReadyI }
    else if readAddressI = ADDR_STB0_CS then { stb0StatusReadyO := readReadyI }
    else if readAddressI = ADDR_STB0_D then { stb0DataReadyO := readReadyI }
    else if readAddressI = ADDR_STB1_CS then { stb1StatusReadyO := readReadyI }
    else if readAddressI = ADDR_STB1_D then { stb0DataReadyO := readReadyI }
    else {}
  else {}

/-- `read_data[7:0] = x`, the upper bits keep their value. -/
def setLow8 (old : BitVec WIDTH) (x : BitVec 8) : BitVec WIDTH := old.extractLsb' 8 33 ++ x

/-- `read_data[31:0] = x`, the upper bits keep their value. -/
def setLow32 (old : BitVec WIDTH) (x : BitVec 32) : BitVec WIDTH := old.extractLsb' 32 9 ++ x

/-- The low bits of `read_data` are what has been assigned to them. -/
theorem setLow8_low (old : BitVec WIDTH) (x : BitVec 8) :
    (setLow8 old x).setWidth 8 = (x.setWidth WIDTH).setWidth 8 := by
  rw [BitVec.setWidth_setWidth_of_le x (by decide : 8 ≤ WIDTH), BitVec.setWidth_eq]
  unfold setLow8
  exact BitVec.setWidth_append_eq_right

theorem setLow32_low (old : BitVec WIDTH) (x : BitVec 32) :
    (setLow32 old x).setWidth 32 = (x.setWidth WIDTH).setWidth 32 := by
  rw [BitVec.setWidth_setWidth_of_le x (by decide : 32 ≤ WIDTH), BitVec.setWidth_eq]
  unfold setLow32
  exact BitVec.setWidth_append_eq_right

/-- `READ_RV_MUX`, the data side: `read_valid` and `read_data` in this cycle.  The constants and the addresses
    without a device are always valid.  While ready is low both keep their values. -/
def settle (s : State) (readAddressI : Addr) (readReadyI : Bool) (d : Devices) :
    Bool × BitVec WIDTH :=
  if readReadyI then
    if readAddressI = ADDR_DMI then (d.dmiReadValidI, d.dmiReadDataI)
    else if readAddressI = ADDR_STB0_CS then
      (d.stb0StatusValidI, setLow8 s.readData d.stb0StatusI)
    else if readAddressI = ADDR_STB0_D then
      (d.stb0DataValidI, setLow32 s.readData d.stb0DataI)
    else if readAddressI = ADDR_STB1_CS then
      (d.stb1StatusValidI, setLow8 s.readData d.stb1StatusI)
    else if readAddressI = ADDR_STB1_D then
      (d.stb1DataValidI, setLow32 s.readData d.stb1DataI)
    else if readAddressI = ADDR_IDCODE then (true, setLow32 s.readData IDCODEVALUE)
    else if readAddressI = ADDR_DTMCS then (true, setLow32 s.readData DTMCS_DEFAULT)
    else (true, 0)
  else (s.readValid, s.readData)

/-- `VALID_ADDRESS_PROC`: the first valid device in the order of the source, the debug module before the
    status channels and these before the data channels. -/
def validAddress (d : Devices) : Addr :=
  if d.dmiReadValidI then ADDR_DMI
  else if d.stb0StatusValidI then ADDR_STB0_CS
  else if d.stb1StatusValidI then ADDR_STB1_CS
  else if d.stb0DataValidI then ADDR_STB0_D
  else if d.stb1DataValidI then ADDR_STB1_D
  else ADDR_NOP

/-- The variables while `RST_NI` is low; `VALID_ADDRESS_O` has no reset and follows the valids. -/
def reset (d : Devices) : State :=
  { readValid := false, readData := 0, validAddressO := validAddress d }

/-- The edge with `RST_NI` high. -/
def next (s : State) (readAddressI : Addr) (readReadyI : Bool) (d : Devices) : State :=
  { readValid := (settle s readAddressI readReadyI d).1
    readData := (settle s readAddressI readReadyI d).2
    validAddressO := validAddress d }

end RiscDbgUart.ReadInterconnect
