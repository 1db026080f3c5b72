/-
  `dmi_jtag_tap.sv`: the JTAG test access port.

  The sixteen states of the TAP controller, the instruction register with its shift register, and the
  data registers that live here: `IDCODE`, `DTMCS` and the bypass bit.  The DMI data register is the
  submodule's; the TAP tells it when to capture, to shift and to update and whether it is selected.

  `td_o` leaves on the falling edge of the clock; what it takes over there is the multiplexer `tdoMux`.
  One step is one rising edge.
-/
import RiscDbgUart.DmiUart

set_option linter.unusedVariables false

namespace RiscDbgUart.JtagTap

/-! ## States and registers -/

/-- `tap_state_e`: the sixteen states of the JTAG standard, in the order of the source. -/
inductive TapState where
  | TestLogicReset | RunTestIdle | SelectDrScan
  | CaptureDr | ShiftDr | Exit1Dr | PauseDr | Exit2Dr
  | UpdateDr | SelectIrScan | CaptureIr | ShiftIr
  | Exit1Ir | PauseIr | Exit2Ir | UpdateIr
deriving DecidableEq, Repr

/-- `ir_reg_e`: the register can hold values that name no member. -/
abbrev Ir := BitVec 5

abbrev BYPASS0 : Ir := 0x0
abbrev IDCODE : Ir := 0x1
abbrev DTMCSR : Ir := 0x10
abbrev DMIACCESS : Ir := 0x11
abbrev BYPASS1 : Ir := 0x1f

/-- `dtmcs_t` as a vector; bit 16 is `dmireset`. -/
abbrev Dtmcs := BitVec 32

/-- The state of the controller, the instruction register with its shift register, and the three data
    registers of the TAP. -/
structure State where
  tapState : TapState
  jtagIrShift : BitVec 5
  jtagIr : Ir
  idcode : BitVec 32
  bypass : Bool
  dtmcs : Dtmcs
deriving DecidableEq, Repr

structure Input where
  tmsI : Bool
  tdI : Bool
  dmiErrorI : BitVec 2

/-! ## `p_tap_fsm` -/

/-- `tap_state_d`, the controller of the standard: `TMS` chooses between two paths of seven states each, one
    for the data registers and one for the instruction register. -/
def tapStateD (t : TapState) (tms : Bool) : TapState :=
  match t with
  | .TestLogicReset => if tms then .TestLogicReset else .RunTestIdle
  | .RunTestIdle => if tms then .SelectDrScan else .RunTestIdle
  | .SelectDrScan => if tms then .SelectIrScan else .CaptureDr
  | .CaptureDr => if tms then .Exit1Dr else .ShiftDr
  | .ShiftDr => if tms then .Exit1Dr else .ShiftDr
  | .Exit1Dr => if tms then .UpdateDr else .PauseDr
  | .PauseDr => if tms then .Exit2Dr else .PauseDr
  | .Exit2Dr => if tms then .UpdateDr else .ShiftDr
  | .UpdateDr => if tms then .SelectDrScan else .RunTestIdle
  | .SelectIrScan => if tms then .TestLogicReset else .CaptureIr
  | .CaptureIr => if tms then .Exit1Ir else .ShiftIr
  | .ShiftIr => if tms then .Exit1Ir else .ShiftIr
  | .Exit1Ir => if tms then .UpdateIr else .PauseIr
  | .PauseIr => if tms then .Exit2Ir else .PauseIr
  | .Exit2Ir => if tms then .UpdateIr else .ShiftIr
  | .UpdateIr => if tms then .SelectDrScan else .RunTestIdle

variable (s : State) (i : Input)

/-- `test_logic_reset_o` -/
def testLogicResetO : Bool := s.tapState == .TestLogicReset
/-- `capture_dr_o` -/
def captureDrO : Bool := s.tapState == .CaptureDr
/-- `shift_dr_o` -/
def shiftDrO : Bool := s.tapState == .ShiftDr
/-- `update_dr_o` -/
def updateDrO : Bool := s.tapState == .UpdateDr
/-- `capture_ir` -/
def captureIr : Bool := s.tapState == .CaptureIr
/-- `shift_ir` -/
def shiftIr : Bool := s.tapState == .ShiftIr
/-- `update_ir` -/
def updateIr : Bool := s.tapState == .UpdateIr

/-! ## `p_data_reg_sel` -/

/-- `dmi_access_o` -/
def dmiAccessO : Bool := s.jtagIr == DMIACCESS
/-- `dtmcs_select_o` -/
def dtmcsSelectO : Bool := s.jtagIr == DTMCSR
/-- `idcode_select` -/
def idcodeSelect : Bool := s.jtagIr == IDCODE
/-- `bypass_select`: every other instruction. -/
def bypassSelect : Bool := !dmiAccessO s && !dtmcsSelectO s && !idcodeSelect s

/-- `dmi_reset_o` -/
def dmiResetO : Bool := s.dtmcs.getLsbD 16
/-- `dmi_tdi_o` -/
def dmiTdiO : Bool := i.tdI

/-- `tdo_mux`, `dmiTdoI` being the lowest bit of the DMI register, which is kept in `dmi_jtag`. -/
def tdoMux (dmiTdoI : Bool) : Bool :=
  if shiftIr s then s.jtagIrShift.getLsbD 0
  else if idcodeSelect s then s.idcode.getLsbD 0
  else if dtmcsSelectO s then s.dtmcs.getLsbD 0
  else if dmiAccessO s then dmiTdoI
  else s.bypass

/-! ## `p_jtag` and the data registers -/

/-- `{td_i, q[k:1]}`: one bit comes in at the top, and the lowest one has been on the pin. -/
def shiftIn {k : Nat} (td : Bool) (q : BitVec k) : BitVec k :=
  (q >>> 1) ||| ((BitVec.ofBool td).setWidth k <<< (k - 1))

/-- `jtag_ir_shift_d`; the later assignment wins, so the reset does over a capture and that over a shift. -/
def jtagIrShiftD : BitVec 5 :=
  let d := s.jtagIrShift
  let d := if shiftIr s then shiftIn i.tdI s.jtagIrShift else d
  let d := if captureIr s then 0b00101 else d
  if testLogicResetO s then 0 else d

/-- `jtag_ir_d` -/
def jtagIrD : Ir :=
  let d := if updateIr s then s.jtagIrShift else s.jtagIr
  if testLogicResetO s then IDCODE else d

/-- What `DTMCS` captures: `idle = 1`, the error of the DMI, `abits = 7`, `version = 1`. -/
def capturedDtmcs (dmiErrorI : BitVec 2) : Dtmcs :=
  (0 : BitVec 17) ++ (1 : BitVec 3) ++ dmiErrorI ++ (7 : BitVec 6) ++ (1 : BitVec 4)

/-- `dtmcs_d`.  Its captured value shows the error of the DMI. -/
def dtmcsD : Dtmcs :=
  let d := if captureDrO s && dtmcsSelectO s then capturedDtmcs i.dmiErrorI else s.dtmcs
  if shiftDrO s && dtmcsSelectO s then shiftIn i.tdI s.dtmcs else d

/-- `idcode_d`: captured and shifted when it is selected, and loaded in `TestLogicReset` as well. -/
def idcodeD (idcodeValue : BitVec 32) : BitVec 32 :=
  let d := if captureDrO s && idcodeSelect s then idcodeValue else s.idcode
  let d := if shiftDrO s && idcodeSelect s then shiftIn i.tdI s.idcode else d
  if testLogicResetO s then idcodeValue else d

/-- `bypass_d`: one bit, captured as zero, for every instruction that has no register of its own. -/
def bypassD : Bool :=
  let d := if captureDrO s && bypassSelect s then false else s.bypass
  let d := if shiftDrO s && bypassSelect s then i.tdI else d
  if testLogicResetO s then false else d

/-! ## The edge -/

/-- After `trst_ni`. -/
def reset (idcodeValue : BitVec 32) : State :=
  { tapState := .RunTestIdle, jtagIrShift := 0, jtagIr := IDCODE, idcode := idcodeValue
    bypass := false, dtmcs := 0 }

def next (idcodeValue : BitVec 32) (s : State) (i : Input) : State :=
  { tapState := tapStateD s.tapState i.tmsI
    jtagIrShift := jtagIrShiftD s i
    jtagIr := jtagIrD s
    idcode := idcodeD s i idcodeValue
    bypass := bypassD s i
    dtmcs := dtmcsD s i }

example : capturedDtmcs 0 = DTMCS_DEFAULT := by decide

/-- At most one of the three phases of a data register is on. -/
theorem capture_alone {s : State} (h : captureDrO s = true) :
    shiftDrO s = false ∧ updateDrO s = false ∧ testLogicResetO s = false := by
  unfold captureDrO at h
  unfold shiftDrO updateDrO testLogicResetO
  rw [beq_iff_eq] at h
  rw [h]
  exact ⟨rfl, rfl, rfl⟩

/-- Two instructions are not selected at once, since both compare the same register. -/
theorem dtmcs_not_dmi {s : State} (h : dmiAccessO s = true) : dtmcsSelectO s = false := by
  unfold dmiAccessO at h
  unfold dtmcsSelectO
  rw [beq_iff_eq] at h
  rw [h]
  rfl

end RiscDbgUart.JtagTap
