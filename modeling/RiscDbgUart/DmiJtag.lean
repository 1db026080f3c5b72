/-
  `dmi_jtag.sv`: the debug transport module behind the JTAG TAP.

  A DMI register of 41 bits is captured, shifted and updated by the TAP.  An update that names an
  operation hands it to a small state machine, which sends the request and waits for its answer; the
  answer of a read goes to the data register, where the next capture finds it.  An update or a capture
  that comes too early sets the busy error.

  The clock domain crossing (`dmi_cdc`) is a pair of two-phase handshakes that are not in the source.
  Its side of the interface is an input here: the ready of the request channel, and the answers.
-/
import RiscDbgUart.Clocked.Machine
import RiscDbgUart.JtagTap

set_option linter.unusedVariables false

namespace RiscDbgUart.DmiJtag

/-! ## Registers and ports -/

/-- `state_e` -/
inductive DmiState where
  | Idle | Read | WaitReadValid | Write | WaitWriteValid
deriving DecidableEq, Repr

/-- `dmi_error_e` -/
abbrev DmiError := BitVec 2

abbrev DMINoError : DmiError := 0
abbrev DMIBusy : DmiError := 3

/-- The TAP, the DMI register, the state machine with the operation it is working on, and the sticky error. -/
structure State where
  tap : JtagTap.State
  dr : BitVec WIDTH
  state : DmiState
  address : BitVec 7
  data : BitVec 32
  error : DmiError
deriving DecidableEq, Repr

/-- The pads, the ready of the request channel, and the response channel.  `TCK` is the clock of the model. -/
structure Input where
  tmsI : Bool
  tdI : Bool := false
  dmiReqReadyI : Bool := false
  dmiRespValidI : Bool := false
  dmiRespDataI : BitVec 32 := 0

variable (s : State) (i : Input)

/-- `dmi` -/
def dmi : DmiReq := DmiReq.ofWord s.dr

/-! ## `p_fsm` -/

/-- `dmi_req_valid` -/
def dmiReqValid : Bool := s.state == .Read || s.state == .Write

/-- `dmi_req` -/
def dmiReq : DmiReq :=
  { addr := s.address, data := s.data
    op := if s.state = .Write then DTM_WRITE else DTM_READ }

/-- An update of the DMI register. -/
def updatesDmi : Bool := JtagTap.dmiAccessO s.tap && JtagTap.updateDrO s.tap

/-- The update is taken: the state machine is idle and there is no error. -/
def takes : Bool := updatesDmi s && s.state == .Idle && s.error == DMINoError

/-- `state_d`: an operation is taken in `Idle`, its request waits for the channel, and its answer is waited
    for.  The answer of a write is waited for like that of a read. -/
def stateD : DmiState :=
  match s.state with
  | .Idle =>
    if takes s then
      if (dmi s).op = DTM_READ then .Read
      else if (dmi s).op = DTM_WRITE then .Write
      -- a nop
      else .Idle
    else .Idle
  | .Read => if i.dmiReqReadyI then .WaitReadValid else .Read
  | .WaitReadValid => if i.dmiRespValidI then .Idle else .WaitReadValid
  | .Write => if i.dmiReqReadyI then .WaitWriteValid else .Write
  | .WaitWriteValid => if i.dmiRespValidI then .Idle else .WaitWriteValid

def addressD : BitVec 7 := if takes s then (dmi s).addr else s.address

/-- `data_d`: the data of the operation that is taken, and then the answer of a read.  The next capture finds
    it here. -/
def dataD : BitVec 32 :=
  if takes s then (dmi s).data
  else if s.state = .WaitReadValid ∧ i.dmiRespValidI = true then i.dmiRespDataI
  else s.data

/-- `error_dmi_busy`: a request before the last one is finished, or a capture during a read. -/
def errorDmiBusy : Bool :=
  (JtagTap.updateDrO s.tap && s.state != .Idle) ||
    (JtagTap.captureDrO s.tap && (s.state == .Read || s.state == .WaitReadValid))

/-- An update of `DTMCS` with `dmireset` set. -/
def resetsDmi : Bool :=
  JtagTap.updateDrO s.tap && JtagTap.dmiResetO s.tap && JtagTap.dtmcsSelectO s.tap

/-- `error_d`.  An error stays until `dmireset` clears it. -/
def errorD : DmiError :=
  -- clearing the sticky error wins
  if resetsDmi s then DMINoError
  else if errorDmiBusy s then DMIBusy
  else s.error

/-! ## `p_shift` -/

/-- What the DMI register captures: the address and the data of the last operation, with the error or
    without.  An error that is neither none nor busy does not occur, and would keep the register. -/
def captured : BitVec WIDTH :=
  if s.error = DMINoError ∧ errorDmiBusy s = false then s.address ++ s.data ++ DMINoError
  else if s.error = DMIBusy ∨ errorDmiBusy s = true then s.address ++ s.data ++ DMIBusy
  else s.dr

/-- `dr_d`: the DMI register captures and shifts when it is selected. -/
def drD : BitVec WIDTH :=
  let d := if JtagTap.captureDrO s.tap && JtagTap.dmiAccessO s.tap then captured s else s.dr
  let d :=
    if JtagTap.shiftDrO s.tap && JtagTap.dmiAccessO s.tap then
      JtagTap.shiftIn i.tdI s.dr
    else d
  if JtagTap.testLogicResetO s.tap then 0 else d

/-! ## The edge -/

def tapIn : JtagTap.Input := { tmsI := i.tmsI, tdI := i.tdI, dmiErrorI := s.error }

/-- After `trst_ni`. -/
def reset (idcodeValue : BitVec 32) : State :=
  { tap := JtagTap.reset idcodeValue, dr := 0, state := .Idle, address := 0, data := 0
    error := DMINoError }

def next (idcodeValue : BitVec 32) (s : State) (i : Input) : State :=
  { tap := JtagTap.next idcodeValue s.tap (tapIn s i)
    dr := drD s i
    state := stateD s i
    address := addressD s
    data := dataD s i
    error := errorD s }

/-! ## One edge at a time -/

section Edge

variable {s : State} {i : Input}

/-- An idle state machine is left by the update it takes only, for a read or a write as it says. -/
theorem stateD_idle (hs : s.state = .Idle) :
    stateD s i
      = if takes s then
          if (dmi s).op = DTM_READ then .Read
          else if (dmi s).op = DTM_WRITE then .Write else .Idle
        else .Idle := by
  unfold stateD
  rw [hs]

theorem stateD_read (hs : s.state = .Read) :
    stateD s i = if i.dmiReqReadyI then .WaitReadValid else .Read := by
  unfold stateD
  rw [hs]

theorem stateD_waitRead (hs : s.state = .WaitReadValid) :
    stateD s i = if i.dmiRespValidI then .Idle else .WaitReadValid := by
  unfold stateD
  rw [hs]

theorem stateD_write (hs : s.state = .Write) :
    stateD s i = if i.dmiReqReadyI then .WaitWriteValid else .Write := by
  unfold stateD
  rw [hs]

theorem stateD_waitWrite (hs : s.state = .WaitWriteValid) :
    stateD s i = if i.dmiRespValidI then .Idle else .WaitWriteValid := by
  unfold stateD
  rw [hs]

/-- A busy state machine takes no update. -/
theorem takes_busy (hs : s.state ≠ .Idle) : takes s = false := by
  unfold takes
  rw [beq_eq_false_iff_ne.mpr hs, Bool.and_false, Bool.false_and]

/-- The registers of a request that is on the channel stay, whatever the host shifts meanwhile. -/
theorem request_held (hs : s.state ≠ .Idle) (hw : s.state ≠ .WaitReadValid) :
    addressD s = s.address ∧ dataD s i = s.data := by
  unfold addressD dataD
  rw [takes_busy hs]
  refine ⟨rfl, ?_⟩
  rw [if_neg Bool.false_ne_true, if_neg]
  rintro ⟨hwait, -⟩
  exact hw hwait

/-- The low two bits of what is captured are the error. -/
theorem status_append (a : BitVec 7) (d : BitVec 32) (e : DmiError) :
    ((a ++ d ++ e : BitVec 41)).extractLsb' 0 2 = e := by
  exact BitVec.extractLsb'_append_eq_right

theorem data_append (a : BitVec 7) (d : BitVec 32) (e : DmiError) :
    (DmiReq.ofWord (a ++ d ++ e : BitVec 41)).data = d := by
  apply BitVec.eq_of_getLsbD_eq
  intro k hk
  unfold DmiReq.ofWord
  rw [BitVec.getLsbD_extractLsb', BitVec.getLsbD_append, BitVec.getLsbD_append]
  simp [hk, show ¬ 2 + k < 2 by omega]

end Edge

end RiscDbgUart.DmiJtag
