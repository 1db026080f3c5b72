/-
  `dmi_uart.sv`: the bridge between the TAP and the ready/valid bus of the debug module.

  A 41-bit word of the TAP is `{addr[6:0], data[31:0], op[1:0]}`.  Words whose `op` is a read or a
  write are registered and put on the bus; every word is acknowledged to the TAP.  A read keeps
  `do_read` until its response has been taken, and reads of the TAP are answered only while nothing
  is outstanding.

  The source looks at the ready of the request channel in the cycle in which it raises its own valid
  register, so the valid is on the bus a cycle later than the ready was seen.  The lemmas below keep
  this as it is: `next_asking` ends the request phase on the ready alone.  Whether a device that
  changes its mind in between gets the request is the matter of `DmiProtocol`; the debug module of the
  repository does not change its mind, which is the matter of `DmiPairing`.
-/
import RiscDbgUart.UartPkg

set_option linter.unusedVariables false

namespace RiscDbgUart

/-- `dm::dtm_op_e` -/
abbrev DTM_READ : BitVec 2 := 1
abbrev DTM_WRITE : BitVec 2 := 2

/-- A request on the debug module interface, the fields of `dm::dmi_req_t`.  `op` has two bits and four values,
    of which two name an operation. -/
structure DmiReq where
  addr : BitVec 7
  op : BitVec 2
  data : BitVec 32
deriving DecidableEq, Repr, Inhabited

/-- The fields of `dmi_t`, the layout the TAP's words have. -/
def DmiReq.ofWord (w : BitVec WIDTH) : DmiReq :=
  { addr := w.extractLsb' 34 7, data := w.extractLsb' 2 32, op := w.extractLsb' 0 2 }

/-- The word asks for an operation: `DTM_READ` or `DTM_WRITE`. -/
def isRequest (w : BitVec WIDTH) : Bool :=
  (DmiReq.ofWord w).op == DTM_READ || (DmiReq.ofWord w).op == DTM_WRITE

namespace DmiUart

/-- The outputs that are registers, the request under way and the last response, and three flags: a request
    is to be put on the bus (`do_request`), an exchange is to be ended (`do_end`), and a read has not got its
    response yet (`do_read`). -/
structure State where
  tapWriteReadyO : Bool
  dmiResp : BitVec 32
  request : DmiReq
  dmiReqValidO : Bool
  dmiRespReadyO : Bool
  doRead : Bool
  doRequest : Bool
  doEnd : Bool
  tapReadValidO : Bool
deriving DecidableEq, Repr, Inhabited

structure Input where
  tapReadReadyI : Bool := false
  tapWriteValidI : Bool := false
  tapWriteDataI : BitVec WIDTH := 0
  dmiRespValidI : Bool := false
  dmiRespI : BitVec 32 := 0
  dmiReqReadyI : Bool := true

def reset : State :=
  { tapWriteReadyO := false, dmiResp := 0, request := ⟨0, 0, 0⟩, dmiReqValidO := false
    dmiRespReadyO := false, doRead := false, doRequest := false, doEnd := false
    tapReadValidO := false }

/-- `TAP_READ_DATA_O = {addr: 0, data: dmi_resp.data, dmi_error: DMINoError}` -/
def tapReadDataO (s : State) : BitVec WIDTH := (0 : BitVec 7) ++ s.dmiResp ++ (0 : BitVec 2)

/-- A DMI operation is outstanding. -/
def outstanding (s : State) : Bool := s.doRead || s.doRequest

/-- The bridge looks at the TAP's write port. -/
def idle (s : State) : Bool := !s.doRequest && !s.doEnd

/-- It captures the word at the write port as a request. -/
def captures (s : State) (i : Input) : Bool :=
  idle s && i.tapWriteValidI && isRequest i.tapWriteDataI

/-- `DMI_WRITE` and `TAP_READ`, the edge with `RST_NI` high. -/
def next (s : State) (i : Input) : State :=
  let r := { s with
    tapWriteReadyO := false, dmiReqValidO := false, dmiRespReadyO := false
    tapReadValidO := !s.doRead && !s.doRequest && i.tapReadReadyI }
  if s.doRequest then
    -- the valid follows one cycle behind, but the ready is looked at right away
    let r := { r with dmiReqValidO := true }
    if i.dmiReqReadyI then { r with doRequest := false, doEnd := true } else r
  else if s.doEnd then
    let r := { r with dmiRespReadyO := true }
    -- one cycle of ready ends the exchange, also when no response is there
    if s.dmiRespReadyO then
      let r := { r with doEnd := false }
      if s.doRead && i.dmiRespValidI then { r with doRead := false, dmiResp := i.dmiRespI } else r
    else r
  else if i.tapWriteValidI then
    let r := { r with tapWriteReadyO := true }
    if (DmiReq.ofWord i.tapWriteDataI).op = DTM_READ then
      { r with doRequest := true, doRead := true, request := DmiReq.ofWord i.tapWriteDataI }
    else if (DmiReq.ofWord i.tapWriteDataI).op = DTM_WRITE then
      { r with doRequest := true, request := DmiReq.ofWord i.tapWriteDataI }
    -- no operation: the word is acknowledged and dropped
    else r
  else r

/-! ## The edge, register by register -/

variable (s : State) (i : Input)

theorem next_tapReadValidO :
    (next s i).tapReadValidO = (!outstanding s && i.tapReadReadyI) := by
  unfold next outstanding
  simp only [apply_ite State.tapReadValidO, ite_self]
  cases s.doRead <;> cases s.doRequest <;> rfl

theorem next_tapWriteReadyO : (next s i).tapWriteReadyO = (idle s && i.tapWriteValidI) := by
  unfold next idle
  simp only [apply_ite State.tapWriteReadyO, ite_self]
  cases s.doRequest <;> cases s.doEnd <;> simp

theorem next_doRequest : (next s i).doRequest
    = if s.doRequest then !i.dmiReqReadyI else captures s i := by
  unfold next captures idle isRequest
  simp only [apply_ite State.doRequest, ite_self, beq_eq_decide]
  cases s.doRequest <;> cases s.doEnd <;> cases i.tapWriteValidI <;> simp

theorem next_doEnd : (next s i).doEnd
    = if s.doRequest then s.doEnd || i.dmiReqReadyI else s.doEnd && !s.dmiRespReadyO := by
  unfold next
  simp only [apply_ite State.doEnd, ite_self]
  cases s.doRequest <;> cases s.doEnd <;> cases i.dmiReqReadyI <;> cases s.dmiRespReadyO <;> rfl

theorem next_request : (next s i).request
    = if captures s i then DmiReq.ofWord i.tapWriteDataI else s.request := by
  unfold next captures idle isRequest
  simp only [apply_ite State.request, ite_self]
  cases s.doRequest <;> cases s.doEnd <;> cases i.tapWriteValidI <;> simp
  split_ifs <;> simp_all

/-- The second cycle of a response phase, in which a read's response is looked for. -/
def lastChance : Bool := !s.doRequest && s.doEnd && s.dmiRespReadyO

/-- It is there and is stored. -/
def stores : Bool := lastChance s && s.doRead && i.dmiRespValidI

/-! ## The edge, phase by phase -/

variable {s}

/-- A capture is followed by the request phase.  The word is acknowledged in the next cycle, captured or
    not. -/
theorem next_idle (hreq : s.doRequest = false) (hend : s.doEnd = false) : next s i = { s with
    tapWriteReadyO := i.tapWriteValidI, dmiReqValidO := false, dmiRespReadyO := false
    tapReadValidO := !s.doRead && i.tapReadReadyI
    doRequest := captures s i
    doRead := s.doRead || captures s i && (DmiReq.ofWord i.tapWriteDataI).op == DTM_READ
    request := if captures s i then DmiReq.ofWord i.tapWriteDataI else s.request } := by
  rcases i with ⟨rready, valid, word, rvalid, resp, ready⟩
  cases valid
  · simp [next, captures, idle, hreq, hend]
  · by_cases hread : (DmiReq.ofWord word).op = DTM_READ
    · simp [next, captures, idle, isRequest, hreq, hend, hread]
    · by_cases hwrite : (DmiReq.ofWord word).op = DTM_WRITE
      · simp [next, captures, idle, isRequest, hreq, hend, hwrite]
      · have hno : (DmiReq.ofWord word).op ≠ 1#2 ∧ (DmiReq.ofWord word).op ≠ 2#2 := ⟨hread, hwrite⟩
        simp [next, captures, idle, isRequest, hreq, hend, hno]

/-- The request phase lasts until the device is ready, which is looked at from its first cycle on. -/
theorem next_asking (hreq : s.doRequest = true) : next s i = { s with
    tapWriteReadyO := false, dmiReqValidO := true, dmiRespReadyO := false, tapReadValidO := false
    doRequest := !i.dmiReqReadyI, doEnd := s.doEnd || i.dmiReqReadyI } := by
  cases hi : i.dmiReqReadyI <;> simp [next, hreq, hi]

/-- The first cycle of the response phase, in which the ready for the response comes up. -/
theorem next_handing (hreq : s.doRequest = false) (hend : s.doEnd = true)
    (hready : s.dmiRespReadyO = false) : next s i = { s with
      tapWriteReadyO := false, dmiReqValidO := false, dmiRespReadyO := true
      tapReadValidO := !s.doRead && i.tapReadReadyI } := by
  simp [next, hreq, hend, hready]

theorem stores_answering (hreq : s.doRequest = false) (hend : s.doEnd = true)
    (hready : s.dmiRespReadyO = true) : stores s i = (s.doRead && i.dmiRespValidI) := by
  rw [stores, lastChance, hreq, hend, hready]
  rfl

/-- The second, which ends it and stores the response of a read. -/
theorem next_answering (hreq : s.doRequest = false) (hend : s.doEnd = true)
    (hready : s.dmiRespReadyO = true) : next s i = { s with
      tapWriteReadyO := false, dmiReqValidO := false, doEnd := false
      tapReadValidO := !s.doRead && i.tapReadReadyI
      doRead := s.doRead && !stores s i
      dmiResp := if stores s i then i.dmiRespI else s.dmiResp } := by
  rw [stores_answering i hreq hend hready]
  cases hr : s.doRead <;> cases hv : i.dmiRespValidI <;> simp [next, hreq, hend, hready, hr, hv]

/-- Nothing is captured outside the idle phase. -/
theorem captures_busy (h : idle s = false) : captures s i = false := by
  rw [captures, h]
  rfl

end DmiUart

end RiscDbgUart
