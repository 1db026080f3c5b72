/-
  Whole sessions on the JTAG pins.

  `JtagScans` follows one scan of one register, and `JtagTransactions` the state machine behind the
  DMI register, whatever the host does.  A debugger selects `DMIACCESS` once and then scans the DMI
  register again and again, and leaves the channel its time after each scan.  For such a session the
  two meet: every word that is scanned in is one operation, and what is scanned out is the outcome of
  the operation before, without a busy error ever (`operations_answered`).

  Where the controller is depends on `TMS` alone (`controller_component`), so a session is a
  predicate on the inputs (`Selects`, `Operations`): the detours in a scan, the waits between two
  words and the time that the channel takes over each of them are free.  What is asked of the host is
  that it stays in `RunTestIdle` until the answer is in (`Served`); a scan that comes too early is the
  busy error, and `BusyError` is about that.

  The crux is what holds between two scans: the machine is idle, has no error, and its address and
  data registers are the outcome of the last word (`Ready`).
    * a scan finds the outcome in the register that it captures, and disturbs nothing (`scan_ready`);
    * the time behind the scan takes `Ready` from one word's outcome to the next one's (`turn_run`).
  `operations_run` is the induction over the words that puts the two together.
-/
import RiscDbgUart.BusyError
import RiscDbgUart.Clocked.Component
import RiscDbgUart.JtagScans
import RiscDbgUart.JtagTransactions

set_option linter.unusedVariables false

namespace RiscDbgUart.DmiJtag

open Clocked
open JtagTap (TapState DMIACCESS)

/-! ## The controller alone -/

/-- The state of the TAP controller after a cycle. -/
def controller (t : TapState) (i : Input) : TapState := JtagTap.tapStateD t i.tmsI

theorem controller_component (idcodeValue : BitVec 32) :
    Component (next idcodeValue) controller (fun s => s.tap.tapState) fun _ i => i := fun _ _ => rfl

/-- The inputs of a component that looks at nothing else are those of the whole. -/
theorem seen_inputs (idcodeValue : BitVec 32) (s : State) (is : List Input) :
    seen (next idcodeValue) (fun _ i => i) s is = is := by
  induction is generalizing s with
  | nil => rfl
  | cons i is ih => rw [seen_cons, ih]

def Path.capture : Path → TapState
  | .dr => .CaptureDr
  | .ir => .CaptureIr

def Path.update : Path → TapState
  | .dr => .UpdateDr
  | .ir => .UpdateIr

/-- `TDI` in a shift cycle. -/
def Path.shiftedIn (p : Path) (t : TapState) (i : Input) : List Bool :=
  if p.shifts t then [i.tdI] else []

/-- From the capture to the update, with the bits of `x` on the way.  The host may pause and come back
    as often as it likes: only the cycles in a shift state count. -/
structure Scans (p : Path) {k : Nat} (x : BitVec k) (is : List Input) : Prop where
  scanning : Always controller (fun t _ => p.scanning t = true) p.capture is
  ends : run controller p.capture is = p.update
  bits : emitted controller p.shiftedIn p.capture is = bits x

/-! ## One scan -/

theorem bits_length {k : Nat} (x : BitVec k) : (bits x).length = k := by
  rw [bits, List.length_map, List.length_range]

theorem bits_inj {k : Nat} {x y : BitVec k} (h : bits x = bits y) : x = y := by
  apply BitVec.eq_of_getLsbD_eq
  intro j hj
  exact List.map_inj_left.mp h j (List.mem_range.mpr hj)

section Scan

variable (idcodeValue : BitVec 32) {s : State} {is : List Input}

/-- The machine scans when its controller does, and what goes in are the bits of the host's word. -/
theorem scanning_run {p : Path} {k : Nat} {x : BitVec k} (h : Scans p x is)
    (hcap : s.tap.tapState = p.capture) :
    Always (next idcodeValue) (fun s _ => p.scanning s.tap.tapState = true) s is ∧
      (run (next idcodeValue) s is).tap.tapState = p.update ∧
      (emitted (next idcodeValue) (shifted p) s is).map Prod.fst = bits x := by
  have hpart := controller_component idcodeValue
  have hrun := run_component hpart is s
  have halways := always_component hpart (fun t _ => p.scanning t = true) is s
  have hbits := emitted_component hpart p.shiftedIn is s
  rw [seen_inputs, hcap] at hrun halways hbits
  refine ⟨halways.mp h.scanning, hrun.trans h.ends, ?_⟩
  rw [← emitted_map, ← h.bits, hbits]
  have hfst (s : State) (i : Input) : (shifted p s i).map Prod.fst = p.shiftedIn s.tap.tapState i := by
    rw [shifted, Path.shiftedIn]
    split_ifs <;> rfl
  simp only [hfst]

/-- **A scan of a whole register**: what it has captured comes out, and what goes in is in it.  The
    bits that are in the register and those that have come out are conserved (`scan_conserved`), so
    counting them is all that is left to do. -/
theorem scan_whole (r : Reg) {x : BitVec r.width} (h : Scans r.path x is)
    (hsel : r.selected s.tap = true) (hcap : s.tap.tapState = r.path.capture) :
    (emitted (next idcodeValue) (shifted r.path) s is).map Prod.snd = bits (r.loads idcodeValue s) ∧
      r.value (run (next idcodeValue) s is) = x := by
  obtain ⟨hscan, hend, hin⟩ := scanning_run idcodeValue h hcap
  have hcaptures : r.path.captures s.tap.tapState = true := by
    rw [hcap]
    cases r <;> rfl
  cases is with
  | nil =>
    -- the capture state is not the update state
    rw [run_nil, hcap] at hend
    cases r <;> cases hend
  | cons i is =>
    obtain ⟨hon, hrest⟩ := hscan
    have hnone : shifted r.path s i = [] := by
      rw [shifted, shifts_of_captures hcaptures]
      rfl
    rw [emitted_cons, hnone, List.nil_append] at hin ⊢
    have hsum := scan_conserved ((selected_congr (instruction_kept hon)).trans hsel)
      (scanning_next i.tmsI hon) hrest
    rw [captured_value hon hsel hcaptures, hin] at hsum
    -- as many bits come out as go in
    have hlen : (bits (r.loads idcodeValue s)).length
        = ((emitted (next idcodeValue) (shifted r.path) (next idcodeValue s i) is).map
            Prod.snd).length := by
      have hcount := congrArg List.length hin
      rw [List.length_map, bits_length] at hcount
      rw [bits_length, List.length_map, hcount]
    obtain ⟨hout, hheld⟩ := List.append_inj hsum hlen
    exact ⟨hout.symm, (bits_inj hheld).symm⟩

end Scan

/-! ## Between two scans -/

/-- Nothing is under way, and the address and data registers are `a` and `d`. -/
structure Quiet (a : BitVec 7) (d : BitVec 32) (s : State) : Prop where
  state : s.state = .Idle
  error : s.error = DMINoError
  address : s.address = a
  data : s.data = d

/-- The DMI register is selected as well, so that the next scan finds `a` and `d`. -/
structure Ready (a : BitVec 7) (d : BitVec 32) (s : State) : Prop extends Quiet a d s where
  ir : s.tap.jtagIr = DMIACCESS

section Ready

variable (idcodeValue : BitVec 32) {a : BitVec 7} {d : BitVec 32} {s : State} {i : Input}
  {is : List Input}

/-- Away from the updates everything stays, and no request is sent: an operation starts with an update. -/
theorem quiet_next (h : Quiet a d s) (hdr : JtagTap.updateDrO s.tap = false) :
    Quiet a d (next idcodeValue s i) ∧ sent s i = [] := by
  have htakes : takes s = false := by
    rw [takes, updatesDmi, hdr, Bool.and_false]
    rfl
  refine ⟨⟨?_, ?_, ?_, ?_⟩, sent_none (idle_silent h.state).1⟩
  · show stateD s i = .Idle
    rw [stateD_idle h.state, htakes]
    rfl
  · show errorD s = DMINoError
    rw [errorD, errorDmiBusy_idle h.state, resetsDmi, hdr]
    exact h.error
  · show addressD s = a
    rw [addressD, htakes]
    exact h.address
  · show dataD s i = d
    rw [dataD, htakes, if_neg Bool.false_ne_true, h.state]
    exact h.data

/-- Away from the reset of the TAP the instruction stays too. -/
theorem ready_next (h : Ready a d s) (hlive : JtagTap.testLogicResetO s.tap = false)
    (hdr : JtagTap.updateDrO s.tap = false) (hir : JtagTap.updateIr s.tap = false) :
    Ready a d (next idcodeValue s i) ∧ sent s i = [] := by
  obtain ⟨hquiet, hsent⟩ := quiet_next idcodeValue h.toQuiet hdr
  refine ⟨⟨hquiet, ?_⟩, hsent⟩
  show JtagTap.jtagIrD s.tap = DMIACCESS
  rw [JtagTap.jtagIrD, hlive, hir]
  exact h.ir

/-- A stretch without an update of a data register, and without a shift of one. -/
theorem quiet_run (h : Quiet a d s) (hoff : Always (next idcodeValue)
      (fun s _ => JtagTap.updateDrO s.tap = false ∧ Path.dr.shifts s.tap.tapState = false) s is) :
    Quiet a d (run (next idcodeValue) s is) ∧ emitted (next idcodeValue) sent s is = [] ∧
      emitted (next idcodeValue) (shifted .dr) s is = [] := by
  have hstep (s : State) (i : Input) (hs : Quiet a d s)
      (hi : JtagTap.updateDrO s.tap = false ∧ Path.dr.shifts s.tap.tapState = false) :
      Quiet a d (next idcodeValue s i) := (quiet_next idcodeValue hs hi.1).1
  refine ⟨run_of_step hstep is s h hoff, ?_, ?_⟩
  · exact emitted_eq_nil.mpr (always_of_step (Quiet a d) _ _ hstep
      (fun s i hs hi => (quiet_next idcodeValue hs hi.1).2) is s h hoff)
  · refine emitted_eq_nil.mpr (always_imp ?_ is s hoff)
    intro s i hi
    rw [shifted, hi.2]
    rfl

/-- A scan reaches no update before its end, so nothing happens during it. -/
theorem scanning_ready (h : Ready a d s) (hscan : Path.dr.scanning s.tap.tapState = true) :
    Ready a d (next idcodeValue s i) ∧ sent s i = [] := by
  refine ready_next idcodeValue h (scanning_quiet hscan).1 ?_ (scanning_quiet hscan).2
  unfold JtagTap.updateDrO
  cases ht : s.tap.tapState <;> rw [ht] at hscan <;> first | rfl | cases hscan

/-- **A scan of the DMI register**: the last outcome comes out, and the word is in the register. -/
theorem scan_ready {x : BitVec WIDTH} (h : Ready a d s) (hcap : s.tap.tapState = .CaptureDr)
    (hscan : Scans .dr x is) :
    (emitted (next idcodeValue) (shifted .dr) s is).map Prod.snd = bits (a ++ d ++ DMINoError) ∧
      emitted (next idcodeValue) sent s is = [] ∧
      Ready a d (run (next idcodeValue) s is) ∧
      (run (next idcodeValue) s is).tap.tapState = .UpdateDr ∧ (run (next idcodeValue) s is).dr = x := by
  have hsel : Reg.dmi.selected s.tap = true := by
    show (s.tap.jtagIr == DMIACCESS) = true
    rw [h.ir]
    rfl
  obtain ⟨halways, hend, -⟩ := scanning_run idcodeValue hscan hcap
  obtain ⟨hout, hheld⟩ := scan_whole idcodeValue .dmi hscan hsel hcap
  have hcaptured : Reg.dmi.loads idcodeValue s = a ++ d ++ DMINoError := by
    show captured s = _
    rw [captured, if_pos ⟨h.error, errorDmiBusy_idle h.state⟩, h.address, h.data]
  rw [hcaptured] at hout
  have hready (s : State) (i : Input) (hs : Ready a d s)
      (hon : Path.dr.scanning s.tap.tapState = true) : Ready a d (next idcodeValue s i) :=
    (scanning_ready idcodeValue hs hon).1
  have hnone (s : State) (i : Input) (hs : Ready a d s)
      (hon : Path.dr.scanning s.tap.tapState = true) : sent s i = [] :=
    (scanning_ready idcodeValue (i := i) hs hon).2
  refine ⟨hout, ?_, run_of_step hready is s h halways, hend, hheld⟩
  exact emitted_eq_nil.mpr (always_of_step (Ready a d) _ _ hready hnone is s h halways)

end Ready

/-! ## The channel's turn

  The host waits in `RunTestIdle`, and the operation of the last scan goes its way. -/

/-- The operation `q` is under way, the host waiting in `RunTestIdle` with the DMI register selected. -/
structure Under (st : DmiState) (q : DmiReq) (s : State) : Prop where
  idle : s.tap.tapState = .RunTestIdle
  ir : s.tap.jtagIr = DMIACCESS
  state : s.state = st
  error : s.error = DMINoError
  address : s.address = q.addr
  data : s.data = q.data

/-- The word asks the debug module for something. -/
def isRequest (x : BitVec WIDTH) : Bool :=
  (DmiReq.ofWord x).op == DTM_READ || (DmiReq.ofWord x).op == DTM_WRITE

/-- The states in which a request waits for the channel, and its answer for the debug module. -/
def asking (q : DmiReq) : DmiState := if q.op = DTM_READ then .Read else .Write
def awaiting (q : DmiReq) : DmiState := if q.op = DTM_READ then .WaitReadValid else .WaitWriteValid

/-- What the next scan finds behind a word: its address, and the answer to a read or else its own
    data. -/
def outcome (x : BitVec WIDTH) (answer : BitVec 32) : BitVec 7 × BitVec 32 :=
  ((DmiReq.ofWord x).addr,
    if (DmiReq.ofWord x).op = DTM_READ then answer else (DmiReq.ofWord x).data)

section Turn

variable (idcodeValue : BitVec 32) {st : DmiState} {q : DmiReq} {s : State} {i : Input}
  {is : List Input}

/-- While the host waits the TAP stays where it is, and no error comes up. -/
theorem waiting_tap (hidle : s.tap.tapState = .RunTestIdle) (htms : i.tmsI = false) :
    (next idcodeValue s i).tap.tapState = .RunTestIdle ∧
      (next idcodeValue s i).tap.jtagIr = s.tap.jtagIr ∧ (next idcodeValue s i).error = s.error ∧
      shifted .dr s i = [] := by
  have hreset : JtagTap.testLogicResetO s.tap = false := by rw [JtagTap.testLogicResetO, hidle]; rfl
  have hir : JtagTap.updateIr s.tap = false := by rw [JtagTap.updateIr, hidle]; rfl
  have hup : JtagTap.updateDrO s.tap = false := by rw [JtagTap.updateDrO, hidle]; rfl
  have hcap : JtagTap.captureDrO s.tap = false := by rw [JtagTap.captureDrO, hidle]; rfl
  refine ⟨?_, ?_, ?_, ?_⟩
  · show JtagTap.tapStateD s.tap.tapState i.tmsI = _
    rw [hidle, htms]
    rfl
  · show JtagTap.jtagIrD s.tap = _
    rw [JtagTap.jtagIrD, hreset, hir]
    rfl
  · show errorD s = _
    rw [errorD, resetsDmi, errorDmiBusy, hup, hcap]
    rfl
  · rw [shifted, hidle]
    rfl

/-- A cycle that does not end the operation.  The state machine may move on, the request is the same. -/
theorem under_next (h : Under st q s) (hst : st ≠ .Idle) (htms : i.tmsI = false)
    (hno : ¬ (st = .WaitReadValid ∧ i.dmiRespValidI = true)) :
    Under (stateD s i) q (next idcodeValue s i) := by
  have hbusy : s.state ≠ .Idle := by rw [h.state]; exact hst
  obtain ⟨hidle, hir, herror, -⟩ := waiting_tap idcodeValue h.idle htms
  refine ⟨hidle, hir.trans h.ir, rfl, herror.trans h.error, ?_, ?_⟩
  · show addressD s = q.addr
    rw [addressD, takes_busy hbusy, if_neg Bool.false_ne_true]
    exact h.address
  · show dataD s i = q.data
    rw [dataD, takes_busy hbusy, if_neg Bool.false_ne_true, h.state, if_neg hno]
    exact h.data

/-- The host waits for a channel that does not answer yet, for any number of cycles. -/
theorem under_run (is : List Input) (h : Under st q s) (hst : st ≠ .Idle)
    (hall : ∀ i ∈ is, i.tmsI = false ∧
      ∀ s, Under st q s → stateD s i = st ∧ sent s i = [] ∧
        ¬ (st = .WaitReadValid ∧ i.dmiRespValidI = true)) :
    Under st q (run (next idcodeValue) s is) ∧ emitted (next idcodeValue) sent s is = [] ∧
      emitted (next idcodeValue) (shifted .dr) s is = [] := by
  induction is generalizing s with
  | nil => exact ⟨h, rfl, rfl⟩
  | cons i is ih =>
    obtain ⟨htms, hstay⟩ := hall i List.mem_cons_self
    obtain ⟨hstate, hsent, hno⟩ := hstay s h
    have hnext := under_next idcodeValue h hst htms hno
    rw [hstate] at hnext
    obtain ⟨hrun, hsents, hshifts⟩ := ih hnext fun j hj => hall j (List.mem_cons_of_mem i hj)
    obtain ⟨-, -, -, hshift⟩ := waiting_tap idcodeValue h.idle htms
    rw [run_cons, emitted_cons, emitted_cons, hsent, hsents, hshift, hshifts]
    exact ⟨hrun, rfl, rfl⟩

/-- The host waits with nothing under way, and nothing comes of it. -/
theorem ready_run {a : BitVec 7} {d : BitVec 32} (is : List Input) (h : Ready a d s)
    (hidle : s.tap.tapState = .RunTestIdle) (htms : ∀ i ∈ is, i.tmsI = false) :
    Ready a d (run (next idcodeValue) s is) ∧
      (run (next idcodeValue) s is).tap.tapState = .RunTestIdle ∧
      emitted (next idcodeValue) sent s is = [] ∧
      emitted (next idcodeValue) (shifted .dr) s is = [] := by
  induction is generalizing s with
  | nil => exact ⟨h, hidle, rfl, rfl⟩
  | cons i is ih =>
    obtain ⟨htap, -, -, hshift⟩ := waiting_tap idcodeValue hidle (htms i List.mem_cons_self)
    obtain ⟨hready, hsent⟩ := ready_next idcodeValue h (i := i)
      (by rw [JtagTap.testLogicResetO, hidle]; rfl) (by rw [JtagTap.updateDrO, hidle]; rfl)
      (by rw [JtagTap.updateIr, hidle]; rfl)
    obtain ⟨hrun, hstays, hsents, hshifts⟩ :=
      ih hready htap fun j hj => htms j (List.mem_cons_of_mem i hj)
    rw [run_cons, emitted_cons, emitted_cons, hsent, hsents, hshift, hshifts]
    exact ⟨hrun, hstays, rfl, rfl⟩

end Turn

/-- The request that a word is, if it is one. -/
def requestOf (x : BitVec WIDTH) : List DmiReq := if isRequest x then [DmiReq.ofWord x] else []

/-- The channel takes the request over and brings `answer` back before the host goes on. -/
def Served (x : BitVec WIDTH) (answer : BitVec 32) (is : List Input) : Prop :=
  isRequest x = true → ∃ before i between j after, is = before ++ i :: (between ++ j :: after) ∧
    (∀ b ∈ before, b.dmiReqReadyI = false) ∧ i.dmiReqReadyI = true ∧
    (∀ b ∈ between, b.dmiRespValidI = false) ∧ j.dmiRespValidI = true ∧ j.dmiRespDataI = answer

section Served

variable (idcodeValue : BitVec 32) {a : BitVec 7} {d : BitVec 32} {q : DmiReq} {x : BitVec WIDTH}
  {answer : BitVec 32} {s : State} {i : Input} {is : List Input}

/-- The request is on the channel. -/
theorem asking_valid (h : Under (asking q) q s) : dmiReqValid s = true := by
  rw [dmiReqValid, h.state, asking]
  split_ifs <;> rfl

theorem asking_ne_idle (q : DmiReq) : asking q ≠ .Idle := by
  unfold asking
  split_ifs <;> decide

theorem awaiting_ne_idle (q : DmiReq) : awaiting q ≠ .Idle := by
  unfold awaiting
  split_ifs <;> decide

/-- It is the one that was scanned in. -/
theorem asking_request (h : Under (asking q) q s) (hop : q.op = DTM_READ ∨ q.op = DTM_WRITE) :
    dmiReq s = q := by
  rw [dmiReq, h.state, h.address, h.data, asking]
  obtain ⟨addr, op, data⟩ := q
  rcases hop with rfl | rfl <;> rfl

/-- The channel is not ready for it yet, and the request stays on it. -/
theorem asking_kept (h : Under (asking q) q s) (hready : i.dmiReqReadyI = false) :
    stateD s i = asking q ∧ sent s i = [] ∧ ¬ (asking q = .WaitReadValid ∧ i.dmiRespValidI = true) := by
  refine ⟨?_, ?_, ?_⟩
  · rw [stateD_request (asking_valid h), hready, if_neg Bool.false_ne_true, h.state]
  · rw [sent, hready, Bool.and_false, if_neg Bool.false_ne_true]
  · rintro ⟨hwait, -⟩
    unfold asking at hwait
    split_ifs at hwait

/-- The channel takes it over, which sends it, and its answer is what remains. -/
theorem asking_sent (h : Under (asking q) q s) (hop : q.op = DTM_READ ∨ q.op = DTM_WRITE)
    (hready : i.dmiReqReadyI = true) :
    stateD s i = awaiting q ∧ sent s i = [q] ∧
      ¬ (asking q = .WaitReadValid ∧ i.dmiRespValidI = true) := by
  refine ⟨?_, ?_, ?_⟩
  · rw [stateD_request (asking_valid h), hready, if_pos rfl, h.state]
    unfold asking awaiting
    by_cases hread : q.op = DTM_READ
    · rw [if_pos hread, if_pos hread, if_pos rfl]
    · rw [if_neg hread, if_neg hread, if_neg (by decide)]
  · rw [sent, asking_valid h, hready, asking_request h hop]
    rfl
  · rintro ⟨hwait, -⟩
    unfold asking at hwait
    split_ifs at hwait

theorem awaiting_waits (h : Under (awaiting q) q s) : waitsAnswer s = true := by
  rw [waitsAnswer, h.state, awaiting]
  split_ifs <;> rfl

/-- The answer is not there yet, for a read or for a write. -/
theorem awaiting_kept (h : Under (awaiting q) q s) (hvalid : i.dmiRespValidI = false) :
    stateD s i = awaiting q ∧ sent s i = [] ∧
      ¬ (awaiting q = .WaitReadValid ∧ i.dmiRespValidI = true) := by
  refine ⟨?_, sent_none (waits_busy (awaiting_waits h)).2, ?_⟩
  · rw [stateD_waits (awaiting_waits h), hvalid, if_neg Bool.false_ne_true, h.state]
  · rintro ⟨-, hv⟩
    rw [hvalid] at hv
    cases hv

/-- The answer comes, and ends the operation; behind a read it is in the data register. -/
theorem awaiting_answered (h : Under (awaiting q) q s) (htms : i.tmsI = false)
    (hvalid : i.dmiRespValidI = true) :
    Ready q.addr (if q.op = DTM_READ then i.dmiRespDataI else q.data) (next idcodeValue s i) ∧
      (next idcodeValue s i).tap.tapState = .RunTestIdle ∧ sent s i = [] := by
  obtain ⟨hidle, hir, herror, -⟩ := waiting_tap idcodeValue h.idle htms
  have hbusy : s.state ≠ .Idle := by rw [h.state]; exact awaiting_ne_idle q
  refine ⟨⟨⟨?_, herror.trans h.error, ?_, ?_⟩, hir.trans h.ir⟩, hidle,
    sent_none (waits_busy (awaiting_waits h)).2⟩
  · show stateD s i = .Idle
    rw [stateD_waits (awaiting_waits h), hvalid, if_pos rfl]
  · show addressD s = q.addr
    rw [addressD, takes_busy hbusy, if_neg Bool.false_ne_true]
    exact h.address
  · show dataD s i = _
    rw [dataD, takes_busy hbusy, if_neg Bool.false_ne_true, h.state, h.data, hvalid, awaiting]
    by_cases hread : q.op = DTM_READ
    · rw [if_pos hread, if_pos hread, if_pos ⟨rfl, rfl⟩]
    · rw [if_neg hread, if_neg hread, if_neg (fun hw => absurd hw.1 (by decide))]

/-- **The update**: the word that was scanned in is taken.  If it names an operation, that is under way, and
    otherwise the host may go on at once. -/
theorem update_next (h : Ready a d s) (hup : s.tap.tapState = .UpdateDr) (hdr : s.dr = x)
    (htms : i.tmsI = false) :
    (next idcodeValue s i).tap.tapState = .RunTestIdle ∧ sent s i = [] ∧ shifted .dr s i = [] ∧
      (isRequest x = true →
        Under (asking (DmiReq.ofWord x)) (DmiReq.ofWord x) (next idcodeValue s i)) ∧
      (isRequest x = false → ∀ answer,
        Ready (outcome x answer).1 (outcome x answer).2 (next idcodeValue s i)) := by
  have hdmi : dmi s = DmiReq.ofWord x := by rw [dmi, hdr]
  have hupdates : updatesDmi s = true := by
    rw [updatesDmi, JtagTap.dmiAccessO, JtagTap.updateDrO, h.ir, hup]
    rfl
  have htakes : takes s = true := by
    rw [takes, hupdates, h.state, h.error]
    rfl
  have hstate : (next idcodeValue s i).state = _ := stateD_idle (i := i) h.state
  have haddress : (next idcodeValue s i).address = (DmiReq.ofWord x).addr := by
    show addressD s = _
    rw [addressD, htakes, if_pos rfl, hdmi]
  have hdata : (next idcodeValue s i).data = (DmiReq.ofWord x).data := by
    show dataD s i = _
    rw [dataD, htakes, if_pos rfl, hdmi]
  have herror : (next idcodeValue s i).error = DMINoError := by
    show errorD s = _
    have hcap : JtagTap.captureDrO s.tap = false := by rw [JtagTap.captureDrO, hup]; rfl
    have hselect : JtagTap.dtmcsSelectO s.tap = false := by rw [JtagTap.dtmcsSelectO, h.ir]; rfl
    rw [errorD, resetsDmi, hselect, Bool.and_false, if_neg Bool.false_ne_true, errorDmiBusy, hcap,
      h.state]
    simp [h.error]
  have hir : (next idcodeValue s i).tap.jtagIr = DMIACCESS := by
    show JtagTap.jtagIrD s.tap = _
    rw [JtagTap.jtagIrD, JtagTap.testLogicResetO, JtagTap.updateIr, hup]
    exact h.ir
  have htap : (next idcodeValue s i).tap.tapState = .RunTestIdle := by
    show JtagTap.tapStateD s.tap.tapState i.tmsI = _
    rw [hup, htms]
    rfl
  rw [htakes, if_pos rfl, hdmi] at hstate
  refine ⟨htap, sent_none (idle_silent h.state).1, ?_, ?_, ?_⟩
  · rw [shifted, hup]
    rfl
  · -- a request goes to the channel
    intro hreq
    refine ⟨htap, hir, ?_, herror, haddress, hdata⟩
    rw [isRequest, Bool.or_eq_true, beq_iff_eq, beq_iff_eq] at hreq
    rw [hstate, asking]
    rcases hreq with hread | hwrite
    · rw [if_pos hread, if_pos hread]
    · rw [hwrite]
      rfl
  · -- a nop leaves its address and its data
    intro hnop answer
    rw [isRequest, Bool.or_eq_false_iff, beq_eq_false_iff_ne, beq_eq_false_iff_ne] at hnop
    rw [if_neg hnop.1, if_neg hnop.2] at hstate
    refine ⟨⟨hstate, herror, haddress, ?_⟩, hir⟩
    rw [hdata, outcome, if_neg hnop.1]

/-- **From one scan to the next**: the word is taken, a request is sent and answered, and the next
    scan finds the outcome.  A word that is no request needs no time at all. -/
theorem turn_run (h : Ready a d s) (hup : s.tap.tapState = .UpdateDr) (hdr : s.dr = x)
    (htms : ∀ j ∈ i :: is, j.tmsI = false) (hserved : Served x answer is) :
    Ready (outcome x answer).1 (outcome x answer).2 (run (next idcodeValue) s (i :: is)) ∧
      (run (next idcodeValue) s (i :: is)).tap.tapState = .RunTestIdle ∧
      emitted (next idcodeValue) sent s (i :: is) = requestOf x ∧
      emitted (next idcodeValue) (shifted .dr) s (i :: is) = [] := by
  obtain ⟨htap, hsent, hshift, hasks, hnop⟩ :=
    update_next idcodeValue h hup hdr (htms i List.mem_cons_self)
  have hlow : ∀ j ∈ is, j.tmsI = false := fun j hj => htms j (List.mem_cons_of_mem i hj)
  rw [run_cons, emitted_cons, emitted_cons, hsent, hshift, List.nil_append, List.nil_append]
  cases hreq : isRequest x with
  | false =>
    obtain ⟨hrun, hstays, hsents, hshifts⟩ := ready_run idcodeValue is (hnop hreq answer) htap hlow
    rw [requestOf, hreq, if_neg Bool.false_ne_true]
    exact ⟨hrun, hstays, hsents, hshifts⟩
  | true =>
    obtain ⟨before, j, between, k, after, rfl, hbefore, hready, hbetween, hvalid, rfl⟩ := hserved hreq
    have hop : (DmiReq.ofWord x).op = DTM_READ ∨ (DmiReq.ofWord x).op = DTM_WRITE := by
      rw [isRequest, Bool.or_eq_true, beq_iff_eq, beq_iff_eq] at hreq
      exact hreq
    simp only [List.mem_append, List.mem_cons] at hlow
    -- until the channel is ready
    obtain ⟨hasking, hsents₁, hshifts₁⟩ := under_run idcodeValue before (hasks hreq)
      (asking_ne_idle _) fun b hb => ⟨hlow b (Or.inl hb), fun s hs => asking_kept hs (hbefore b hb)⟩
    -- it takes the request over
    obtain ⟨hstate, hsent₂, hno⟩ := asking_sent (i := j) hasking hop hready
    have hwait := under_next idcodeValue (i := j) hasking (asking_ne_idle _) (hlow j (by tauto)) hno
    obtain ⟨-, -, -, hshift₂⟩ := waiting_tap idcodeValue (i := j) hasking.idle (hlow j (by tauto))
    rw [hstate] at hwait
    -- until the answer is there
    obtain ⟨hawaits, hsents₃, hshifts₃⟩ := under_run idcodeValue between hwait
      (awaiting_ne_idle _) fun b hb =>
        ⟨hlow b (by tauto), fun s hs => awaiting_kept hs (hbetween b hb)⟩
    -- the answer
    obtain ⟨hends, htap₄, hsent₄⟩ :=
      awaiting_answered idcodeValue (i := k) hawaits (hlow k (by tauto)) hvalid
    obtain ⟨-, -, -, hshift₄⟩ := waiting_tap idcodeValue (i := k) hawaits.idle (hlow k (by tauto))
    -- and the time that is left
    obtain ⟨hrun, hstays, hsents₅, hshifts₅⟩ :=
      ready_run idcodeValue after hends htap₄ fun b hb => hlow b (by tauto)
    rw [requestOf, hreq, if_pos rfl]
    simp only [run_append, run_cons, emitted_append, emitted_cons, hsents₁, hsent₂, hsents₃, hsent₄,
      hsents₅, hshifts₁, hshift₂, hshifts₃, hshift₄, hshifts₅, List.nil_append, List.append_nil,
      and_true]
    exact ⟨hrun, hstays⟩

end Served

/-! ## Sessions -/

/-- The host scans these words through the DMI register, each with the answer that the channel brings
    for it: two cycles to the capture, the scan with any detours, the update, and then the time in
    which the channel does its work; or it just waits. -/
inductive Operations : List (BitVec WIDTH × BitVec 32) → List Input → Prop
  | nil : Operations [] []
  | wait {ops : List (BitVec WIDTH × BitVec 32)} {is : List Input} (i : Input)
      (htms : i.tmsI = false) (hrest : Operations ops is) : Operations ops (i :: is)
  | scan {ops : List (BitVec WIDTH × BitVec 32)} {is : List Input} {x : BitVec WIDTH}
      {answer : BitVec 32} (e f u : Input) {cycles idle : List Input} (he : e.tmsI = true)
      (hf : f.tmsI = false) (hscan : Scans .dr x cycles) (hidle : ∀ j ∈ u :: idle, j.tmsI = false)
      (hserved : Served x answer idle) (hrest : Operations ops is) :
      Operations ((x, answer) :: ops) (e :: f :: (cycles ++ u :: (idle ++ is)))

/-- What is scanned out: with each word the outcome of the one before. -/
def scannedOut : BitVec 7 × BitVec 32 → List (BitVec WIDTH × BitVec 32) → List (BitVec WIDTH)
  | _, [] => []
  | found, (x, answer) :: ops =>
    (found.1 ++ found.2 ++ DMINoError) :: scannedOut (outcome x answer) ops

section Sessions

variable (idcodeValue : BitVec 32) {a : BitVec 7} {d : BitVec 32} {s : State} {is : List Input}
  {ops : List (BitVec WIDTH × BitVec 32)}

/-- From the waiting state to the capture of the DMI register, by the two edges of the standard. -/
theorem to_capture (h : Ready a d s) (hidle : s.tap.tapState = .RunTestIdle) {e f : Input}
    (he : e.tmsI = true) (hf : f.tmsI = false) :
    Ready a d (run (next idcodeValue) s [e, f]) ∧
      (run (next idcodeValue) s [e, f]).tap.tapState = .CaptureDr ∧
      emitted (next idcodeValue) sent s [e, f] = [] ∧
      emitted (next idcodeValue) (shifted .dr) s [e, f] = [] := by
  obtain ⟨hready, hsent⟩ := ready_next idcodeValue h (i := e)
    (by rw [JtagTap.testLogicResetO, hidle]; rfl) (by rw [JtagTap.updateDrO, hidle]; rfl)
    (by rw [JtagTap.updateIr, hidle]; rfl)
  have hselect : (next idcodeValue s e).tap.tapState = .SelectDrScan := by
    show JtagTap.tapStateD s.tap.tapState e.tmsI = _
    rw [hidle, he]
    rfl
  obtain ⟨hready', hsent'⟩ := ready_next idcodeValue hready (i := f)
    (by rw [JtagTap.testLogicResetO, hselect]; rfl) (by rw [JtagTap.updateDrO, hselect]; rfl)
    (by rw [JtagTap.updateIr, hselect]; rfl)
  simp only [run_cons, run_nil, emitted_cons, emitted_nil, hsent, hsent', shifted, hidle, hselect]
  refine ⟨hready', ?_, rfl, rfl⟩
  show JtagTap.tapStateD (next idcodeValue s e).tap.tapState f.tmsI = _
  rw [hselect, hf]
  rfl

/-- **The operations, one by one**: every scan brings out what the operation before it has left in the
    register. -/
theorem operations_run (hops : Operations ops is) (h : Ready a d s)
    (hidle : s.tap.tapState = .RunTestIdle) :
    (emitted (next idcodeValue) (shifted .dr) s is).map Prod.snd
        = (scannedOut (a, d) ops).flatMap bits ∧
      emitted (next idcodeValue) sent s is = ops.flatMap fun op => requestOf op.1 := by
  induction hops generalizing a d s with
  | nil => exact ⟨rfl, rfl⟩
  | wait i htms hrest ih =>
    obtain ⟨hready, htap, hsent, hshift⟩ := ready_run idcodeValue [i] h hidle
      fun j hj => (List.mem_singleton.mp hj).symm ▸ htms
    obtain ⟨hout, hreqs⟩ := ih hready htap
    rw [emitted_cons, emitted_nil, List.append_nil] at hsent hshift
    rw [emitted_cons, emitted_cons, hsent, hshift]
    exact ⟨hout, hreqs⟩
  | @scan ops is x answer e f u cycles idle he hf hscan hlow hserved hrest ih =>
    obtain ⟨hready, hcap, hsent₁, hshift₁⟩ := to_capture idcodeValue h hidle he hf
    obtain ⟨hout₂, hsent₂, hready₂, hup, hdr⟩ := scan_ready idcodeValue hready hcap hscan
    obtain ⟨hready₃, htap, hsent₃, hshift₃⟩ := turn_run idcodeValue hready₂ hup hdr hlow hserved
    obtain ⟨hout, hreqs⟩ := ih hready₃ htap
    -- the way there, the scan, the channel's turn, and the words after it
    have hsplit : e :: f :: (cycles ++ u :: (idle ++ is))
        = [e, f] ++ (cycles ++ ((u :: idle) ++ is)) := rfl
    rw [hsplit]
    simp only [emitted_append, hsent₁, hsent₂, hsent₃, hshift₁, hshift₃, List.nil_append, hreqs,
      List.map_append, hout₂, hout]
    exact ⟨rfl, rfl⟩

end Sessions

/-! ## From the reset on -/

/-- The host selects `DMIACCESS`: three cycles to the capture of the instruction, the scan with any
    detours, and the update. -/
def Selects (is : List Input) : Prop := ∃ e f g cycles u, is = [e, f, g] ++ (cycles ++ [u]) ∧
  e.tmsI = true ∧ f.tmsI = true ∧ g.tmsI = false ∧ Scans .ir DMIACCESS cycles ∧ u.tmsI = false

section Selects

variable (idcodeValue : BitVec 32) {is : List Input} {ops : List (BitVec WIDTH × BitVec 32)}

/-- Behind it the DMI register is selected, and nothing has gone over the data path. -/
theorem selects_run (h : Selects is) :
    Ready 0 0 (run (next idcodeValue) (reset idcodeValue) is) ∧
      (run (next idcodeValue) (reset idcodeValue) is).tap.tapState = .RunTestIdle ∧
      emitted (next idcodeValue) sent (reset idcodeValue) is = [] ∧
      emitted (next idcodeValue) (shifted .dr) (reset idcodeValue) is = [] := by
  obtain ⟨e, f, g, cycles, u, rfl, he, hf, hg, hscan, hu⟩ := h
  have hquiet : Quiet 0 0 (reset idcodeValue) := ⟨rfl, rfl, rfl, rfl⟩
  -- to the capture
  have hselect : (next idcodeValue (reset idcodeValue) e).tap.tapState = .SelectDrScan := by
    show JtagTap.tapStateD .RunTestIdle e.tmsI = _
    rw [he]
    rfl
  have hselectIr : (run (next idcodeValue) (reset idcodeValue) [e, f]).tap.tapState = .SelectIrScan := by
    show JtagTap.tapStateD (next idcodeValue (reset idcodeValue) e).tap.tapState f.tmsI = _
    rw [hselect, hf]
    rfl
  have hcap : (run (next idcodeValue) (reset idcodeValue) [e, f, g]).tap.tapState = .CaptureIr := by
    show JtagTap.tapStateD (run (next idcodeValue) (reset idcodeValue) [e, f]).tap.tapState g.tmsI = _
    rw [hselectIr, hg]
    rfl
  -- the scan
  obtain ⟨hscanning, hup, -⟩ := scanning_run idcodeValue hscan hcap
  obtain ⟨-, hheld⟩ := scan_whole idcodeValue .ir hscan rfl hcap
  -- no cycle of this shifts or updates a data register
  have hoff : Always (next idcodeValue)
      (fun s _ => JtagTap.updateDrO s.tap = false ∧ Path.dr.shifts s.tap.tapState = false)
      (reset idcodeValue) ([e, f, g] ++ (cycles ++ [u])) := by
    rw [always_append, always_append]
    refine ⟨⟨⟨rfl, rfl⟩, ⟨?_, ?_⟩, ⟨?_, ?_⟩, trivial⟩, always_imp ?_ _ _ hscanning, ⟨?_, ?_⟩, trivial⟩
    · rw [JtagTap.updateDrO, hselect]
      rfl
    · rw [hselect]
      rfl
    · show JtagTap.updateDrO (run (next idcodeValue) (reset idcodeValue) [e, f]).tap = false
      rw [JtagTap.updateDrO, hselectIr]
      rfl
    · show Path.dr.shifts (run (next idcodeValue) (reset idcodeValue) [e, f]).tap.tapState = false
      rw [hselectIr]
      rfl
    · intro s i hs
      refine ⟨?_, (scanning_other hs (by decide)).2⟩
      unfold JtagTap.updateDrO
      cases ht : s.tap.tapState <;> rw [ht] at hs <;> first | rfl | cases hs
    · rw [JtagTap.updateDrO, hup]
      rfl
    · rw [hup]
      rfl
  obtain ⟨hend, hsents, hshifts⟩ := quiet_run idcodeValue hquiet hoff
  -- the update
  have hlast : run (next idcodeValue) (reset idcodeValue) ([e, f, g] ++ (cycles ++ [u]))
      = next idcodeValue
          (run (next idcodeValue) (run (next idcodeValue) (reset idcodeValue) [e, f, g]) cycles) u := by
    rw [run_append, run_append, run_cons, run_nil]
  refine ⟨⟨hend, ?_⟩, ?_, hsents, hshifts⟩
  · rw [hlast]
    show JtagTap.jtagIrD _ = DMIACCESS
    rw [JtagTap.jtagIrD, JtagTap.testLogicResetO, JtagTap.updateIr, hup]
    exact hheld
  · rw [hlast]
    show JtagTap.tapStateD _ u.tmsI = _
    rw [hup, hu]
    rfl

/-- **A debug session over JTAG.**  The host selects the DMI register and scans words through it, with
    any pauses in the scans and any waits between them, and the channel takes over and answers each
    request before the next scan begins.  Then the channel gets the requests among the words, each once
    and in order, and the bits on the `TDO` multiplexer are those of the outcomes, one word behind: the
    address of the word before, the answer to it if it was a read and its own data otherwise, and no
    error. -/
theorem operations_answered {sel : List Input} (hsel : Selects sel) (hops : Operations ops is) :
    (emitted (next idcodeValue) (shifted .dr) (reset idcodeValue) (sel ++ is)).map Prod.snd
        = (scannedOut (0, 0) ops).flatMap bits ∧
      emitted (next idcodeValue) sent (reset idcodeValue) (sel ++ is)
        = ops.flatMap fun op => requestOf op.1 := by
  obtain ⟨hready, hidle, hsents, hshifts⟩ := selects_run idcodeValue hsel
  obtain ⟨hout, hreqs⟩ := operations_run idcodeValue hops hready hidle
  rw [emitted_append, emitted_append, hsents, hshifts, List.nil_append, List.nil_append]
  exact ⟨hout, hreqs⟩

end Selects

/-- From the capture of a register to its update, without a detour. -/
def straight {k : Nat} (x : BitVec k) : List Input :=
  { tmsI := false } :: (shifts x ++ [{ tmsI := true }])

/-- A write of `0x10`, then a read of it and a nop that fetches the answer; the channel takes a cycle
    over each request and another one over the answer. -/
def threeWords : List (BitVec WIDTH × BitVec 32) :=
  [(0x4000000006, 0), (0x4000000001, 0xABCD), (0, 0)]

/-- The host waits while the channel works. -/
def served (answer : BitVec 32) : List Input :=
  [{ tmsI := false }, { tmsI := false, dmiReqReadyI := true }, { tmsI := false },
    { tmsI := false, dmiRespValidI := true, dmiRespDataI := answer }]

/-- One word through the DMI register. -/
def oneWord (op : BitVec WIDTH × BitVec 32) : List Input :=
  { tmsI := true } :: { tmsI := false } :: (straight op.1 ++ { tmsI := false } :: (served op.2 ++ []))

/-- The host's cycles from the reset on. -/
def threeWordCycles : List Input :=
  ([{ tmsI := true }, { tmsI := true }, { tmsI := false }]
      ++ (straight DMIACCESS ++ [{ tmsI := false }])) ++ threeWords.flatMap oneWord

/-- The status is right, and so is the answer that the last word fetches. -/
theorem operations_answered_threeWords :
    (emitted (next 1) (shifted .dr) (reset 1) threeWordCycles).map Prod.snd
        = bits ((0 : BitVec 7) ++ (0 : BitVec 32) ++ DMINoError)
          ++ (bits ((0x10 : BitVec 7) ++ (1 : BitVec 32) ++ DMINoError)
            ++ bits ((0x10 : BitVec 7) ++ (0xABCD : BitVec 32) ++ DMINoError)) ∧
      emitted (next 1) sent (reset 1) threeWordCycles = [⟨0x10, DTM_WRITE, 1⟩, ⟨0x10, DTM_READ, 0⟩] := by
  have hscans (x : BitVec WIDTH) (h : x ∈ threeWords.map Prod.fst) : Scans .dr x (straight x) := by
    simp only [threeWords, List.map_cons, List.map_nil, List.mem_cons, List.not_mem_nil,
      or_false] at h
    rcases h with rfl | rfl | rfl <;> exact ⟨by decide +kernel, by decide +kernel, by decide +kernel⟩
  have hserved (x : BitVec WIDTH) (answer : BitVec 32) : Served x answer (served answer) := fun _ =>
    ⟨[{ tmsI := false }], { tmsI := false, dmiReqReadyI := true }, [{ tmsI := false }],
      { tmsI := false, dmiRespValidI := true, dmiRespDataI := answer }, [], rfl, by decide, rfl,
      by decide, rfl, rfl⟩
  have hone {ops : List (BitVec WIDTH × BitVec 32)} {is : List Input} (x : BitVec WIDTH)
      (answer : BitVec 32) (h : x ∈ threeWords.map Prod.fst) (hrest : Operations ops is) :
      Operations ((x, answer) :: ops) (oneWord (x, answer) ++ is) := by
    have hscan := Operations.scan { tmsI := true } { tmsI := false } { tmsI := false } rfl rfl
      (hscans x h) (by simp [served]) (hserved x answer) hrest
    simpa [oneWord] using hscan
  have hops : Operations threeWords (threeWords.flatMap oneWord) :=
    hone _ _ (by decide) (hone _ _ (by decide) (hone _ _ (by decide) .nil))
  have hselects : Selects ([{ tmsI := true }, { tmsI := true }, { tmsI := false }]
      ++ (straight DMIACCESS ++ [{ tmsI := false }])) :=
    ⟨_, _, _, _, _, rfl, rfl, rfl, rfl, ⟨by decide +kernel, by decide +kernel, by decide +kernel⟩, rfl⟩
  exact operations_answered 1 hselects hops

end RiscDbgUart.DmiJtag
