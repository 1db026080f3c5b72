/-
  The whole way of a DMI write: `RX_Escape`, the TAP, the write interconnect, `DMI_UART` and the debug
  module's end of the bus.

  Bytes that have reached `RX_Escape` and have not been read wait in a queue in front of it; the byte
  that arrives in a cycle is visible in that cycle.

  The last part prepares the timelines of `HostWrites`.  In a settled state the read side of the TAP is
  idle, and which values its registers hold does not matter to the write path: `forget` replaces them
  by fixed ones, and as long as nothing wakes the read side (`plain`) a cycle of the hardware is a
  cycle of what is left (`forget_next`).  What is left is small enough to be computed, `bareStep`, and
  `Sees` says that a state of the hardware looks like a given one of it.
-/
import RiscDbgUart.Clocked.Machine
import RiscDbgUart.RxEscape
import RiscDbgUart.WriteSide
import RiscDbgUart.DmCsrs

set_option linter.unusedVariables false

namespace RiscDbgUart.HostWrite

open DmiUartTap

/-- The bytes waiting for `RX_Escape`, the write side of the transport module, and the response queue of the
    debug module. -/
structure State where
  waiting : List Byte
  rx : RxEscape.State
  side : WriteSide.State
  dm : DmCsrs.State
deriving DecidableEq, Repr, Inhabited

/-- The byte that arrives in the cycle, if one does; the pins that nothing here drives (the
    transmitter's ready, the read side, the STB targets' readys); and the word the debug module
    answers with. -/
structure Input where
  arrival : Option Byte := none
  sideI : WriteSide.Input := {}
  respQueueData : BitVec 32 := 0

/-- The bytes `RX_Escape` can read in this cycle. -/
def available (s : State) (i : Input) : List Byte := s.waiting ++ i.arrival.toList

/-- What the write side sees. -/
def sideIn (s : State) (i : Input) : WriteSide.Input :=
  { i.sideI with
    tapI :=
      { i.sideI.tapI with
        dataRecI := s.rx.data
        rxEmptyI := RxEscape.rxEmptyO s.rx
        cmdRecI := RxEscape.commandO s.rx }
    dmiI :=
      { i.sideI.dmiI with
        dmiRespValidI := DmCsrs.dmiRespValidO s.dm
        dmiRespI := DmCsrs.dmiRespO s.dm
        dmiReqReadyI := DmCsrs.dmiReqReadyO s.dm } }

/-- What `RX_Escape` sees. -/
def rxIn (s : State) (i : Input) : RxEscape.Input :=
  { dataRecI := (available s i).headD 0
    rxEmptyI := (available s i).isEmpty
    readI := readO s.side.tap (WriteSide.tapIn s.side (sideIn s i)) }

/-- What the debug module sees. -/
def dmIn (s : State) (i : Input) : DmCsrs.Input :=
  { dmiReqValidI := s.side.dmi.dmiReqValidO
    dmiRespReadyI := s.side.dmi.dmiRespReadyO
    respQueueData := i.respQueueData }

def reset (s : State) : State :=
  { waiting := [], rx := RxEscape.reset, side := WriteSide.reset s.side, dm := DmCsrs.reset }

def next (esc : Byte) (s : State) (i : Input) : State :=
  { waiting :=
      if RxEscape.readO s.rx (available s i).isEmpty then (available s i).tail else available s i
    rx := RxEscape.next esc s.rx (rxIn s i)
    side := WriteSide.next s.side (sideIn s i)
    dm := DmCsrs.next s.dm (dmIn s i) }

/-- The request the debug module accepts in a cycle. -/
def accepted (s : State) (i : Input) : List DmiReq :=
  if DmCsrs.push s.dm (dmIn s i) then [s.side.dmi.request] else []

/-! ## Without the read side -/

/-- The bridge without the registers that only serve reads. -/
def forgetDmi (d : DmiUart.State) : DmiUart.State :=
  { d with dmiResp := 0, doRead := false, tapReadValidO := false }

/-- The same state with the read side at rest.  What is dropped is what the write path does not look at: the
    serializer with its arbiter, the read half of the bridge, and the contents of the responses. -/
def forget (s : State) : State :=
  { s with
    side :=
      { tap := { s.side.tap with ser := TxSerializer.reset, rd := (DmiUartTap.reset default).rd }
        dmi := forgetDmi s.side.dmi }
    dm := { respQueue := List.replicate s.dm.respQueue.length 0 } }

/-- The write path is on its own: the decoder offers the read arbiter nothing, and the write address
    names no STB target.  In such a cycle no ready from outside reaches it. -/
def plain (s : State) : Bool :=
  !(CommandDecoder.out s.side.tap.dec).readArbiterValidO &&
    (s.side.tap.wr.currentWriteAddress == ADDR_NOP || s.side.tap.wr.currentWriteAddress == ADDR_DMI)

/-- One cycle of the write path alone: the state after it and the requests accepted in it.  It is a function
    of the byte that arrives, and stops where the write path is not on its own. -/
def bareStep (esc : Byte) (s : State) (arrival : Option Byte) : Option (State × List DmiReq) :=
  if plain s then
    some (forget (next esc s { arrival := arrival }), accepted s { arrival := arrival })
  else none

/-- `s` is `b` as far as the write path can see, and the read arbiter acknowledges nothing.  This is the
    relation between a run of the whole and a timeline. -/
structure Sees (s b : State) : Prop where
  same : forget s = b
  ready : s.side.tap.rd.readArbiterReady = false

/-- At a plain write address the STB targets' readys do not reach the TAP. -/
theorem mux_plain {a : Addr} (h : a = ADDR_NOP ∨ a = ADDR_DMI) (w : BitVec WIDTH) (v : Bool)
    (r : WriteInterconnect.Ready) :
    WriteInterconnect.mux a w v r
      = WriteInterconnect.mux a w v { dmiWriteReadyI := r.dmiWriteReadyI } := by
  rcases h with rfl | rfl <;> rfl

/-- The bridge's write port and its bus do not depend on the registers that serve reads. -/
theorem forgetDmi_next (d : DmiUart.State) (i j : DmiUart.Input)
    (hv : i.tapWriteValidI = j.tapWriteValidI) (hd : i.tapWriteDataI = j.tapWriteDataI)
    (hr : i.dmiReqReadyI = j.dmiReqReadyI) :
    forgetDmi (DmiUart.next d i) = forgetDmi (DmiUart.next (forgetDmi d) j) := by
  unfold DmiUart.next forgetDmi
  rw [hv, hd, hr]
  simp only
  split_ifs <;> rfl

/-- Neither does the queue's filling depend on what is in it. -/
theorem forget_queue (q : DmCsrs.State) (i j : DmCsrs.Input)
    (hv : i.dmiReqValidI = j.dmiReqValidI) (hr : i.dmiRespReadyI = j.dmiRespReadyI) :
    (DmCsrs.next q i).respQueue.length
      = (DmCsrs.next { respQueue := List.replicate q.respQueue.length 0 } j).respQueue.length := by
  cases h : q.respQueue with
  | nil =>
    simp only [DmCsrs.next, DmCsrs.pop, DmCsrs.push, DmCsrs.dmiRespValidO, DmCsrs.dmiReqReadyO, h,
      hv, hr]
    simp
    split_ifs <;> rfl
  | cons x xs =>
    simp only [DmCsrs.next, DmCsrs.pop, DmCsrs.push, DmCsrs.dmiRespValidO, DmCsrs.dmiReqReadyO, h,
      hv, hr]
    simp [List.replicate_succ]
    split_ifs <;> simp

/-- What the interconnect drives at a plain address, seen with or without the read side. -/
theorem mux_forget {s : State} (i : Input) (h : plain s = true) :
    WriteSide.mux s.side (sideIn s i)
      = WriteSide.mux (forget s).side (sideIn (forget s) { arrival := i.arrival }) := by
  unfold plain at h
  rw [Bool.and_eq_true, Bool.or_eq_true, beq_iff_eq, beq_iff_eq] at h
  exact mux_plain h.2 _ _ _

theorem plain_forget (s : State) : plain (forget s) = plain s := rfl

/-- The write side of the TAP does not see the read side. -/
theorem tap_forget (esc : Byte) {s : State} (i : Input) (h : plain s = true)
    (hready : s.side.tap.rd.readArbiterReady = false) :
    (next esc s i).side.tap.dec
        = (next esc (forget s) { arrival := i.arrival }).side.tap.dec ∧
      (next esc s i).side.tap.deser
        = (next esc (forget s) { arrival := i.arrival }).side.tap.deser ∧
      (next esc s i).side.tap.wr
        = (next esc (forget s) { arrival := i.arrival }).side.tap.wr := by
  refine ⟨?_, rfl, ?_⟩
  · -- the decoder sees the read arbiter only by its ready
    show CommandDecoder.next s.side.tap.dec _ = CommandDecoder.next s.side.tap.dec _
    congr 1
    unfold decIn
    rw [hready]
    rfl
  · -- the write arbiter sees the interconnect only by its ready
    have hin : (WriteSide.tapIn s.side (sideIn s i)).writeReadyI
        = (WriteSide.tapIn (forget s).side
            (sideIn (forget s) { arrival := i.arrival })).writeReadyI := by
      show (WriteSide.mux s.side (sideIn s i)).writeReadyO = _
      rw [mux_forget i h]
      rfl
    show writeArbiter s.side.tap (WriteSide.tapIn s.side (sideIn s i))
      = writeArbiter (forget s).side.tap
          (WriteSide.tapIn (forget s).side (sideIn (forget s) { arrival := i.arrival }))
    unfold writeArbiter
    rw [hin]
    rfl

/-- **The write path is a slice.**  What it sees after a cycle is what it would see of a cycle from
    what it sees now. -/
theorem forget_next {esc : Byte} {s : State} (i : Input) (h : plain s = true)
    (hready : s.side.tap.rd.readArbiterReady = false) :
    forget (next esc s i) = forget (next esc (forget s) { arrival := i.arrival }) := by
  obtain ⟨hdec, hdeser, hwr⟩ := tap_forget esc i h hready
  -- the bridge: valid, data and the ready of the debug module are the same
  have hdmi : forgetDmi (next esc s i).side.dmi
      = forgetDmi (next esc (forget s) { arrival := i.arrival }).side.dmi := by
    refine forgetDmi_next s.side.dmi _ _ ?_ ?_ ?_
    · show (WriteSide.mux s.side (sideIn s i)).dmiWriteValidO = _
      rw [mux_forget i h]
      rfl
    · show (WriteSide.mux s.side (sideIn s i)).dmiWriteDataO = _
      rw [mux_forget i h]
      rfl
    · show DmCsrs.dmiReqReadyO s.dm = DmCsrs.dmiReqReadyO (forget s).dm
      simp [DmCsrs.dmiReqReadyO, forget]
  -- the queue: as long as before, as the answers are not looked at
  have hqueue : (next esc s i).dm.respQueue.length
      = (next esc (forget s) { arrival := i.arrival }).dm.respQueue.length :=
    forget_queue s.dm _ _ rfl rfl
  show State.mk _ _ ⟨⟨_, _, _, _, _⟩, _⟩ ⟨_⟩ = State.mk _ _ ⟨⟨_, _, _, _, _⟩, _⟩ ⟨_⟩
  rw [hdec, hdeser, hwr, hdmi, hqueue]
  rfl

/-- The requests accepted do not depend on the read side either. -/
theorem accepted_forget (s : State) (i : Input) :
    accepted s i = accepted (forget s) { arrival := i.arrival } := by
  unfold accepted DmCsrs.push DmCsrs.dmiReqReadyO dmIn forget
  rw [List.length_replicate]
  rfl

/-- The simulation: a cycle of the write path alone is a cycle of the whole. -/
theorem sees_next {esc : Byte} {s b b' : State} {i : Input} {reqs : List DmiReq} (h : Sees s b)
    (hstep : bareStep esc b i.arrival = some (b', reqs)) :
    Sees (next esc s i) b' ∧ accepted s i = reqs := by
  obtain ⟨hsame, hready⟩ := h
  unfold bareStep at hstep
  rw [← hsame, plain_forget] at hstep
  cases hp : plain s
  · rw [hp] at hstep
    cases hstep
  · rw [hp, if_pos rfl, Option.some.injEq, Prod.mk.injEq] at hstep
    obtain ⟨hnext, hreqs⟩ := hstep
    refine ⟨⟨?_, ?_⟩, ?_⟩
    · rw [forget_next i hp hready]
      exact hnext
    · -- the decoder offers the read arbiter nothing
      show (readArbiter s.side.tap _).readArbiterReady = false
      rw [readArbiter_ready, accepts]
      unfold plain at hp
      rw [Bool.and_eq_true, Bool.not_eq_true'] at hp
      rw [hp.1, Bool.and_false]
    · rw [accepted_forget]
      exact hreqs

end RiscDbgUart.HostWrite
