/-
  What becomes of the data symbols the TAP reads: `RX_Escape` and the TAP wired together.

  In write mode the TAP removes the data symbol at the head while `receive_enable` is high, and one
  cycle later the deserializer stores what `deser_run` says was at the head.  The two flags are
  derived from the same signals but not in the same way: `deser_run` is raised by a data symbol
  whether or not `receive_enable` is, and `receive_enable` is lowered only after `DONE_O` has been
  seen.  So a symbol that waits at the head while write mode is entered, or while a finished word is
  handed over, is stored and read again; and a symbol that follows the last byte of a word too
  closely is read and not stored.

  `roomy` is the condition that keeps the two together: while a data symbol is at the head in write
  mode, `receive_enable` is high exactly when the deserializer will have room in the next cycle.  A
  run stores, one cycle later, exactly the bytes it removes if and only if all its cycles are roomy.

  One cycle is enough to see both sides: `pops_eq` is what is removed in a cycle and `stores_eq` what is
  stored in the next one, each in terms of the registers before it.  `inFlight` is the byte between them,
  and `law_iff_roomy` says that it balances exactly in a roomy cycle.  `Inv` is what this needs of the
  registers in every reachable state, the bounds of the length among it.
-/
import RiscDbgUart.Clocked.Machine
import RiscDbgUart.DmiUartTap
import RiscDbgUart.RxEscape

set_option linter.unusedVariables false

namespace RiscDbgUart.RxTap

open Clocked

/-! ## The two modules wired together -/

/-- `RX_Escape` and the TAP. -/
structure State where
  rx : RxEscape.State
  tap : DmiUartTap.State
deriving DecidableEq, Repr, Inhabited

/-- The head of the receive FIFO and the pins of the TAP that `RX_Escape` does not drive. -/
structure Input where
  fifoDataI : Byte := 0
  fifoEmptyI : Bool := true
  tapI : DmiUartTap.Input := {}

/-- What the TAP sees. -/
def tapIn (s : State) (i : Input) : DmiUartTap.Input :=
  { i.tapI with
    dataRecI := s.rx.data
    rxEmptyI := RxEscape.rxEmptyO s.rx
    cmdRecI := RxEscape.commandO s.rx }

/-- What `RX_Escape` sees. -/
def rxIn (s : State) (i : Input) : RxEscape.Input :=
  { dataRecI := i.fifoDataI
    rxEmptyI := i.fifoEmptyI
    readI := DmiUartTap.readO s.tap (tapIn s i) }

def reset (s : State) : State := { rx := RxEscape.reset, tap := DmiUartTap.reset s.tap }

def next (esc : Byte) (s : State) (i : Input) : State :=
  { rx := RxEscape.next esc s.rx (rxIn s i), tap := DmiUartTap.next s.tap (tapIn s i) }

/-! ## The two event streams -/

/-- `CMD_WRITE` is the current write command. -/
def writeMode (s : State) : Bool := s.tap.wr.currentWriteCommand == CMD_WRITE

/-- A data symbol is at the head. -/
def dataAtHead (s : State) : Bool := s.rx.state == .data

/-- The data symbol the TAP removes from `RX_Escape` in write mode. -/
def pops (s : State) (i : Input) : List Byte :=
  if writeMode s && DmiUartTap.readO s.tap (tapIn s i) && dataAtHead s then [s.rx.data] else []

/-- The byte the deserializer stores in write mode. -/
def stores (s : State) (i : Input) : List Byte :=
  if writeMode s then
    RxDeserializer.stores s.tap.deser (DmiUartTap.deserIn s.tap (tapIn s i))
  else []

/-- The deserializer will be able to store a byte in the next cycle: it is not about to be restarted
    for the next word, and after this cycle's store there are bytes of the word left. -/
def room (s : State) (i : Input) : Bool :=
  !(s.tap.deser.doneO && i.tapI.writeReadyI) &&
    (s.tap.wr.deserReset ||
      decide (s.tap.deser.byteCount + (if s.tap.wr.deserRun then 8 else 0) < s.tap.wr.deserLength))

/-- In write mode, with a data symbol at the head, `receive_enable` agrees with `room`. -/
def roomy (s : State) (i : Input) : Bool :=
  !(DmiUartTap.writes s.tap && dataAtHead s) || s.tap.wr.receiveEnable == room s i

/-! ## What every reachable state satisfies -/

/-- The receive side is only enabled in write mode; a command that is being taken over by the write
    arbiter has left the head of the receive side empty. -/
structure Inv (s : State) : Prop where
  enable : s.tap.wr.receiveEnable = true → writeMode s = true
  taking : DmiUartTap.acceptsWrite s.tap = true → s.tap.wr.receiveEnable = true →
    s.rx.state = .idle
  length_ge : 8 ≤ s.tap.wr.deserLength
  length_le : s.tap.wr.deserLength ≤ 41

theorem inv_reset (s : State) : Inv (reset s) where
  enable h := by simp [reset, DmiUartTap.reset] at h
  taking _ h := by simp [reset, DmiUartTap.reset] at h
  length_ge := by simp [reset, DmiUartTap.reset, getWriteLength]
  length_le := by simp [reset, DmiUartTap.reset, getWriteLength]

/-- After a cycle in which the arbiter drives the deserializer, write mode is still on. -/
theorem writeMode_next (esc : Byte) {s : State} (i : Input)
    (h : DmiUartTap.writes s.tap = true) : writeMode (next esc s i) = true := by
  obtain ⟨hna, hcmd⟩ := (DmiUartTap.writes_iff _).mp h
  simp [writeMode, next, DmiUartTap.writeArbiter_command, hna, hcmd]

/-- The receive side is enabled by a cycle in which the arbiter drives the deserializer. -/
theorem writes_of_enable {esc : Byte} {s : State} {i : Input}
    (h : (next esc s i).tap.wr.receiveEnable = true) : DmiUartTap.writes s.tap = true := by
  have he : (DmiUartTap.writeArbiter s.tap (tapIn s i)).receiveEnable = true := h
  rw [DmiUartTap.writeArbiter_receiveEnable, Bool.and_eq_true] at he
  exact he.1

/-- The decoder offers the write arbiter a command for the first time only after the command has
    been removed from the head. -/
theorem taking_next {esc : Byte} {s : State} {i : Input}
    (ht : DmiUartTap.acceptsWrite (next esc s i).tap = true)
    (he : (next esc s i).tap.wr.receiveEnable = true) : (next esc s i).rx.state = .idle := by
  obtain ⟨hst, hcmd⟩ := (CommandDecoder.out_writeValid _).mp ht
  have hno := ((DmiUartTap.writes_iff _).mp (writes_of_enable he)).1
  by_cases hidle : s.tap.dec.state = .idle
  · -- the decoder has just latched the symbol at the head, which is thereby removed
    cases hr : DmiUartTap.readO s.tap (tapIn s i) && RxEscape.commandO s.rx
    · have hstay := CommandDecoder.next_idle_stays (i := DmiUartTap.decIn s.tap (tapIn s i)) hidle hr
      simp only [next, DmiUartTap.next_dec, hstay, hidle] at hst
      cases hst
    · rw [Bool.and_eq_true] at hr
      exact RxEscape.next_read (RxEscape.rxEmptyO_command hr.2) hr.1
  · -- a write-side command in handover has been offered in this cycle already
    exfalso
    obtain ⟨hc, -⟩ :=
      CommandDecoder.next_busy_keeps (i := DmiUartTap.decIn s.tap (tapIn s i)) hidle
    simp only [next, DmiUartTap.next_dec] at hst hcmd
    rw [hc] at hcmd
    have hh : s.tap.dec.state = .handover := CommandDecoder.handover_of_next hidle hst
    have hyes := (CommandDecoder.out_writeValid s.tap.dec).mpr ⟨hh, hcmd⟩
    rw [DmiUartTap.acceptsWrite, hyes] at hno
    cases hno

theorem inv_next (esc : Byte) (s : State) (i : Input) (h : Inv s) : Inv (next esc s i) where
  enable he := writeMode_next esc i (writes_of_enable he)
  taking := taking_next
  length_ge := by
    simp only [next, DmiUartTap.next_wr, DmiUartTap.writeArbiter_length]
    have := getWriteLength_bounds (CommandDecoder.out s.tap.dec).writeAddressO
    have := h.length_ge
    split <;> omega
  length_le := by
    simp only [next, DmiUartTap.next_wr, DmiUartTap.writeArbiter_length]
    have := getWriteLength_bounds (CommandDecoder.out s.tap.dec).writeAddressO
    have := h.length_le
    split <;> omega

/-! ## One cycle: what is removed, and what is stored one cycle later -/

/-- The byte the deserializer stores in this cycle, read off the registers.  It is the one that was at the
    head of the receive side in the cycle before. -/
def inFlight (s : State) : List Byte :=
  if writeMode s && !s.tap.wr.deserReset && s.tap.wr.deserRun &&
      decide (s.tap.deser.byteCount < s.tap.wr.deserLength) then [s.rx.data]
  else []

theorem stores_eq (s : State) (i : Input) : stores s i = inFlight s := by
  unfold stores inFlight
  cases writeMode s
  · rfl
  · rw [Bool.true_and]
    rfl

/-- What the TAP sees of a data symbol at the head. -/
theorem tapIn_data (s : State) (i : Input) :
    (!(tapIn s i).rxEmptyI && !(tapIn s i).cmdRecI) = dataAtHead s := by
  unfold tapIn RxEscape.rxEmptyO RxEscape.commandO dataAtHead
  cases s.rx.state <;> rfl

/-- A data symbol is read under `receive_enable`. -/
theorem readO_data {s : State} (i : Input) (h : dataAtHead s = true) :
    DmiUartTap.readO s.tap (tapIn s i) = s.tap.wr.receiveEnable := by
  rw [← tapIn_data s i, Bool.and_eq_true, Bool.not_eq_true', Bool.not_eq_true'] at h
  rw [DmiUartTap.readO, h.1, h.2, Bool.and_false, Bool.false_or]
  rfl

/-- Removing happens under `receive_enable`, with the arbiter driving the deserializer. -/
theorem pops_eq {s : State} (i : Input) (h : Inv s) : pops s i
    = if DmiUartTap.writes s.tap && dataAtHead s && s.tap.wr.receiveEnable then [s.rx.data]
      else [] := by
  cases hd : dataAtHead s
  · simp [pops, hd]
  rw [pops, readO_data i hd, hd, Bool.and_true, Bool.and_true]
  cases hen : s.tap.wr.receiveEnable
  · simp
  -- a command that is being taken over has left the head empty
  have hna : DmiUartTap.acceptsWrite s.tap = false := by
    cases ha : DmiUartTap.acceptsWrite s.tap
    · rfl
    · rw [dataAtHead, h.taking ha hen] at hd
      cases hd
  have hmode := h.enable hen
  have hw : DmiUartTap.writes s.tap = true := (DmiUartTap.writes_iff _).mpr ⟨hna, beq_iff_eq.mp hmode⟩
  rw [hmode, hw]

/-- `deser_run` says whether a data symbol was at the head. -/
theorem next_deserRun (esc : Byte) (s : State) (i : Input) :
    (next esc s i).tap.wr.deserRun = (DmiUartTap.writes s.tap && dataAtHead s) := by
  show (DmiUartTap.writeArbiter s.tap (tapIn s i)).deserRun = _
  rw [DmiUartTap.writeArbiter_deserRun, Bool.and_assoc, tapIn_data]

/-- The deserializer has room in the next cycle. -/
theorem room_next {esc : Byte} {s : State} {i : Input} (h : Inv s)
    (hw : DmiUartTap.writes s.tap = true) :
    (!(next esc s i).tap.wr.deserReset &&
      decide ((next esc s i).tap.deser.byteCount < (next esc s i).tap.wr.deserLength))
        = room s i := by
  have hna := ((DmiUartTap.writes_iff _).mp hw).1
  have hle := h.length_le
  have hge := h.length_ge
  have hreset : (next esc s i).tap.wr.deserReset = (s.tap.deser.doneO && i.tapI.writeReadyI) := by
    show (DmiUartTap.writeArbiter s.tap (tapIn s i)).deserReset = _
    rw [DmiUartTap.writeArbiter_deserReset, hw, Bool.true_and, Bool.not_not]
    rfl
  have hlen : (next esc s i).tap.wr.deserLength = s.tap.wr.deserLength := by
    show (DmiUartTap.writeArbiter s.tap (tapIn s i)).deserLength = _
    rw [DmiUartTap.writeArbiter_length, hna]
    rfl
  -- a byte of this cycle counts already; a reset starts again
  have hcount : (next esc s i).tap.deser.byteCount < s.tap.wr.deserLength ↔
      s.tap.wr.deserReset = true ∨
        s.tap.deser.byteCount + (if s.tap.wr.deserRun then 8 else 0) < s.tap.wr.deserLength := by
    show (RxDeserializer.next s.tap.deser (DmiUartTap.deserIn s.tap (tapIn s i))).byteCount < _ ↔ _
    rw [RxDeserializer.next_byteCount, clog2_maxBits]
    show (if s.tap.wr.deserReset then 0 else
      if s.tap.wr.deserRun && decide (s.tap.deser.byteCount < s.tap.wr.deserLength) then _
        else _) < _ ↔ _
    cases s.tap.wr.deserReset
    · cases s.tap.wr.deserRun
      · simp
      · simp
        split_ifs <;> omega
    · simp
      omega
  rw [hreset, hlen, room, decide_eq_decide.mpr hcount, Bool.decide_or, Bool.decide_eq_true]

/-- What the next cycle stores: the data symbol that is at the head now, if the arbiter drives the
    deserializer and there will be room. -/
theorem inFlight_next {esc : Byte} {s : State} {i : Input} (h : Inv s) : inFlight (next esc s i)
    = if DmiUartTap.writes s.tap && dataAtHead s && room s i then [s.rx.data] else [] := by
  rw [inFlight, next_deserRun]
  cases hon : DmiUartTap.writes s.tap && dataAtHead s
  · simp
  obtain ⟨hw, hd⟩ := Bool.and_eq_true_iff.mp hon
  have hkeep : (next esc s i).rx.data = s.rx.data := by
    refine RxEscape.next_data_keeps ?_
    rw [RxEscape.rxEmptyO, show (s.rx.state == RxEscape.Fsm.data) = true from hd]
    rfl
  rw [writeMode_next esc i hw, hkeep, ← room_next h hw, Bool.true_and, Bool.and_true, Bool.true_and]

/-- **The cycle law.**  A byte removed in this cycle is what the next cycle stores, exactly when the
    cycle is roomy.  The stored byte is one cycle behind, so both sides carry the byte that is on its way. -/
theorem law_iff_roomy (esc : Byte) {s : State} {i : Input} (h : Inv s) :
    inFlight s ++ pops s i = inFlight s ++ inFlight (next esc s i) ↔ roomy s i = true := by
  rw [List.append_cancel_left_eq, pops_eq i h, inFlight_next h]
  unfold roomy
  cases DmiUartTap.writes s.tap && dataAtHead s
  · simp
  · cases s.tap.wr.receiveEnable <;> cases room s i <;> simp

/-! ## Runs -/

/-- **No data byte lost or duplicated on the receive path — in roomy runs, and only there.**  For
    every run from reset: at every point of it the bytes stored, counting the cycle that follows
    whatever that cycle brings, are the bytes removed, in order and multiplicity, if and only if all
    cycles of the run are roomy. -/
theorem stores_eq_pops_iff_roomy (esc : Byte) (s₀ : State) (is : List Input) :
    (∀ pre j, pre <+: is →
      emitted (next esc) stores (reset s₀) (pre ++ [j])
        = emitted (next esc) pops (reset s₀) pre) ↔
    Always (next esc) (fun s i => roomy s i = true) (reset s₀) is := by
  have hempty : inFlight (reset s₀) = [] := by simp [inFlight, reset, DmiUartTap.reset]
  have hlaw := emitted_conserved_iff (fun s i => roomy s i = true) pops stores inFlight
    (inv_next esc) (fun s i hs => by rw [stores_eq]; exact law_iff_roomy esc hs) is (reset s₀)
    (inv_reset s₀)
  rw [← hlaw]
  -- the cycle that follows stores what is in flight, whatever it brings
  have hlast : ∀ pre j, emitted (next esc) stores (reset s₀) (pre ++ [j])
      = emitted (next esc) stores (reset s₀) pre ++ inFlight (run (next esc) (reset s₀) pre) := by
    intro pre j
    rw [emitted_append, emitted_cons, emitted_nil, stores_eq, List.append_nil]
  constructor
  · intro h pre hpre
    have hj := h pre {} hpre
    rw [hlast] at hj
    rw [hempty, List.nil_append, hj]
  · intro h pre j hpre
    have hp := h pre hpre
    rw [hempty, List.nil_append] at hp
    rw [hlast, hp]

/-! ## A word straight out of the FIFO -/

/-- The pins of `n` cycles when the FIFO holds `bytes` and `RX_Escape` takes them as it likes. -/
def fifoInputs (esc : Byte) : Nat → State → List Byte → List Input
  | 0, _, _ => []
  | n + 1, s, bytes =>
    let i : Input := { fifoDataI := bytes.headD 0, fifoEmptyI := bytes.isEmpty }
    let left := if RxEscape.readO s.rx i.fifoEmptyI then bytes.tail else bytes
    i :: fifoInputs esc n (next esc s i) left

/-- A write of seven data bytes to the DMI register, back to back. -/
def burst : List Input :=
  fifoInputs ESC 30 (reset default) ([ESC, symbolOf CMD_WRITE ADDR_DMI] ++ [1, 2, 3, 4, 5, 6, 7])

/-- The first byte waits at the head while write mode is entered and is stored twice, which leaves
    no room for the sixth. -/
theorem burst_first_byte_doubled :
    emitted (next ESC) stores (reset default) burst ≠ emitted (next ESC) pops (reset default) burst ∧
    emitted (next ESC) pops (reset default) burst = [1, 2, 3, 4, 5, 6] ∧
    emitted (next ESC) stores (reset default) burst = [1, 1, 2, 3, 4, 5] := by
  decide +kernel

end RiscDbgUart.RxTap
