/-
  `COMMAND_DECODER.sv`: latches a command symbol, offers it to the read arbiter, the write arbiter or
  both, and goes back to idle once neither arbiter acknowledges any more.

  Two things about the source's `always_comb`:

  * `BUSY_O` and the valids depend on the registers alone, so they are a function `out` of the state;
    the inputs only reach the next state.
  * `state_next`, `addr_next` and `cmd_next` are not assigned on every path, so they keep the value
    they settled at in the cycle before.  That value is exactly what the `FSM` block then loaded into
    `state`, `addr` and `cmd`, so "not assigned" is "the register keeps its value" and no separate
    latch has to be carried.
-/
import RiscDbgUart.UartPkg

set_option linter.unusedVariables false

namespace RiscDbgUart.CommandDecoder

inductive Fsm
  | idle
  | handover
  | waitAck
deriving DecidableEq, Repr, Inhabited

/-- The state of `FSM` and the command symbol it holds, split into its two fields. -/
structure State where
  state : Fsm
  addr : Addr
  cmd : Cmd
deriving DecidableEq, Repr, Inhabited

structure Input where
  readI : Bool
  cmdRecI : Bool
  dataRecI : Byte
  readArbiterReadyI : Bool
  writeArbiterReadyI : Bool

structure Output where
  busyO : Bool := false
  readArbiterValidO : Bool := false
  readCommandO : Cmd := CMD_NOP
  readAddressO : Addr := 0
  writeArbiterValidO : Bool := false
  writeCommandO : Cmd := CMD_NOP
  writeAddressO : Addr := 0

/-- The edge with `RST_NI` low. -/
def reset : State := { state := .idle, addr := 0, cmd := CMD_NOP }

/-- What `DECODER` drives in a cycle.  In `handover` the valid of the arbiter that the command is for is up,
    of both for a reset; in the other states nothing is offered. -/
def out (s : State) : Output :=
  match s.state with
  | .idle => {}
  | .handover =>
    if s.cmd = CMD_RESET then
      -- the one command for both arbiters; only the read side is told the address that came with it
      { busyO := true
        writeArbiterValidO := true, writeCommandO := CMD_RESET, writeAddressO := ADDR_IDCODE
        readArbiterValidO := true, readCommandO := CMD_RESET, readAddressO := s.addr }
    else if s.cmd = CMD_READ then
      { busyO := true
        readArbiterValidO := true, readCommandO := CMD_READ, readAddressO := s.addr }
    else if s.cmd = CMD_CONT_READ then
      { busyO := true
        readArbiterValidO := true, readCommandO := CMD_CONT_READ, readAddressO := s.addr }
    else if s.cmd = CMD_WRITE then
      { busyO := true
        writeArbiterValidO := true, writeCommandO := CMD_WRITE, writeAddressO := s.addr }
    else { busyO := true }
  | .waitAck => { busyO := true }

/-- The edge with `RST_NI` high.  A command symbol is latched when it is read; it is handed over until its
    arbiter acknowledges, and the decoder is free again when no arbiter acknowledges any more. -/
def next (s : State) (i : Input) : State :=
  match s.state with
  | .idle =>
    if i.readI && i.cmdRecI then
      { state := .handover, addr := addrOf i.dataRecI, cmd := cmdOf i.dataRecI }
    else s
  | .handover =>
    if s.cmd = CMD_RESET then
      -- both acknowledges are wanted in the same cycle
      if i.readArbiterReadyI && i.writeArbiterReadyI then { s with state := .waitAck } else s
    else if s.cmd = CMD_READ then
      if i.readArbiterReadyI then { s with state := .waitAck } else s
    else if s.cmd = CMD_CONT_READ then
      if i.readArbiterReadyI then { s with state := .waitAck } else s
    else if s.cmd = CMD_WRITE then
      if i.writeArbiterReadyI then { s with state := .waitAck } else s
    -- `CMD_NOP` and the codes that mean nothing go to no arbiter
    else { s with state := .idle }
  | .waitAck =>
    if !i.writeArbiterReadyI && !i.readArbiterReadyI then { s with state := .idle } else s

/-! ## What the arbiters may rely on -/

theorem out_busy (s : State) : (out s).busyO = decide (s.state ≠ .idle) := by
  unfold out
  cases s.state <;> simp
  split_ifs <;> rfl

/-- The read arbiter is only ever offered a reset or one of the two read commands. -/
theorem out_readValid (s : State) : (out s).readArbiterValidO = true ↔
    s.state = .handover ∧ (s.cmd = CMD_RESET ∨ s.cmd = CMD_READ ∨ s.cmd = CMD_CONT_READ) := by
  unfold out
  cases s.state <;> simp
  split_ifs <;> simp_all

/-- What it is offered is what was latched. -/
theorem out_read {s : State} (h : (out s).readArbiterValidO = true) :
    (out s).readCommandO = s.cmd ∧ (out s).readAddressO = s.addr := by
  have hv := (out_readValid s).mp h
  unfold out
  rw [hv.1]
  simp only
  split_ifs <;> simp_all

/-- The write arbiter is only ever offered a reset or a write. -/
theorem out_writeValid (s : State) : (out s).writeArbiterValidO = true ↔
    s.state = .handover ∧ (s.cmd = CMD_RESET ∨ s.cmd = CMD_WRITE) := by
  unfold out
  cases s.state <;> simp
  split_ifs <;> simp_all

/-- It too is offered the command that was latched. -/
theorem out_writeCommand {s : State} (h : (out s).writeArbiterValidO = true) :
    (out s).writeCommandO = s.cmd := by
  have hv := (out_writeValid s).mp h
  unfold out
  rw [hv.1]
  simp only
  split_ifs <;> simp_all

/-- A command symbol read while the decoder is idle is latched as it is. -/
theorem next_latch {s : State} {i : Input} (hs : s.state = .idle) (hr : i.readI = true)
    (hc : i.cmdRecI = true) :
    next s i = { state := .handover, addr := addrOf i.dataRecI, cmd := cmdOf i.dataRecI } := by
  simp [next, hs, hr, hc]

/-- The decoder leaves idle in no other way. -/
theorem next_idle_stays {s : State} {i : Input} (hs : s.state = .idle)
    (h : (i.readI && i.cmdRecI) = false) : next s i = s := by
  simp [next, hs, h]

/-- Outside idle the latched command and address do not change. -/
theorem next_busy_keeps {s : State} {i : Input} (hs : s.state ≠ .idle) :
    (next s i).cmd = s.cmd ∧ (next s i).addr = s.addr := by
  unfold next
  cases h : s.state
  · exact absurd h hs
  · simp only; split_ifs <;> exact ⟨rfl, rfl⟩
  · simp only; split_ifs <;> exact ⟨rfl, rfl⟩

/-- Handover is entered from idle only. -/
theorem handover_of_next {s : State} {i : Input} (hs : s.state ≠ .idle)
    (h : (next s i).state = .handover) : s.state = .handover := by
  cases hst : s.state
  · exact absurd hst hs
  · rfl
  · simp only [next, hst] at h
    split at h <;> simp_all

/-- Handover ends once every arbiter the command is offered to acknowledges it. -/
theorem next_acked {s : State} {i : Input} (hs : s.state ≠ .idle)
    (hr : (out s).readArbiterValidO = true → i.readArbiterReadyI = true)
    (hw : (out s).writeArbiterValidO = true → i.writeArbiterReadyI = true) :
    (next s i).state ≠ .handover := by
  cases hst : s.state
  · exact absurd hst hs
  · rw [out_readValid, hst] at hr
    rw [out_writeValid, hst] at hw
    simp only [next, hst]
    split_ifs <;> simp_all
  · simp only [next, hst]
    split_ifs <;> simp [hst]

/-- Once both acknowledges are gone the decoder is idle again. -/
theorem next_released {s : State} {i : Input} (hs : s.state = .waitAck)
    (hr : i.readArbiterReadyI = false) (hw : i.writeArbiterReadyI = false) :
    (next s i).state = .idle := by
  simp [next, hs, hr, hw]

end RiscDbgUart.CommandDecoder
