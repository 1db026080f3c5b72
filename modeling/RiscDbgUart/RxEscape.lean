/-
  `rx_escape.sv`: takes bytes from the receive FIFO, removes the escape bytes and shows the TAP one
  symbol at a time, marked as data or as command.

  `READ_O` goes to the FIFO and depends on the state and on `RX_EMPTY_I` only; towards the TAP the
  symbol and its mark are functions of the state.

  A symbol is complete when its last byte has been read from the FIFO, and it stays until the TAP reads
  it (`next_unread`).  Meanwhile the FIFO is not read, and neither is it in the cycle of the TAP's read.
  An escape byte completes nothing, and the state behind it shows nothing.
-/
import RiscDbgUart.UartPkg

set_option linter.unusedVariables false

namespace RiscDbgUart.RxEscape

inductive Fsm
  | idle
  | data
  | escape
  | command
deriving DecidableEq, Repr, Inhabited

/-- What the byte taken last is, and the byte. -/
structure State where
  state : Fsm
  data : Byte
deriving DecidableEq, Repr, Inhabited

structure Input where
  dataRecI : Byte
  rxEmptyI : Bool
  readI : Bool

def reset : State := { state := .idle, data := 0 }

/-- `READ_O` -/
def readO (s : State) (rxEmptyI : Bool) : Bool :=
  (s.state == .idle || s.state == .escape) && !rxEmptyI

/-- `RX_EMPTY_O` -/
def rxEmptyO (s : State) : Bool := !(s.state == .data || s.state == .command)

/-- `COMMAND_O` -/
def commandO (s : State) : Bool := s.state == .command

/-- A command symbol is a symbol. -/
theorem rxEmptyO_command {s : State} (h : commandO s = true) : rxEmptyO s = false := by
  rw [rxEmptyO, show (s.state == Fsm.command) = true from h, Bool.or_true]
  rfl

/-- The edge with `RST_NI` high, for the escape byte `esc`.  A byte is taken in `idle` and behind an escape;
    a symbol that is shown stays until it is read. -/
def next (esc : Byte) (s : State) (i : Input) : State :=
  match s.state with
  | .idle =>
    if !i.rxEmptyI then
      { state := if i.dataRecI = esc then .escape else .data, data := i.dataRecI }
    else s
  | .data => if i.readI then { s with state := .idle } else s
  | .escape =>
    if !i.rxEmptyI then
      { state := if i.dataRecI = esc then .data else .command, data := i.dataRecI }
    else s
  | .command => if i.readI then { s with state := .idle } else s

/-- While it shows a symbol, the byte register holds still whether or not the TAP reads it. -/
theorem next_data_keeps {esc : Byte} {s : State} {i : Input} (h : rxEmptyO s = false) :
    (next esc s i).data = s.data := by
  cases hs : s.state <;> simp [rxEmptyO, hs] at h <;> simp only [next, hs] <;> split <;> rfl

/-- A symbol that is not read stays, whatever comes behind it. -/
theorem next_unread {esc : Byte} {s : State} {i : Input} (h : rxEmptyO s = false)
    (hr : i.readI = false) : next esc s i = s := by
  cases hs : s.state <;> simp [rxEmptyO, hs] at h <;> simp [next, hs, hr]

/-- Without a byte from the FIFO and without a read nothing moves. -/
theorem next_silent {esc : Byte} {s : State} {i : Input} (h : i.rxEmptyI = true)
    (hr : i.readI = false) : next esc s i = s := by
  cases hs : s.state <;> simp [next, hs, h, hr]

/-- The byte after the escape byte is a command, or the escape byte itself as data. -/
theorem next_escaped {esc : Byte} {s : State} {i : Input} (hs : s.state = .escape)
    (h : i.rxEmptyI = false) :
    next esc s i = { state := if i.dataRecI = esc then .data else .command, data := i.dataRecI } := by
  simp [next, hs, h]

/-- Reading a symbol frees the slot: in the next cycle nothing is shown. -/
theorem next_read {esc : Byte} {s : State} {i : Input} (h : rxEmptyO s = false)
    (hr : i.readI = true) : (next esc s i).state = .idle := by
  cases hs : s.state <;> simp [rxEmptyO, hs] at h <;> simp [next, hs, hr]

end RiscDbgUart.RxEscape
