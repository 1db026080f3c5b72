/-
  `tx_escape.sv`: takes one symbol at a time from the TAP, a data byte or a command, and offers the
  UART transmitter its bytes: a command as `ESC` followed by its byte, a data byte equal to `ESC`
  doubled, any other data byte as it is.

  There is no acknowledge from the transmitter: that a byte is through is read off the rising edge of
  `TX_READY_I` (`tx_done`).  In the first `always_ff` the assignments under `tx_done` come last and
  override the ones that load a symbol.

  What the module accepts is named by `takesCommand` and `takesData`, both of which need a free module; a
  command goes first where both are offered.  The register lemmas are by the two cases that follow
  from that: `next_free` while it holds nothing, `next_held` over a symbol.
-/
import RiscDbgUart.UartPkg

set_option linter.unusedVariables false

namespace RiscDbgUart.TxEscape

/-- The symbol that is being sent and how much of it is left (`send_esc`, `send_data`), the ready of the cycle
    before, and the outputs towards the transmitter. -/
structure State where
  dataBuffer : Byte
  sendEsc : Bool
  sendData : Bool
  bufferedTxReady : Bool
  dataSendO : Byte
  writeO : Bool
  escDetectedO : Bool
deriving DecidableEq, Repr, Inhabited

structure Input where
  txReadyI : Bool
  dataSendI : Byte
  writeI : Bool
  writeCommandI : Bool
  commandI : Byte

def reset : State :=
  { dataBuffer := 0, sendEsc := false, sendData := false, bufferedTxReady := false
    dataSendO := 0, writeO := false, escDetectedO := false }

/-- `tx_done`, the rising edge of the transmitter's ready. -/
def txDone (s : State) (txReadyI : Bool) : Bool := !s.bufferedTxReady && txReadyI

/-- `TX_READY_O` -/
def txReadyO (s : State) (txReadyI : Bool) : Bool := txReadyI && !s.sendEsc && !s.sendData

/-- What the first `always_ff` schedules before it looks at `tx_done`: a symbol is taken only when none is
    held, and it is remembered whether an escape byte has to go before it. -/
def load (esc : Byte) (s : State) (i : Input) : State :=
  if !s.sendData then
    -- a command goes before a data byte that is offered in the same cycle
    if i.writeCommandI then
      { s with dataBuffer := i.commandI, sendData := true, sendEsc := true }
    else if i.writeI then
      { s with
        dataBuffer := i.dataSendI
        sendData := true
        sendEsc := decide (i.dataSendI = esc) }
    else s
  else s

/-- The edge with `RST_NI` high, for the escape byte `esc`.  What is through is dropped, and what is left is
    offered in the next cycle in which the transmitter is ready. -/
def next (esc : Byte) (s : State) (i : Input) : State :=
  let r := { load esc s i with bufferedTxReady := i.txReadyI }
  let r :=
    if txDone s i.txReadyI then
      -- the escape byte goes first, so it is the first to be through
      if s.sendEsc then { r with sendEsc := false }
      else if s.sendData then { r with sendData := false }
      else r
    else r
  -- the second `always_ff`
  { r with
    writeO := i.txReadyI && !txDone s i.txReadyI && (s.sendEsc || s.sendData)
    dataSendO := if s.sendEsc then esc else s.dataBuffer
    escDetectedO := s.sendEsc }

/-! ## The symbols it accepts -/

/-- It is free in this cycle and is given a command. -/
def takesCommand (s : State) (i : Input) : Bool := !s.sendData && i.writeCommandI

/-- It is free in this cycle, is given no command, and is given a data byte. -/
def takesData (s : State) (i : Input) : Bool := !s.sendData && !i.writeCommandI && i.writeI

/-! ## The edge, register by register -/

variable (esc : Byte) (s : State) (i : Input)

theorem next_sendData : (next esc s i).sendData
    = if s.sendData then !(txDone s i.txReadyI && !s.sendEsc)
      else takesCommand s i || takesData s i := by
  simp only [next, load, apply_ite State.sendData]
  grind [takesCommand, takesData]

theorem next_sendEsc (h : s.sendEsc = true → s.sendData = true) : (next esc s i).sendEsc
    = if s.sendData then s.sendEsc && !txDone s i.txReadyI
      else takesCommand s i || (takesData s i && decide (i.dataSendI = esc)) := by
  simp only [next, load, apply_ite State.sendEsc]
  grind [takesCommand, takesData]

theorem next_dataBuffer : (next esc s i).dataBuffer
    = if takesCommand s i then i.commandI
      else if takesData s i then i.dataSendI
      else s.dataBuffer := by
  simp only [next, load, apply_ite State.dataBuffer]
  grind [takesCommand, takesData]

/-- The edge without a symbol. -/
theorem next_free (hd : s.sendData = false) (he : s.sendEsc = false) : next esc s i =
    { dataBuffer := if takesCommand s i then i.commandI else if takesData s i then i.dataSendI
        else s.dataBuffer
      sendEsc := takesCommand s i || (takesData s i && decide (i.dataSendI = esc))
      sendData := takesCommand s i || takesData s i
      bufferedTxReady := i.txReadyI
      dataSendO := s.dataBuffer
      writeO := false
      escDetectedO := false } := by
  simp only [next, load, takesCommand, takesData, hd, he]
  cases i.writeCommandI <;> cases i.writeI <;> simp [hd, he]

/-- The edge over a symbol. -/
theorem next_held (hd : s.sendData = true) : next esc s i =
    { s with
      sendEsc := s.sendEsc && !txDone s i.txReadyI
      sendData := !(txDone s i.txReadyI && !s.sendEsc)
      bufferedTxReady := i.txReadyI
      dataSendO := if s.sendEsc then esc else s.dataBuffer
      writeO := i.txReadyI && !txDone s i.txReadyI
      escDetectedO := s.sendEsc } := by
  simp only [next, load, hd]
  cases hdone : txDone s i.txReadyI <;> cases he : s.sendEsc <;> simp [hd, he]

/-- A byte on offer is offered again. -/
theorem next_offered (hd : s.sendData = true) (hb : s.bufferedTxReady = true)
    (hw : s.writeO = true) (ho : s.dataSendO = if s.sendEsc then esc else s.dataBuffer)
    (he : s.escDetectedO = s.sendEsc) (hr : i.txReadyI = true) : next esc s i = s := by
  rw [next_held esc s i hd, txDone, hb, hr, ← ho, ← he]
  obtain ⟨buffer, sendEsc, sendData, buffered, out, write, detected⟩ := s
  simp_all

end RiscDbgUart.TxEscape
