/-
  `dmi_uart_tap.sv`: the UART test access port.

  Command symbols go through the decoder to two arbiters.  The write arbiter runs the deserializer
  over the data symbols that follow a `CMD_WRITE` and offers each finished word to the write
  interconnect; the read arbiter announces a register address with a command symbol of its own,
  raises ready towards the read interconnect and runs the serializer over the word it finds there.
  When no read command is pending it does the same for the address the interconnect reports a valid
  peripheral at.

  Each `always_ff` block is one function of the state before the edge.  `WRITE_ARBITER` and
  `READ_ARBITER` assign defaults first and override them later in the block; the record updates below
  are applied in that order, so the last one wins as in the source.

  `reset` is the edge with `RST_NI` low, `next` the edge with `RST_NI` high.  `ser_length` is the one
  register the reset branch does not assign, so it survives a reset with whatever it held.
-/
import RiscDbgUart.CommandDecoder
import RiscDbgUart.RxDeserializer
import RiscDbgUart.TxSerializer

set_option linter.unusedVariables false

namespace RiscDbgUart.DmiUartTap

/-- The registers of `WRITE_ARBITER`: the handshake with the decoder, the command under way, and what
    drives the deserializer. -/
structure WriteArbiter where
  writeArbiterReady : Bool
  currentWriteCommand : Cmd
  currentWriteAddress : Addr
  writeData : BitVec MAX_BITS
  deserReset : Bool
  deserRun : Bool
  deserLength : Nat
  receiveEnable : Bool
deriving DecidableEq, Repr, Inhabited

/-- The registers of `READ_ARBITER`: the command under way, the symbol that announces it, and what drives the
    serializer. -/
structure ReadArbiter where
  readArbiterReady : Bool
  currentReadAddress : Addr
  currentReadCommand : Cmd
  commandO : Byte
  sendCommand : Bool
  serRun : Bool
  serReset : Bool
  serLength : Nat
  readReadyO : Bool
deriving DecidableEq, Repr, Inhabited

/-- The decoder, the deserializer with its arbiter, and the serializer with its own. -/
structure State where
  dec : CommandDecoder.State
  deser : RxDeserializer.State MAX_BITS
  wr : WriteArbiter
  ser : TxSerializer.State
  rd : ReadArbiter
deriving DecidableEq, Repr, Inhabited

/-- The symbol at the head of `RX_Escape`, the ready of `TX_Escape`, and what the two interconnects show. -/
structure Input where
  dataRecI : Byte := 0
  rxEmptyI : Bool := true
  cmdRecI : Bool := false
  txReadyI : Bool := true
  writeReadyI : Bool := false
  readDataI : BitVec WIDTH := 0
  readValidI : Bool := false
  validAddressI : Addr := ADDR_NOP

/-! ## Combinational signals -/

/-- `rx_read`, driven to `READ_O`. -/
def readO (s : State) (i : Input) : Bool :=
  !i.rxEmptyI && ((!(CommandDecoder.out s.dec).busyO && i.cmdRecI) || s.wr.receiveEnable)

/-- `WRITE_VALID_O` -/
def writeValidO (s : State) : Bool := s.deser.doneO

/-- `WRITE_DATA_O` -/
def writeDataO (s : State) : BitVec WIDTH := s.wr.writeData.setWidth WIDTH

/-- The inputs of the decoder instance.  The symbol comes from `RX_Escape` and is read with `READ_O`. -/
def decIn (s : State) (i : Input) : CommandDecoder.Input :=
  { readI := readO s i
    cmdRecI := i.cmdRecI
    dataRecI := i.dataRecI
    readArbiterReadyI := s.rd.readArbiterReady
    writeArbiterReadyI := s.wr.writeArbiterReady }

/-- The inputs of the deserializer instance, which takes its bytes from `RX_Escape` directly. -/
def deserIn (s : State) (i : Input) : RxDeserializer.Input :=
  { rstI := s.wr.deserReset
    lengthI := s.wr.deserLength
    dataByteI := i.dataRecI
    runI := s.wr.deserRun }

/-- The inputs of the serializer instance; `{'0, READ_DATA_I}` extends the word with zeros. -/
def serIn (s : State) (i : Input) : TxSerializer.Input MAX_BITS :=
  { rstI := s.rd.serReset
    runI := s.rd.serRun
    readyI := i.txReadyI
    dataI := i.readDataI.setWidth MAX_BITS
    lengthI := s.rd.serLength }

/-! ## The arbiters -/

/-- The edge of `WRITE_ARBITER`.  A command from the decoder goes first and restarts the deserializer;
    otherwise the current command decides, and only `CMD_WRITE` lets bytes in. -/
def writeArbiter (s : State) (i : Input) : WriteArbiter :=
  let d := CommandDecoder.out s.dec
  let w := { s.wr with
    writeArbiterReady := false, deserReset := true, deserRun := false, receiveEnable := false }
  if d.writeArbiterValidO then
    -- a new command or address: the word that is being collected is dropped
    { w with
      deserReset := true
      writeArbiterReady := true
      writeData := 0
      currentWriteCommand := d.writeCommandO
      currentWriteAddress := d.writeAddressO
      deserLength := getWriteLength d.writeAddressO % 2 ^ clog2 MAX_BITS }
  else if s.wr.currentWriteCommand = CMD_RESET then
    { w with deserReset := true, currentWriteCommand := CMD_NOP, writeData := 0 }
  else if s.wr.currentWriteCommand = CMD_WRITE then
    -- the deserializer takes every received byte that is not a command
    let w := { w with
      deserReset := false
      receiveEnable := !s.deser.doneO
      deserRun := !i.rxEmptyI && !i.cmdRecI }
    if s.deser.doneO then
      -- the word stays in the deserializer until the target is ready
      let w := { w with writeData := s.deser.dataO }
      if i.writeReadyI then { w with deserReset := true } else w
    else w
  else w

/-- The arbiter's copy of a command it accepts from the decoder: address, command and length, with the
    notification for the host. -/
def acceptRead (d : CommandDecoder.Output) (r : ReadArbiter) : ReadArbiter :=
  { r with
    readArbiterReady := true
    commandO := headerOf d.readAddressO
    sendCommand := true
    currentReadAddress := d.readAddressO
    currentReadCommand := d.readCommandO
    serLength := getReadLength d.readAddressO % 2 ^ clog2 MAX_BITS }

/-- The edge of `READ_ARBITER`.  A command from the decoder is taken outside of a transfer; after that the
    command that was current BEFORE the edge decides what happens to address, serializer and ready. -/
def readArbiter (s : State) (i : Input) : ReadArbiter :=
  let d := CommandDecoder.out s.dec
  let r := { s.rd with
    commandO := 0, sendCommand := false, readArbiterReady := false
    serRun := false, serReset := false, readReadyO := false }
  -- address and command changes by the decoder, outside of a running transaction
  let r := if !s.ser.busyO && d.readArbiterValidO then acceptRead d r else r
  if s.rd.currentReadCommand = CMD_RESET then
    { r with serReset := true, currentReadCommand := CMD_NOP }
  else if s.rd.currentReadCommand = CMD_READ then
    -- any DONE ends the command, whatever transfer it comes from
    if !s.ser.doneO then { r with readReadyO := !s.ser.busyO, serRun := i.readValidI }
    else { r with serReset := true, currentReadCommand := CMD_NOP }
  else if s.rd.currentReadCommand = CMD_CONT_READ then
    if !s.ser.doneO then { r with readReadyO := !s.ser.busyO, serRun := i.readValidI }
    else { r with serReset := true }
  else if i.validAddressI ≠ ADDR_NOP then
    -- no command: act on valids on the interconnect
    if i.validAddressI ≠ s.rd.currentReadAddress then
      { r with
        currentReadAddress := i.validAddressI
        serLength := getReadLength i.validAddressI % 2 ^ clog2 MAX_BITS
        commandO := headerOf i.validAddressI
        sendCommand := true }
    -- `READ_VALID_I` is not looked at here
    else if !s.ser.doneO then { r with readReadyO := !s.ser.busyO, serRun := true }
    else { r with serReset := true }
  else r

/-! ## The module -/

/-- The edge with `RST_NI` low.  `ser_length` is not among the registers it assigns. -/
def reset (s : State) : State :=
  { dec := CommandDecoder.reset
    deser := RxDeserializer.reset
    wr :=
      { writeArbiterReady := false, currentWriteCommand := CMD_NOP, currentWriteAddress := 0
        writeData := 0, deserReset := true, deserRun := false
        deserLength := getWriteLength ADDR_IDCODE % 2 ^ clog2 MAX_BITS, receiveEnable := false }
    ser := TxSerializer.reset
    rd :=
      { readArbiterReady := false, currentReadAddress := ADDR_IDCODE, currentReadCommand := CMD_NOP
        commandO := 0, sendCommand := false, serRun := false, serReset := true
        serLength := s.rd.serLength, readReadyO := false } }

/-- The edge with `RST_NI` high, of all five blocks at once. -/
def next (s : State) (i : Input) : State :=
  { dec := CommandDecoder.next s.dec (decIn s i)
    deser := RxDeserializer.next s.deser (deserIn s i)
    wr := writeArbiter s i
    ser := TxSerializer.next s.ser (serIn s i)
    rd := readArbiter s i }

@[simp] theorem next_dec (s : State) (i : Input) :
    (next s i).dec = CommandDecoder.next s.dec (decIn s i) := rfl
@[simp] theorem next_deser (s : State) (i : Input) :
    (next s i).deser = RxDeserializer.next s.deser (deserIn s i) := rfl
@[simp] theorem next_wr (s : State) (i : Input) : (next s i).wr = writeArbiter s i := rfl
@[simp] theorem next_ser (s : State) (i : Input) :
    (next s i).ser = TxSerializer.next s.ser (serIn s i) := rfl
@[simp] theorem next_rd (s : State) (i : Input) : (next s i).rd = readArbiter s i := rfl

/-! ## What one edge of the read arbiter can do -/

/-- The read arbiter takes the decoder's command in this cycle. -/
def accepts (s : State) : Bool := !s.ser.busyO && (CommandDecoder.out s.dec).readArbiterValidO

/-- None of the three read-side commands is current, so the arbiter acts on the interconnect's
    valids. -/
def listens (s : State) : Bool :=
  s.rd.currentReadCommand != CMD_RESET && s.rd.currentReadCommand != CMD_READ &&
    s.rd.currentReadCommand != CMD_CONT_READ

/-- The arbiter follows a valid peripheral to another address. -/
def follows (s : State) (i : Input) : Bool :=
  listens s && i.validAddressI != ADDR_NOP && i.validAddressI != s.rd.currentReadAddress

/-- The arbiter serves a valid peripheral at the address it is already at. -/
def stays (s : State) (i : Input) : Bool :=
  listens s && i.validAddressI != ADDR_NOP && i.validAddressI == s.rd.currentReadAddress

/-- `CMD_READ` or `CMD_CONT_READ` is current. -/
def reading (s : State) : Bool :=
  s.rd.currentReadCommand == CMD_READ || s.rd.currentReadCommand == CMD_CONT_READ

variable (s : State) (i : Input)

theorem readArbiter_address : (readArbiter s i).currentReadAddress
    = if follows s i then i.validAddressI
      else if accepts s then (CommandDecoder.out s.dec).readAddressO
      else s.rd.currentReadAddress := by
  simp only [readArbiter, acceptRead, apply_ite ReadArbiter.currentReadAddress, ite_self]
  grind [follows, accepts, listens]

theorem readArbiter_length : (readArbiter s i).serLength
    = if follows s i then getReadLength i.validAddressI
      else if accepts s then getReadLength (CommandDecoder.out s.dec).readAddressO
      else s.rd.serLength := by
  simp only [readArbiter, acceptRead, apply_ite ReadArbiter.serLength, ite_self, clog2_maxBits,
    getReadLength_mod]
  grind [follows, accepts, listens]

theorem readArbiter_sendCommand : (readArbiter s i).sendCommand = (follows s i || accepts s) := by
  simp only [readArbiter, acceptRead, apply_ite ReadArbiter.sendCommand, ite_self]
  grind [follows, accepts, listens]

theorem readArbiter_commandO (h : (readArbiter s i).sendCommand = true) :
    (readArbiter s i).commandO = headerOf (readArbiter s i).currentReadAddress := by
  rw [readArbiter_sendCommand] at h
  rw [readArbiter_address]
  simp only [readArbiter, acceptRead, apply_ite ReadArbiter.commandO, ite_self]
  grind [follows, accepts, listens]

theorem readArbiter_command : (readArbiter s i).currentReadCommand
    = if s.rd.currentReadCommand = CMD_RESET ∨
          (s.rd.currentReadCommand = CMD_READ ∧ s.ser.doneO = true) then CMD_NOP
      else if accepts s then (CommandDecoder.out s.dec).readCommandO
      else s.rd.currentReadCommand := by
  simp only [readArbiter, acceptRead, apply_ite ReadArbiter.currentReadCommand, ite_self]
  grind [accepts]

theorem readArbiter_ready : (readArbiter s i).readArbiterReady = accepts s := by
  simp only [readArbiter, acceptRead, apply_ite ReadArbiter.readArbiterReady, ite_self]
  grind [accepts]

theorem readArbiter_serRun : (readArbiter s i).serRun
    = (!s.ser.doneO && ((reading s && i.readValidI) || stays s i)) := by
  simp only [readArbiter, acceptRead, apply_ite ReadArbiter.serRun, ite_self]
  grind [reading, stays, listens]

theorem readArbiter_serReset : (readArbiter s i).serReset
    = (s.rd.currentReadCommand == CMD_RESET || (s.ser.doneO && (reading s || stays s i))) := by
  simp only [readArbiter, acceptRead, apply_ite ReadArbiter.serReset, ite_self]
  grind [reading, stays, listens]

theorem readArbiter_readReady : (readArbiter s i).readReadyO
    = (!s.ser.doneO && !s.ser.busyO && (reading s || stays s i)) := by
  simp only [readArbiter, acceptRead, apply_ite ReadArbiter.readReadyO, ite_self]
  grind [reading, stays, listens]

/-! ## What one edge of the write arbiter can do -/

/-- The write arbiter takes the decoder's command in this cycle. -/
def acceptsWrite : Bool := (CommandDecoder.out s.dec).writeArbiterValidO

/-- The write arbiter drives the deserializer in this cycle. -/
def writes : Bool := !acceptsWrite s && s.wr.currentWriteCommand == CMD_WRITE

theorem writes_iff : writes s = true ↔
    acceptsWrite s = false ∧ s.wr.currentWriteCommand = CMD_WRITE := by
  rw [writes, Bool.and_eq_true, Bool.not_eq_true', beq_iff_eq]

theorem writeArbiter_command : (writeArbiter s i).currentWriteCommand
    = if acceptsWrite s then (CommandDecoder.out s.dec).writeCommandO
      else if s.wr.currentWriteCommand = CMD_RESET then CMD_NOP
      else s.wr.currentWriteCommand := by
  simp only [writeArbiter, apply_ite WriteArbiter.currentWriteCommand, ite_self]
  grind [acceptsWrite]

theorem writeArbiter_address : (writeArbiter s i).currentWriteAddress
    = if acceptsWrite s then (CommandDecoder.out s.dec).writeAddressO
      else s.wr.currentWriteAddress := by
  simp only [writeArbiter, apply_ite WriteArbiter.currentWriteAddress, ite_self]
  grind [acceptsWrite]

theorem writeArbiter_length : (writeArbiter s i).deserLength
    = if acceptsWrite s then getWriteLength (CommandDecoder.out s.dec).writeAddressO
      else s.wr.deserLength := by
  simp only [writeArbiter, apply_ite WriteArbiter.deserLength, ite_self, clog2_maxBits,
    getWriteLength_mod]
  grind [acceptsWrite]

theorem writeArbiter_ready : (writeArbiter s i).writeArbiterReady = acceptsWrite s := by
  simp only [writeArbiter, apply_ite WriteArbiter.writeArbiterReady, ite_self]
  grind [acceptsWrite]

theorem writeArbiter_deserReset : (writeArbiter s i).deserReset
    = !(writes s && !(s.deser.doneO && i.writeReadyI)) := by
  simp only [writeArbiter, apply_ite WriteArbiter.deserReset]
  grind [acceptsWrite, writes]

theorem writeArbiter_deserRun : (writeArbiter s i).deserRun
    = (writes s && !i.rxEmptyI && !i.cmdRecI) := by
  simp only [writeArbiter, apply_ite WriteArbiter.deserRun, ite_self]
  grind [acceptsWrite, writes]

theorem writeArbiter_receiveEnable : (writeArbiter s i).receiveEnable
    = (writes s && !s.deser.doneO) := by
  simp only [writeArbiter, apply_ite WriteArbiter.receiveEnable, ite_self]
  grind [acceptsWrite, writes]

theorem writeArbiter_writeData : (writeArbiter s i).writeData
    = if acceptsWrite s ∨ s.wr.currentWriteCommand = CMD_RESET then 0
      else if s.wr.currentWriteCommand = CMD_WRITE ∧ s.deser.doneO then s.deser.dataO
      else s.wr.writeData := by
  simp only [writeArbiter, apply_ite WriteArbiter.writeData, ite_self]
  grind [acceptsWrite]

end RiscDbgUart.DmiUartTap
