/-
  The whole way of a register read: command symbols, the TAP, the read interconnect, `DMI_UART`,
  `TX_Escape` and the transmitter.

  A read goes through a fixed sequence of phases.  The decoder offers the command, the arbiter accepts
  it (twice, and announces the address twice, but `TX_Escape` takes only the first header), the device
  is made ready and the serializer is started, its bytes go to `TX_Escape` one by one, and the
  serializer is reset.  `Phase` says what the registers hold in each, which symbols the TAP has still
  to send, and how many steps of its own it has still to make.

  The serializer and `TX_Escape` only meet when `TX_Escape` is free; while it has a symbol each of
  them goes on by itself, and what ties them together is the age of the symbol (`TxLink.stage`).

  How a read is followed:

  * `Transfer` is the serializer on its word, with the number of bytes it has handed over; `effort` counts
    the steps it has still to make, and every cycle in which it may move makes it less (`transfer_next`);
  * `Phase` lists what comes before and behind it, one constructor for a stretch of the arbiter's work;
  * `phase_next` is one cycle of it: the phase moves on or stays, the bytes owed become bytes sent, and
    the number of steps goes down when the transmitter is willing.

  What ties the word to the device is `Agrees`: the bytes that the serializer loads from the interconnect
  are those of the register, since the interconnect shows it as long as ready is up (`settle_open`).
-/
import RiscDbgUart.ReadAnswers
import RiscDbgUart.ReadSide
import RiscDbgUart.TxLink

set_option linter.unusedVariables false

namespace RiscDbgUart.HostRead

open Stuffing DmiUartTap

/-- The commands waiting for the TAP, the read side of the transport module, and `TX_Escape` with the
    transmitter. -/
structure State where
  waiting : List Addr
  side : DmiReadSide.State
  link : TxLink.State
deriving DecidableEq, Repr, Inhabited

/-- The address of the `CMD_READ` that arrives in the cycle, if one does; whether a busy transmitter
    gets ready; and the pins that nothing here drives: the STB devices, the write side, the bus of the
    debug module, and the receive side's data while it is empty. -/
structure Input where
  arrival : Option Addr := none
  wake : Bool := false
  sideI : DmiReadSide.Input := {}

/-- The commands the decoder can read in this cycle. -/
def available (s : State) (i : Input) : List Addr := s.waiting ++ i.arrival.toList

/-- What the TAP sees of the receive side and of `TX_Escape`.  A command that waits is shown as
    `RX_Escape` shows one, with `cmd_rec` up. -/
def tapPins (s : State) (i : Input) : DmiUartTap.Input :=
  { i.sideI.sideI.tapI with
    dataRecI := match available s i with
      | [] => i.sideI.sideI.tapI.dataRecI
      | a :: _ => symbolOf CMD_READ a
    rxEmptyI := (available s i).isEmpty
    cmdRecI := i.sideI.sideI.tapI.cmdRecI || !(available s i).isEmpty
    txReadyI := TxEscape.txReadyO s.link.tx s.link.ready }

/-- What the read side sees. -/
def sideIn (s : State) (i : Input) : DmiReadSide.Input :=
  { i.sideI with sideI := { i.sideI.sideI with tapI := tapPins s i } }

/-- What the TAP sees. -/
def tapIn (s : State) (i : Input) : DmiUartTap.Input := DmiReadSide.tapIn s.side (sideIn s i)

/-- What `TX_Escape` sees of the TAP. -/
def linkIn (s : State) (i : Input) : TxLink.Input :=
  { dataSendI := s.side.side.tap.ser.dataByteO
    writeI := s.side.side.tap.ser.writeO
    writeCommandI := s.side.side.tap.rd.sendCommand
    commandI := s.side.side.tap.rd.commandO
    wake := i.wake }

def next (esc : Byte) (s : State) (i : Input) : State :=
  { waiting :=
      if readO s.side.side.tap (tapIn s i) then (available s i).tail else available s i
    side := DmiReadSide.next s.side (sideIn s i)
    link := TxLink.next esc s.link (linkIn s i) }

/-- After a reset over silent devices, with the response `r` in the bridge.  The bridge's response register
    is the one thing that is left of an earlier operation. -/
def start (s : State) (r : BitVec 32) : State :=
  { waiting := []
    side :=
      { side := ReadSide.reset s.side.side {}, dmi := { DmiUart.reset with dmiResp := r } }
    link := TxLink.reset }

/-- The byte the transmitter takes in a cycle. -/
def wire (s : State) (i : Input) : List Byte := TxLink.wire s.link

/-! ## The answer -/

/-- No STB target is behind the address. -/
def Local (a : Addr) : Prop :=
  a ≠ ADDR_STB0_CS ∧ a ≠ ADDR_STB0_D ∧ a ≠ ADDR_STB1_CS ∧ a ≠ ADDR_STB1_D

instance (a : Addr) : Decidable (Local a) := inferInstanceAs (Decidable (_ ∧ _))

/-- The register behind an address, with the response `r` in the bridge.  The two constants are those of
    `uart_pkg`. -/
def registerOf (r : BitVec 32) (a : Addr) : BitVec WIDTH :=
  if a = ADDR_IDCODE then IDCODEVALUE.setWidth WIDTH
  else if a = ADDR_DTMCS then DTMCS_DEFAULT.setWidth WIDTH
  else if a = ADDR_DMI then (0 : BitVec 7) ++ r ++ (0 : BitVec 2)
  else 0

/-- The byte `k` of a register, padded with zeros. -/
def registerByte (r : BitVec 32) (a : Addr) (k : Nat) : Byte :=
  serialByte (registerOf r a) (getReadLength a) (8 * k)

/-- The bytes of a register from the byte `k` on, the lowest first. -/
def bytesFrom (r : BitVec 32) (a : Addr) (k : Nat) : List (Symbol Byte) :=
  (wordBytes a (registerOf r a) k).map .data

/-- The symbols that answer a read: the header and the bytes of the register. -/
def answer (r : BitVec 32) (a : Addr) : List (Symbol Byte) :=
  .command (headerOf a) :: bytesFrom r a 0

theorem bytesFrom_step (r : BitVec 32) (a : Addr) {k : Nat} (h : k < byteLength a) :
    bytesFrom r a k = .data (registerByte r a k) :: bytesFrom r a (k + 1) := by
  rw [bytesFrom, wordBytes_step _ h]
  rfl

theorem bytesFrom_end (r : BitVec 32) (a : Addr) : bytesFrom r a (byteLength a) = [] := by
  rw [bytesFrom, wordBytes_end _ le_rfl]
  rfl

/-! ## The word on the interconnect -/

/-- The STB devices have nothing to offer, and no word is on the bridge's write port.  A valid device would
    be followed on its own, and a word would begin an exchange. -/
structure Calm (i : Input) : Prop where
  stb0Status : i.sideI.sideI.devI.stb0StatusValidI = false
  stb0Data : i.sideI.sideI.devI.stb0DataValidI = false
  stb1Status : i.sideI.sideI.devI.stb1StatusValidI = false
  stb1Data : i.sideI.sideI.devI.stb1DataValidI = false
  write : i.sideI.dmiI.tapWriteValidI = false

instance (i : Input) : Decidable (Calm i) :=
  decidable_of_iff
    (i.sideI.sideI.devI.stb0StatusValidI = false ∧ i.sideI.sideI.devI.stb0DataValidI = false ∧
      i.sideI.sideI.devI.stb1StatusValidI = false ∧ i.sideI.sideI.devI.stb1DataValidI = false ∧
      i.sideI.dmiI.tapWriteValidI = false)
    ⟨fun ⟨h1, h2, h3, h4, h5⟩ => ⟨h1, h2, h3, h4, h5⟩,
      fun h => ⟨h.stb0Status, h.stb0Data, h.stb1Status, h.stb1Data, h.write⟩⟩

/-- The word agrees with the register in the bits that are sent. -/
def Agrees (r : BitVec 32) (a : Addr) (w : BitVec WIDTH) : Prop :=
  w.setWidth (getReadLength a) = (registerOf r a).setWidth (getReadLength a)

/-- The byte the serializer makes of a word that agrees with the register. -/
theorem serialByte_agrees {r : BitVec 32} {a : Addr} {w : BitVec WIDTH} (h : Agrees r a w)
    (k : Nat) : serialByte (w.setWidth MAX_BITS) (getReadLength a) (8 * k) = registerByte r a k :=
  serialByte_congr (le_trans (getReadLength_bounds a).2 (by decide)) h (8 * k)

/-- With ready high the local registers are on the interconnect, whatever the latches held. -/
theorem settle_open {r : BitVec 32} {a : Addr} (hlocal : Local a) (ic : ReadInterconnect.State)
    {d : ReadInterconnect.Devices} (hd : d.dmiReadDataI = (0 : BitVec 7) ++ r ++ (0 : BitVec 2)) :
    Agrees r a (ReadInterconnect.settle ic a true d).2 ∧
      (ReadInterconnect.settle ic a true d).1 = (a != ADDR_DMI || d.dmiReadValidI) := by
  obtain ⟨h1, h2, h3, h4⟩ := hlocal
  unfold Agrees ReadInterconnect.settle registerOf
  -- `DMI` brings its own word, the two constants are in the low half, any other address reads zero
  by_cases hdmi : a = ADDR_DMI
  · subst hdmi
    exact ⟨by rw [if_pos rfl, if_pos rfl, hd]; rfl, rfl⟩
  · have hne : (a != ADDR_DMI) = true := bne_iff_ne.mpr hdmi
    rw [if_pos rfl, if_neg hdmi, if_neg h1, if_neg h2, if_neg h3, if_neg h4, hne]
    by_cases hid : a = ADDR_IDCODE
    · subst hid
      refine ⟨?_, rfl⟩
      rw [if_pos rfl, if_pos rfl]
      exact ReadInterconnect.setLow32_low ic.readData IDCODEVALUE
    · by_cases hcs : a = ADDR_DTMCS
      · subst hcs
        refine ⟨?_, rfl⟩
        rw [if_neg hid, if_pos rfl, if_neg hid, if_pos rfl]
        exact ReadInterconnect.setLow32_low ic.readData DTMCS_DEFAULT
      · rw [if_neg hid, if_neg hcs, if_neg hid, if_neg hcs, if_neg hdmi]
        exact ⟨rfl, rfl⟩

/-! ## Registers after a cycle -/

abbrev State.tap (s : State) : DmiUartTap.State := s.side.side.tap
abbrev State.ic (s : State) : ReadInterconnect.State := s.side.side.ic
abbrev State.dmi (s : State) : DmiUart.State := s.side.dmi

variable {esc : Byte} {r : BitVec 32} {a : Addr} {s : State} {i : Input}

theorem next_tap : (next esc s i).tap = DmiUartTap.next s.tap (tapIn s i) := rfl

theorem next_link : (next esc s i).link = TxLink.next esc s.link (linkIn s i) := rfl

/-- The TAP may send when `TX_Escape` is free. -/
theorem txReady_free (h : TxLink.Regular esc s.link) :
    (tapIn s i).txReadyI = !s.link.tx.sendData := by
  show TxEscape.txReadyO s.link.tx s.link.ready = _
  rw [TxEscape.txReadyO]
  cases hd : s.link.tx.sendData
  · rw [(h.rest hd).1, (h.rest hd).2.1]; rfl
  · rw [Bool.not_true, Bool.and_false]

/-- What holds in every phase: nothing is waiting, the write side and the bridge are at rest, and
    the decoder knows only reads. -/
structure Fixed (esc : Byte) (r : BitVec 32) (s : State) : Prop where
  link : TxLink.Regular esc s.link
  waiting : s.waiting = []
  write : s.tap.wr.currentWriteCommand = CMD_NOP
  writeReady : s.tap.wr.writeArbiterReady = false
  cmd : s.tap.dec.state ≠ .idle → s.tap.dec.cmd = CMD_READ
  noRead : s.dmi.doRead = false
  noRequest : s.dmi.doRequest = false
  resp : s.dmi.dmiResp = r

/-- A bridge at rest stays at rest while no word is on its write port. -/
theorem bridge_rests {d : DmiUart.State} {j : DmiUart.Input} (hread : d.doRead = false)
    (hrequest : d.doRequest = false) (hwrite : j.tapWriteValidI = false) :
    (DmiUart.next d j).doRead = false ∧ (DmiUart.next d j).doRequest = false ∧
      (DmiUart.next d j).dmiResp = d.dmiResp := by
  unfold DmiUart.next
  rw [hread, hrequest, hwrite]
  cases d.doEnd <;> cases d.dmiRespReadyO <;> exact ⟨rfl, rfl, rfl⟩

/-- A command is read in the cycle in which it arrives, if the decoder is idle then, and is handed over in
    the next one. -/
theorem arrival_read {a : Addr} (h : Fixed esc r s) (hidle : s.tap.dec.state = .idle)
    (ha : i.arrival = some a) : readO s.tap (tapIn s i) = true ∧
      (next esc s i).tap.dec = { state := .handover, addr := a, cmd := CMD_READ } := by
  have hav : available s i = [a] := by rw [available, h.waiting, ha]; rfl
  have hbusy : (CommandDecoder.out s.tap.dec).busyO = false := by
    rw [CommandDecoder.out_busy, hidle]; rfl
  have hempty : (tapIn s i).rxEmptyI = false := by
    show (available s i).isEmpty = false
    rw [hav]; rfl
  have hcmd : (tapIn s i).cmdRecI = true := by
    show (i.sideI.sideI.tapI.cmdRecI || !(available s i).isEmpty) = true
    rw [hav]; exact Bool.or_true _
  have hdata : (tapIn s i).dataRecI = symbolOf CMD_READ a := by
    show (match available s i with
      | [] => i.sideI.sideI.tapI.dataRecI
      | a :: _ => symbolOf CMD_READ a) = _
    rw [hav]
  have hread : readO s.tap (tapIn s i) = true := by
    rw [readO, hempty, hbusy, hcmd]; rfl
  refine ⟨hread, ?_⟩
  rw [next_tap, DmiUartTap.next_dec, CommandDecoder.next_latch hidle hread hcmd]
  show CommandDecoder.State.mk _ (addrOf (tapIn s i).dataRecI) (cmdOf (tapIn s i).dataRecI) = _
  rw [hdata, addrOf_symbolOf, cmdOf_symbolOf]

/-- Without an arrival nothing is read, so the decoder gets nothing to decode. -/
theorem quiet_read (h : Fixed esc r s) (ha : i.arrival = none) :
    readO s.tap (tapIn s i) = false := by
  have hempty : (tapIn s i).rxEmptyI = true := by
    show (available s i).isEmpty = true
    rw [available, h.waiting, ha]; rfl
  rw [readO, hempty]
  rfl

/-- An idle decoder stays idle while nothing arrives. -/
theorem idle_dec (h : Fixed esc r s) (ha : i.arrival = none) (hdec : s.tap.dec.state = .idle) :
    (next esc s i).tap.dec.state = .idle := by
  have hstay : (next esc s i).tap.dec = s.tap.dec :=
    CommandDecoder.next_idle_stays hdec (by
      show (readO s.tap (tapIn s i) && _) = false
      rw [quiet_read h ha]; rfl)
  rw [hstay, hdec]

/-- No command is waiting for the write arbiter. -/
theorem Fixed.noWrite (h : Fixed esc r s) : acceptsWrite s.tap = false := by
  cases hw : acceptsWrite s.tap
  · rfl
  · obtain ⟨hstate, hcmd⟩ := (CommandDecoder.out_writeValid s.tap.dec).mp hw
    rw [h.cmd (by rw [hstate]; exact CommandDecoder.Fsm.noConfusion)] at hcmd
    rcases hcmd with hc | hc <;> cases hc

theorem fixed_next (h : Fixed esc r s) (hcalm : Calm i)
    (hidle : i.arrival ≠ none → s.tap.dec.state = .idle) : Fixed esc r (next esc s i) := by
  obtain ⟨hread, hrequest, hresp⟩ := bridge_rests (j := DmiReadSide.dmiIn s.side (sideIn s i))
    h.noRead h.noRequest hcalm.write
  exact {
    link := TxLink.regular_next _ h.link
    waiting := by
      show (if readO s.tap (tapIn s i) then (available s i).tail else available s i) = []
      -- the decoder pops what arrives, since it is idle when something does
      cases ha : i.arrival with
      | none => simp [available, h.waiting, ha]
      | some a =>
        have hne : i.arrival ≠ none := by rw [ha]; exact Option.some_ne_none a
        rw [(arrival_read h (hidle hne) ha).1, available, h.waiting, ha]
        rfl
    write := by
      rw [next_tap, DmiUartTap.next_wr, writeArbiter_command, h.noWrite, h.write]
      rfl
    writeReady := by
      rw [next_tap, DmiUartTap.next_wr, writeArbiter_ready, h.noWrite]
    cmd := by
      intro hne
      by_cases hdec : s.tap.dec.state = .idle
      · cases ha : i.arrival with
        | none => exact absurd (idle_dec h ha hdec) hne
        | some a => rw [(arrival_read h hdec ha).2]
      · rw [next_tap, DmiUartTap.next_dec, (CommandDecoder.next_busy_keeps hdec).1]
        exact h.cmd hdec
    noRead := hread
    noRequest := hrequest
    resp := hresp.trans h.resp }

/-- The bridge answers the TAP in the cycle after it was made ready. -/
theorem next_answer (h : Fixed esc r s) : (next esc s i).dmi.tapReadValidO
    = (s.tap.rd.readReadyO && s.tap.rd.currentReadAddress == ADDR_DMI) := by
  have hnext : (next esc s i).dmi.tapReadValidO
      = (!DmiUart.outstanding s.dmi && (ReadSide.ready s.side.side).dmiReadReadyO) :=
    DmiUart.next_tapReadValidO s.dmi _
  rw [hnext, DmiUart.outstanding, h.noRead, h.noRequest, ReadSide.ready, ReadInterconnect.ready]
  cases hr : s.tap.rd.readReadyO
  · rfl
  · by_cases ha : s.tap.rd.currentReadAddress = ADDR_DMI
    · rw [if_pos rfl, if_pos ha, ha]; rfl
    · rw [if_pos rfl, if_neg ha, beq_eq_false_iff_ne.mpr ha]
      split_ifs <;> rfl

/-- Of the devices only the bridge can have a valid. -/
theorem next_nobody (hcalm : Calm i) (h : s.dmi.tapReadValidO = false) :
    (next esc s i).ic.validAddressO = ADDR_NOP := by
  show ReadInterconnect.validAddress
    { i.sideI.sideI.devI with
      dmiReadValidI := s.dmi.tapReadValidO
      dmiReadDataI := DmiUart.tapReadDataO s.dmi } = _
  simp [ReadInterconnect.validAddress, h, hcalm.stb0Status, hcalm.stb0Data, hcalm.stb1Status,
    hcalm.stb1Data]

/-- The word the serializer sees, through the latch or past it, is the register's. -/
theorem word_seen (h : Fixed esc r s) (hlocal : Local a)
    (haddr : s.tap.rd.currentReadAddress = a)
    (hlatch : s.tap.rd.readReadyO = false → Agrees r a s.ic.readData) :
    Agrees r a (tapIn s i).readDataI := by
  show Agrees r a (ReadSide.settled s.side.side (DmiReadSide.devices s.side (sideIn s i))).2
  cases hr : s.tap.rd.readReadyO
  · rw [ReadSide.settled_closed _ hr]
    exact hlatch hr
  · rw [ReadSide.settled, haddr, hr]
    refine (settle_open hlocal _ ?_).1
    show DmiUart.tapReadDataO s.dmi = _
    rw [DmiUart.tapReadDataO, h.resp]

/-- The valid it sees with ready high: the two constants are always there, the bridge's word when the
    bridge says so. -/
theorem valid_seen (h : Fixed esc r s) (hlocal : Local a)
    (haddr : s.tap.rd.currentReadAddress = a) (hr : s.tap.rd.readReadyO = true) :
    (tapIn s i).readValidI = (a != ADDR_DMI || s.dmi.tapReadValidO) := by
  show (ReadSide.settled s.side.side (DmiReadSide.devices s.side (sideIn s i))).1 = _
  rw [ReadSide.settled, haddr, hr]
  refine (settle_open (r := r) hlocal _ ?_).2
  show DmiUart.tapReadDataO s.dmi = _
  rw [DmiUart.tapReadDataO, h.resp]

/-! ## The transfer of a register -/

/-- The read of `a` is current and `k` of its bytes have been counted.  The last three fields say what the
    serializer works on: it is started over an open latch, the word in the closed latch is the register's, and
    the byte on offer is a byte of it. -/
structure Transfer (r : BitVec 32) (a : Addr) (k : Nat) (s : State) : Prop where
  cmd : s.tap.rd.currentReadCommand = CMD_READ
  addr : s.tap.rd.currentReadAddress = a
  len : s.tap.rd.serLength = getReadLength a
  reset : s.tap.rd.serReset = false
  done : s.tap.ser.doneO = false
  count : s.tap.ser.count = 8 * k
  le : k ≤ byteLength a
  /-- The serializer is started only over an open latch. -/
  early : s.tap.ser.busyO = false →
    k = 0 ∧ s.tap.ser.writeO = false ∧ (s.tap.rd.serRun = true → s.tap.rd.readReadyO = true)
  word : s.tap.ser.busyO = true → s.tap.rd.readReadyO = false → Agrees r a s.ic.readData
  /-- `DATA_BYTE_O` lags behind the counter by one cycle, in which `TX_Escape` offers a byte. -/
  byte : s.tap.ser.busyO = true → TxLink.stage s.link ≠ .offering →
    s.tap.ser.dataByteO = registerByte r a k
  offer : s.tap.ser.writeO = true → s.tap.rd.readReadyO = false ∧ k < byteLength a ∧
    (s.link.tx.sendData = true → TxLink.stage s.link = .loaded)
  later : 0 < k → s.tap.rd.readReadyO = false ∧ s.dmi.tapReadValidO = false
  last : k = byteLength a → TxLink.stage s.link = .offering

/-- The bytes `TX_Escape` has not taken yet; one it has taken is counted a cycle later. -/
def toSend (r : BitVec 32) (a : Addr) (k : Nat) (s : State) : List (Symbol Byte) :=
  bytesFrom r a (if s.tap.ser.writeO && s.link.tx.sendData then k + 1 else k)

/-- The steps until the serializer is started.  A read of the bridge takes one more, for the valid that
    answers the ready. -/
def untilStart (a : Addr) (s : State) : Nat :=
  if s.tap.rd.serRun then 1
  else if s.tap.rd.readReadyO then (if a = ADDR_DMI ∧ s.dmi.tapReadValidO = false then 3 else 2)
  else 4

/-- The steps of the TAP until the transfer is over, not counting the cycles in which it waits for
    `TX_Escape`: three for each byte that is left, and the start and the end of the transfer. -/
def effort (a : Addr) (k : Nat) (s : State) : Nat :=
  if s.tap.ser.busyO then
    3 + 3 * (byteLength a - k)
      - (if s.tap.ser.writeO then (if s.link.tx.sendData then 2 else 1) else 0)
  else 3 + 3 * byteLength a + untilStart a s

/-- The data symbol `TX_Escape` takes in a cycle without an announcement: the byte on offer, when it is
    free. -/
theorem taken_data (hann : s.tap.rd.sendCommand = false ∨ s.link.tx.sendData = true) :
    TxLink.taken s.link (linkIn s i)
      = if s.tap.ser.writeO && !s.link.tx.sendData then [.data s.tap.ser.dataByteO] else [] := by
  unfold TxLink.taken TxEscape.takesCommand TxEscape.takesData TxLink.txIn linkIn
  rcases hann with h | h
  · rw [h]
    cases s.link.tx.sendData <;> cases s.tap.ser.writeO <;> rfl
  · rw [h]
    cases s.tap.ser.writeO <;> rfl

/-- The arbiter over a current read that is not done and not replaced. -/
theorem arbiter_reading {t : DmiUartTap.State} (j : DmiUartTap.Input)
    (hc : t.rd.currentReadCommand = CMD_READ) (hd : t.ser.doneO = false)
    (hacc : accepts t = false) :
    (readArbiter t j).currentReadCommand = CMD_READ ∧
      (readArbiter t j).currentReadAddress = t.rd.currentReadAddress ∧
      (readArbiter t j).serLength = t.rd.serLength ∧
      (readArbiter t j).serReset = false ∧
      (readArbiter t j).readReadyO = !t.ser.busyO ∧
      (readArbiter t j).serRun = j.readValidI ∧
      (readArbiter t j).sendCommand = false ∧ (readArbiter t j).readArbiterReady = false := by
  have hf := follows_reading j hc
  have hs : stays t j = false := by simp [stays, listens, hc]
  have hr : reading t = true := by simp [reading, hc]
  rw [readArbiter_command, readArbiter_address, readArbiter_length, readArbiter_serReset,
    readArbiter_readReady, readArbiter_serRun, readArbiter_sendCommand, readArbiter_ready, hacc, hf,
    hs, hr, hd, hc]
  simp

/-- The serializer is started in the cycle after `ser_run` has come up. -/
theorem waits_busy {k : Nat} (esc : Byte) (i : Input) (t : Transfer r a k s)
    (hb : s.tap.ser.busyO = false) :
    (next esc s i).tap.ser.busyO = s.tap.rd.serRun ∧ (next esc s i).tap.ser.writeO = false ∧
      (next esc s i).tap.ser.count = 0 := by
  have hrest : serving s.tap = false := by simp [serving, hb]
  obtain ⟨hcount, hwrite⟩ := next_count_rest (tapIn s i) hrest
  obtain ⟨rfl, -, -⟩ := t.early hb
  refine ⟨?_, hwrite, ?_⟩
  · rw [next_tap, next_busy, hrest, starts, t.done, t.reset, hb]
    simp
  · rw [next_tap, hcount, t.count, ite_self]

/-- Until then every cycle is a step towards it, whatever the transmitter does. -/
theorem effort_waits {k : Nat} (hfix : Fixed esc r s) (hlocal : Local a) (t : Transfer r a k s)
    (hacc : accepts s.tap = false) (hb : s.tap.ser.busyO = false) :
    effort a 0 (next esc s i) < effort a k s := by
  obtain ⟨-, -, -, -, hready, hserRun, -, -⟩ := arbiter_reading (tapIn s i) t.cmd t.done hacc
  obtain ⟨hbusy, hwrite, -⟩ := waits_busy esc i t hb
  rw [hb, Bool.not_false] at hready
  have hnext : effort a 0 (next esc s i) = if s.tap.rd.serRun then 3 + 3 * byteLength a
      else 3 + 3 * byteLength a + untilStart a (next esc s i) := by
    rw [effort, hbusy, hwrite]
    simp
  rw [hnext, effort, hb, if_neg Bool.false_ne_true]
  unfold untilStart
  cases hr : s.tap.rd.serRun
  · have hready' : (next esc s i).tap.rd.readReadyO = true := hready
    have hrun' : (next esc s i).tap.rd.serRun = (tapIn s i).readValidI := hserRun
    rw [hready', hrun', next_answer hfix]
    cases hopen : s.tap.rd.readReadyO
    · simp only [Bool.false_eq_true, if_false, if_true]
      split_ifs <;> omega
    · -- the latch is open: a register is valid at once, the bridge in the next cycle
      rw [valid_seen hfix hlocal t.addr hopen, t.addr]
      by_cases ha : a = ADDR_DMI
      · subst ha
        cases s.dmi.tapReadValidO <;> simp
      · rw [bne_iff_ne.mpr ha, Bool.true_or, if_neg Bool.false_ne_true, if_pos rfl,
          if_neg Bool.false_ne_true, if_pos rfl, if_neg (fun h => ha h.1)]
        omega
  · simp

/-- A transfer before its serializer is started is one with no byte counted yet. -/
theorem transfer_waits {k : Nat} (hfix : Fixed esc r s) (hlocal : Local a) (t : Transfer r a k s)
    (hacc : accepts s.tap = false) (hb : s.tap.ser.busyO = false) :
    Transfer r a 0 (next esc s i) := by
  obtain ⟨rfl, -, hrun⟩ := t.early hb
  obtain ⟨hcmd, haddr, hlen, hreset, hready, -, -, -⟩ :=
    arbiter_reading (tapIn s i) t.cmd t.done hacc
  obtain ⟨hbusy, hwrite, hcount⟩ := waits_busy esc i t hb
  rw [hb, Bool.not_false] at hready
  exact {
    cmd := hcmd
    addr := haddr.trans t.addr
    len := hlen.trans t.len
    reset := hreset
    done := by
      rw [next_tap, next_done, t.done, hb]
      simp
    count := hcount
    le := Nat.zero_le _
    early := fun _ => ⟨rfl, hwrite, fun _ => hready⟩
    word := fun _ hclosed => absurd (hready.symm.trans hclosed) Bool.noConfusion
    byte := by
      intro hstart _
      rw [hbusy] at hstart
      have hopen := hrun hstart
      rw [next_tap, next_dataByte _ t.reset, t.len, t.count]
      exact serialByte_agrees (word_seen hfix hlocal t.addr
        fun hclosed => absurd (hopen.symm.trans hclosed) Bool.noConfusion) 0
    offer := fun h => absurd (hwrite.symm.trans h) Bool.noConfusion
    later := fun h => absurd h (Nat.lt_irrefl 0)
    last := fun h => absurd h (Nat.ne_of_lt (byteLength_bounds a).1) }

/-- The byte `TX_Escape` has taken is counted. -/
def counted (s : State) : Bool := s.tap.ser.writeO && s.link.tx.sendData

/-- The serializer's registers over a byte that is left: it goes on offering it until it is taken. -/
theorem serving_next {k : Nat} (hfix : Fixed esc r s) (t : Transfer r a k s)
    (hb : s.tap.ser.busyO = true) (hk : k < byteLength a) :
    serving s.tap = true ∧ (next esc s i).tap.ser.busyO = true ∧
      (next esc s i).tap.ser.writeO = !s.link.tx.sendData ∧
      (next esc s i).tap.ser.count = 8 * (if counted s then k + 1 else k) := by
  have hlt : s.tap.ser.count < s.tap.rd.serLength := by
    rw [t.count, t.len]
    unfold byteLength at hk
    omega
  have hserve : serving s.tap = true := (serving_iff _).mpr ⟨hb, t.reset, hlt⟩
  refine ⟨hserve, ?_, ?_, ?_⟩
  · rw [next_tap, next_busy, hserve, Bool.or_true]
  · rw [next_tap, next_offer _ hserve, txReady_free hfix.link]
  · have hlen : s.tap.rd.serLength ≤ 41 := by
      rw [t.len]
      exact (getReadLength_bounds a).2
    rw [next_tap, next_count_serving _ hserve hlen, txReady_free hfix.link, Bool.not_not, t.count,
      ← counted]
    split <;> rfl

/-- A transfer with bytes left.  A byte is counted when `TX_Escape` has taken it, and the next one is then
    the one that the counter points at. -/
theorem transfer_serves {k : Nat} (hfix : Fixed esc r s) (hlocal : Local a) (t : Transfer r a k s)
    (hacc : accepts s.tap = false) (hb : s.tap.ser.busyO = true) (hk : k < byteLength a) :
    Transfer r a (if counted s then k + 1 else k) (next esc s i) := by
  obtain ⟨hcmd, haddr, hlen, hreset, hready, -, -, -⟩ :=
    arbiter_reading (tapIn s i) t.cmd t.done hacc
  obtain ⟨hserve, hbusy, hwrite, hcount⟩ := serving_next (i := i) hfix t hb hk
  rw [hb, Bool.not_true] at hready
  have hword := word_seen (i := i) hfix hlocal t.addr (t.word hb)
  -- the byte that is counted now is on offer next
  have hstage : counted s = true → TxLink.stage (next esc s i).link = .offering := by
    intro hc
    rw [counted, Bool.and_eq_true] at hc
    rw [next_link, TxLink.stage_next _ hfix.link, (t.offer hc.1).2.2 hc.2]
  exact {
    cmd := hcmd
    addr := haddr.trans t.addr
    len := hlen.trans t.len
    reset := hreset
    done := by
      rw [next_tap, next_done, t.done, hserve]
      simp
    count := hcount
    le := by split_ifs <;> omega
    early := fun hidle => absurd (hbusy.symm.trans hidle) Bool.noConfusion
    word := fun _ _ => hword
    byte := by
      intro _ hnot
      have hc : counted s = false := by
        cases hc : counted s
        · rfl
        · exact absurd (hstage hc) hnot
      rw [next_tap, next_dataByte _ t.reset, t.len, t.count, hc]
      exact serialByte_agrees hword k
    offer := by
      intro hw
      rw [hwrite, Bool.not_eq_true'] at hw
      have hc : counted s = false := by rw [counted, hw, Bool.and_false]
      rw [hc]
      refine ⟨hready, hk, fun hsend => ?_⟩
      have hsome := (TxLink.next_free (linkIn s i) hfix.link hw).2.2.1
      rw [← next_link, hsend, eq_comm, Bool.not_eq_true'] at hsome
      rw [next_link, TxLink.stage_next _ hfix.link, TxLink.stage_free.mpr hw]
      show (if (TxLink.taken s.link (linkIn s i)).isEmpty then _ else _) = _
      rw [hsome]
      rfl
    later := by
      intro hpos
      have hclosed : s.tap.rd.readReadyO = false := by
        cases hc : counted s
        · rw [hc] at hpos
          exact (t.later hpos).1
        · rw [counted, Bool.and_eq_true] at hc
          exact (t.offer hc.1).1
      exact ⟨hready, by rw [next_answer hfix, hclosed, Bool.false_and]⟩
    last := by
      intro hend
      cases hc : counted s
      · rw [hc, if_neg Bool.false_ne_true] at hend
        exact absurd hend (Nat.ne_of_lt hk)
      · exact hstage hc }

/-- What it sends and how much it has left to do.  Only while a symbol is on the link can a cycle be
    without progress, and then the link makes some. -/
theorem transfer_serves_sends {k : Nat} (hfix : Fixed esc r s) (t : Transfer r a k s)
    (hann : s.tap.rd.sendCommand = false ∨ s.link.tx.sendData = true)
    (hb : s.tap.ser.busyO = true) (hk : k < byteLength a) :
    toSend r a k s = TxLink.taken s.link (linkIn s i)
        ++ toSend r a (if counted s then k + 1 else k) (next esc s i) ∧
      (effort a (if counted s then k + 1 else k) (next esc s i) < effort a k s ∨
        (effort a (if counted s then k + 1 else k) (next esc s i) = effort a k s ∧
          s.link.tx.sendData = true)) := by
  obtain ⟨-, hbusy, hwrite, -⟩ := serving_next (i := i) hfix t hb hk
  have htaken := taken_data (i := i) hann
  unfold toSend effort
  rw [hbusy, hb, hwrite, htaken, counted]
  cases hd : s.link.tx.sendData
  · -- free: a byte on offer is taken
    have hnext : (next esc s i).link.tx.sendData = !(TxLink.taken s.link (linkIn s i)).isEmpty :=
      (TxLink.next_free (linkIn s i) hfix.link hd).2.2.1
    rw [hnext, htaken, hd]
    cases hw : s.tap.ser.writeO
    · refine ⟨rfl, Or.inl ?_⟩
      simp
    · have hbyte := t.byte hb (by
        rw [TxLink.stage_free.mpr hd]
        exact TxLink.Stage.noConfusion)
      rw [hbyte]
      refine ⟨bytesFrom_step r a hk, Or.inl ?_⟩
      simp
      omega
  · cases hw : s.tap.ser.writeO
    · exact ⟨rfl, Or.inr ⟨rfl, rfl⟩⟩
    · refine ⟨rfl, Or.inl ?_⟩
      simp
      omega

/-- A transfer that is not over goes on: the two cases before put together. -/
theorem transfer_next {k : Nat} (hfix : Fixed esc r s) (hlocal : Local a) (t : Transfer r a k s)
    (hacc : accepts s.tap = false) (hann : s.tap.rd.sendCommand = false ∨ s.link.tx.sendData = true)
    (hleft : s.tap.ser.busyO = true → k < byteLength a) :
    ∃ k', Transfer r a k' (next esc s i) ∧ (s.tap.ser.busyO = false → k' = 0) ∧
      toSend r a k s = TxLink.taken s.link (linkIn s i) ++ toSend r a k' (next esc s i) ∧
      (effort a k' (next esc s i) < effort a k s ∨
        (effort a k' (next esc s i) = effort a k s ∧ s.link.tx.sendData = true)) := by
  cases hb : s.tap.ser.busyO
  · obtain ⟨rfl, hw, -⟩ := t.early hb
    have hw' := (waits_busy esc i t hb).2.1
    refine ⟨0, transfer_waits hfix hlocal t hacc hb, fun _ => rfl, ?_,
      Or.inl (effort_waits hfix hlocal t hacc hb)⟩
    rw [taken_data hann, toSend, toSend, hw, hw']
    rfl
  · obtain ⟨hsends, heffort⟩ := transfer_serves_sends (i := i) hfix t hann hb (hleft hb)
    exact ⟨_, transfer_serves hfix hlocal t hacc hb (hleft hb), fun h => Bool.noConfusion h, hsends,
      heffort⟩

/-! ## Phases -/

/-- The serializer is at its first byte and nothing starts it; no device is ready or valid. -/
structure Idle (s : State) : Prop where
  busy : s.tap.ser.busyO = false
  done : s.tap.ser.doneO = false
  count : s.tap.ser.count = 0
  offer : s.tap.ser.writeO = false
  run : s.tap.rd.serRun = false
  ready : s.tap.rd.readReadyO = false
  silent : s.dmi.tapReadValidO = false
  nobody : s.ic.validAddressO = ADDR_NOP

/-- All bytes have been taken: DONE is up, and the devices are at rest. -/
structure Over (s : State) : Prop where
  dec : s.tap.dec.state = .idle
  send : s.tap.rd.sendCommand = false
  busy : s.tap.ser.busyO = false
  done : s.tap.ser.doneO = true
  offer : s.tap.ser.writeO = false
  ready : s.tap.rd.readReadyO = false
  silent : s.dmi.tapReadValidO = false
  nobody : s.ic.validAddressO = ADDR_NOP

/-- Where the read side stands, which symbols the TAP has still to send, and the steps it has still
    to make. -/
inductive Phase (r : BitVec 32) (s : State) : List (Symbol Byte) → Nat → Prop
  | rest (idle : Idle s) (dec : s.tap.dec.state = .idle)
      (cmd : s.tap.rd.currentReadCommand = CMD_NOP) (send : s.tap.rd.sendCommand = false)
      (ack : s.tap.rd.readArbiterReady = false) : Phase r s [] 0
  /-- The decoder offers the command. -/
  | offered (a : Addr) (hlocal : Local a) (idle : Idle s)
      (dec : s.tap.dec = { state := .handover, addr := a, cmd := CMD_READ })
      (cmd : s.tap.rd.currentReadCommand = CMD_NOP) (send : s.tap.rd.sendCommand = false)
      (ack : s.tap.rd.readArbiterReady = false) (reset : s.tap.rd.serReset = false)
      (free : s.link.tx.sendData = false) : Phase r s (answer r a) (8 + 3 * byteLength a)
  /-- The arbiter has accepted it and announces the address; the decoder offers it once more. -/
  | accepted (a : Addr) (hlocal : Local a) (idle : Idle s)
      (dec : s.tap.dec = { state := .handover, addr := a, cmd := CMD_READ })
      (cmd : s.tap.rd.currentReadCommand = CMD_READ) (addr : s.tap.rd.currentReadAddress = a)
      (send : s.tap.rd.sendCommand = true) (header : s.tap.rd.commandO = headerOf a)
      (ack : s.tap.rd.readArbiterReady = true) (reset : s.tap.rd.serReset = false)
      (free : s.link.tx.sendData = false) : Phase r s (answer r a) (7 + 3 * byteLength a)
  /-- The address is announced once more, over the first header. -/
  | again (a : Addr) (hlocal : Local a) (t : Transfer r a 0 s)
      (busy : s.tap.ser.busyO = false) (dec : s.tap.dec.state = .waitAck)
      (ack : s.tap.rd.readArbiterReady = true) (full : s.link.tx.sendData = true) :
      Phase r s (toSend r a 0 s) (effort a 0 s)
  /-- The decoder waits for the acknowledge to go away. -/
  | parting (a : Addr) (hlocal : Local a) (t : Transfer r a 0 s) (dec : s.tap.dec.state = .waitAck)
      (send : s.tap.rd.sendCommand = false) (ack : s.tap.rd.readArbiterReady = false) :
      Phase r s (toSend r a 0 s) (effort a 0 s)
  | sending (a : Addr) (k : Nat) (hlocal : Local a) (t : Transfer r a k s)
      (dec : s.tap.dec.state = .idle) (send : s.tap.rd.sendCommand = false)
      (ack : s.tap.rd.readArbiterReady = false) : Phase r s (toSend r a k s) (effort a k s)
  | finished (h : Over s) (cmd : s.tap.rd.currentReadCommand = CMD_READ)
      (reset : s.tap.rd.serReset = false) (gone : TxLink.stage s.link = .gone) : Phase r s [] 2
  | closing (h : Over s) (cmd : s.tap.rd.currentReadCommand = CMD_NOP)
      (run : s.tap.rd.serRun = false) (reset : s.tap.rd.serReset = true)
      (full : s.link.tx.sendData = true) : Phase r s [] 1

/-! ## One cycle -/

/-- The symbols the commands that arrive in a cycle ask for. -/
def asked (r : BitVec 32) (i : Input) : List (Symbol Byte) := i.arrival.toList.flatMap (answer r)

/-- A cycle takes the read side from a phase to a phase; the symbols asked for and the symbols taken
    account for the difference.  Without an arrival the steps left become fewer, unless there are none
    or the TAP waits for `TX_Escape`. -/
def Moves (esc : Byte) (r : BitVec 32) (s : State) (i : Input) (todo : List (Symbol Byte)) (m : Nat) :
    Prop :=
  ∃ todo' m', Phase r (next esc s i) todo' m' ∧
    todo ++ asked r i = TxLink.taken s.link (linkIn s i) ++ todo' ∧
    (i.arrival = none → m' < m ∨ (m' = m ∧ (s.link.tx.sendData = true ∨ m = 0)))

theorem asked_none (h : i.arrival = none) : asked r i = [] := by rw [asked, h]; rfl

/-- The decoder accepts nothing outside its handover. -/
theorem accepts_handover {t : DmiUartTap.State} (h : t.dec.state ≠ .handover) :
    accepts t = false := by
  cases ha : accepts t
  · rfl
  · rw [accepts, Bool.and_eq_true] at ha
    exact absurd ((CommandDecoder.out_readValid t.dec).mp ha.2).1 h

/-- With no command current and no device valid, the read side stays idle. -/
theorem idle_next (hfix : Fixed esc r s) (hcalm : Calm i) (h : Idle s)
    (hcmd : s.tap.rd.currentReadCommand = CMD_NOP) : Idle (next esc s i) := by
  have hstay : stays s.tap (tapIn s i) = false := by
    have hnone : (tapIn s i).validAddressI = ADDR_NOP := h.nobody
    simp [stays, hnone]
  have hread : reading s.tap = false := by simp [reading, hcmd]
  have hstart : starts s.tap = false := by simp [starts, h.run]
  have hserve : serving s.tap = false := by simp [serving, h.busy]
  obtain ⟨hcount, hwrite⟩ := next_count_rest (tapIn s i) hserve
  exact {
    busy := by rw [next_tap, next_busy, hstart, hserve]; rfl
    done := by rw [next_tap, next_done, h.done, h.busy]; simp
    count := by
      show (DmiUartTap.next s.tap (tapIn s i)).ser.count = 0
      rw [hcount, h.count, ite_self]
    offer := hwrite
    run := by
      rw [next_tap, DmiUartTap.next_rd, readArbiter_serRun, hread, hstay]; simp
    ready := by
      rw [next_tap, DmiUartTap.next_rd, readArbiter_readReady, hread, hstay]; simp
    silent := by rw [next_answer hfix, h.ready, Bool.false_and]
    nobody := next_nobody hcalm h.silent }

/-- Nothing is announced and no byte is on offer. -/
theorem taken_none (hs : s.tap.rd.sendCommand = false) (hw : s.tap.ser.writeO = false) :
    TxLink.taken s.link (linkIn s i) = [] := by
  rw [taken_data (Or.inl hs), hw]
  rfl

/-- The arbiter with no command current and no device valid takes what the decoder offers, and is quiet
    otherwise. -/
theorem arbiter_listening {t : DmiUartTap.State} (j : DmiUartTap.Input)
    (hc : t.rd.currentReadCommand = CMD_NOP) (hv : j.validAddressI = ADDR_NOP) :
    (readArbiter t j).sendCommand = accepts t ∧ (readArbiter t j).readArbiterReady = accepts t ∧
      (readArbiter t j).serReset = false ∧
      (readArbiter t j).currentReadCommand
        = if accepts t then (CommandDecoder.out t.dec).readCommandO else CMD_NOP := by
  have hf : follows t j = false := by simp [follows, hv]
  have hs : stays t j = false := by simp [stays, hv]
  have hr : reading t = false := by simp [reading, hc]
  rw [readArbiter_sendCommand, readArbiter_ready, readArbiter_serReset, readArbiter_command, hf, hs,
    hr, hc]
  simp

theorem rest_next (hfix : Fixed esc r s) (hcalm : Calm i) (idle : Idle s)
    (dec : s.tap.dec.state = .idle) (cmd : s.tap.rd.currentReadCommand = CMD_NOP)
    (send : s.tap.rd.sendCommand = false)
    (hlocal : ∀ a, i.arrival = some a → Local a)
    (hfree : i.arrival ≠ none → s.link.tx.sendData = false) : Moves esc r s i [] 0 := by
  have hidle := idle_next hfix hcalm idle cmd
  have hacc : accepts s.tap = false :=
    accepts_handover (by rw [dec]; exact CommandDecoder.Fsm.noConfusion)
  obtain ⟨hsend, hack, hreset, hcmd⟩ := arbiter_listening (tapIn s i) cmd idle.nobody
  rw [hacc] at hsend hack hcmd
  have htaken := taken_none (i := i) send idle.offer
  cases ha : i.arrival with
  -- nothing arrives: everything rests
  | none =>
    refine ⟨[], 0, Phase.rest hidle (idle_dec hfix ha dec) hcmd hsend hack, ?_, ?_⟩
    · rw [asked_none ha, htaken]
    · exact fun _ => Or.inr ⟨rfl, Or.inr rfl⟩
  -- a read command: the decoder hands it over in the next cycle
  | some a =>
    have hne : i.arrival ≠ none := by rw [ha]; exact Option.some_ne_none a
    have hfree' := (TxLink.next_free (linkIn s i) hfix.link (hfree hne)).2.2.1
    rw [htaken] at hfree'
    refine ⟨answer r a, 8 + 3 * byteLength a, Phase.offered a (hlocal a ha) hidle
      (arrival_read hfix dec ha).2 hcmd hsend hack hreset hfree', ?_, fun h => absurd h hne⟩
    rw [htaken, asked, ha]
    simp

/-- What a decoder with a read of `a` offers is accepted by an arbiter whose serializer is not busy. -/
theorem offered_accepts {t : DmiUartTap.State}
    (hdec : t.dec = { state := .handover, addr := a, cmd := CMD_READ })
    (hb : t.ser.busyO = false) : accepts t = true ∧
      (CommandDecoder.out t.dec).readCommandO = CMD_READ ∧
      (CommandDecoder.out t.dec).readAddressO = a := by
  rw [accepts, hb, hdec]
  exact ⟨rfl, rfl, rfl⟩

theorem offered_next (hfix : Fixed esc r s) (hcalm : Calm i) (hlocal : Local a) (idle : Idle s)
    (dec : s.tap.dec = { state := .handover, addr := a, cmd := CMD_READ })
    (cmd : s.tap.rd.currentReadCommand = CMD_NOP) (send : s.tap.rd.sendCommand = false)
    (ack : s.tap.rd.readArbiterReady = false) (free : s.link.tx.sendData = false)
    (hnone : i.arrival = none) : Moves esc r s i (answer r a) (8 + 3 * byteLength a) := by
  obtain ⟨hacc, hread, haddr⟩ := offered_accepts dec idle.busy
  obtain ⟨hsend, hack, hreset, hcmd⟩ := arbiter_listening (tapIn s i) cmd idle.nobody
  rw [hacc] at hsend hack hcmd
  rw [if_pos rfl, hread] at hcmd
  have htaken := taken_none (i := i) send idle.offer
  have hfree := (TxLink.next_free (linkIn s i) hfix.link free).2.2.1
  rw [htaken] at hfree
  -- nobody is served, so the arbiter takes the command and not a notification
  have hfollow : follows s.tap (tapIn s i) = false := by
    have hv : (tapIn s i).validAddressI = ADDR_NOP := idle.nobody
    simp [follows, hv]
  have haddr' : (readArbiter s.tap (tapIn s i)).currentReadAddress = a := by
    rw [readArbiter_address, hfollow, hacc]
    exact haddr
  refine ⟨answer r a, 7 + 3 * byteLength a, Phase.accepted a hlocal (idle_next hfix hcalm idle cmd)
    ?_ hcmd haddr' hsend ?_ hack hreset hfree, ?_, fun _ => Or.inl (by omega)⟩
  · rw [next_tap, DmiUartTap.next_dec, dec]
    simp [CommandDecoder.next, decIn, ack]
  · rw [next_tap, DmiUartTap.next_rd, readArbiter_commandO _ _ hsend, haddr']
  · rw [asked_none hnone, htaken, List.append_nil]
    rfl

/-- The read that is accepted once more is about to be transferred.  The handover takes two cycles, and in
    the second the arbiter has the command already. -/
theorem accepted_transfer (esc : Byte) (r : BitVec 32) (i : Input) (idle : Idle s)
    (dec : s.tap.dec = { state := .handover, addr := a, cmd := CMD_READ })
    (cmd : s.tap.rd.currentReadCommand = CMD_READ) :
    Transfer r a 0 (next esc s i) ∧ (next esc s i).tap.ser.busyO = false ∧
      (next esc s i).tap.rd.readReadyO = true ∧ (next esc s i).tap.ser.writeO = false := by
  obtain ⟨hacc, hread, haddr⟩ := offered_accepts dec idle.busy
  have hfollow := follows_reading (tapIn s i) cmd
  have hstart : starts s.tap = false := by simp [starts, idle.run]
  have hserve : serving s.tap = false := by simp [serving, idle.busy]
  obtain ⟨hcount, hwrite⟩ := next_count_rest (tapIn s i) hserve
  have hbusy : (next esc s i).tap.ser.busyO = false := by
    rw [next_tap, next_busy, hstart, hserve]
    rfl
  have hready : (next esc s i).tap.rd.readReadyO = true := by
    rw [next_tap, DmiUartTap.next_rd, readArbiter_readReady, reading, cmd, idle.done, idle.busy]
    rfl
  refine ⟨?_, hbusy, hready, hwrite⟩
  exact {
    cmd := by
      rw [next_tap, DmiUartTap.next_rd, readArbiter_command, cmd, idle.done, hacc, hread]
      simp
    addr := by
      rw [next_tap, DmiUartTap.next_rd, readArbiter_address, hfollow, hacc]
      exact haddr
    len := by
      rw [next_tap, DmiUartTap.next_rd, readArbiter_length, hfollow, hacc, haddr]
      rfl
    reset := by
      rw [next_tap, DmiUartTap.next_rd, readArbiter_serReset, cmd, idle.done]
      rfl
    done := by
      rw [next_tap, next_done, idle.done, idle.busy]
      simp
    count := by rw [next_tap, hcount, idle.count, ite_self]
    le := Nat.zero_le _
    early := fun _ => ⟨rfl, hwrite, fun _ => hready⟩
    word := fun h => absurd (hbusy.symm.trans h) Bool.noConfusion
    byte := fun h => absurd (hbusy.symm.trans h) Bool.noConfusion
    offer := fun h => absurd (hwrite.symm.trans h) Bool.noConfusion
    later := fun h => absurd h (Nat.lt_irrefl 0)
    last := fun h => absurd h (Nat.ne_of_lt (byteLength_bounds a).1) }

theorem accepted_next (hfix : Fixed esc r s) (hlocal : Local a) (idle : Idle s)
    (dec : s.tap.dec = { state := .handover, addr := a, cmd := CMD_READ })
    (cmd : s.tap.rd.currentReadCommand = CMD_READ)
    (send : s.tap.rd.sendCommand = true) (header : s.tap.rd.commandO = headerOf a)
    (ack : s.tap.rd.readArbiterReady = true) (reset : s.tap.rd.serReset = false)
    (free : s.link.tx.sendData = false) (hnone : i.arrival = none) :
    Moves esc r s i (answer r a) (7 + 3 * byteLength a) := by
  have hacc := (offered_accepts dec idle.busy).1
  obtain ⟨ht, hbusy, hready, hwrite⟩ := accepted_transfer esc r i idle dec cmd
  have htaken : TxLink.taken s.link (linkIn s i) = [.command (headerOf a)] := by
    unfold TxLink.taken TxEscape.takesCommand TxLink.txIn linkIn
    rw [free, send, header]
    rfl
  -- the header goes into the escape's buffer, which is free
  have hfull : (next esc s i).link.tx.sendData = true := by
    rw [next_link, (TxLink.next_free (linkIn s i) hfix.link free).2.2.1, htaken]
    rfl
  refine ⟨_, _, Phase.again a hlocal ht hbusy ?_ ?_ hfull, ?_, fun _ => Or.inl ?_⟩
  · rw [next_tap, DmiUartTap.next_dec, dec]
    simp [CommandDecoder.next, decIn, ack]
  · rw [next_tap, DmiUartTap.next_rd, readArbiter_ready, hacc]
  · rw [asked_none hnone, htaken, List.append_nil, toSend, hwrite]
    rfl
  · rw [effort, hbusy, untilStart, hready]
    simp only [Bool.false_eq_true, if_false, if_true]
    split_ifs <;> omega

theorem again_next (hfix : Fixed esc r s) (hlocal : Local a) (t : Transfer r a 0 s)
    (busy : s.tap.ser.busyO = false) (dec : s.tap.dec.state = .waitAck)
    (ack : s.tap.rd.readArbiterReady = true) (full : s.link.tx.sendData = true)
    (hnone : i.arrival = none) : Moves esc r s i (toSend r a 0 s) (effort a 0 s) := by
  have hacc : accepts s.tap = false :=
    accepts_handover (by rw [dec]; exact CommandDecoder.Fsm.noConfusion)
  obtain ⟨k', ht, hk, hsends, heffort⟩ := transfer_next (i := i) hfix hlocal t hacc (Or.inr full)
    (fun h => absurd (busy.symm.trans h) Bool.noConfusion)
  obtain ⟨-, -, -, -, -, -, hsend, hack⟩ := arbiter_reading (tapIn s i) t.cmd t.done hacc
  have hzero := hk busy
  subst hzero
  refine ⟨_, _, Phase.parting a hlocal ht ?_ hsend hack, ?_, fun _ => ?_⟩
  · rw [next_tap, DmiUartTap.next_dec]
    simp [CommandDecoder.next, decIn, ack, dec]
  · rw [asked_none hnone, List.append_nil, hsends]
  · rcases heffort with h | ⟨h, hd⟩
    · exact Or.inl h
    · exact Or.inr ⟨h, Or.inl hd⟩

/-- A transfer goes on under a decoder that is idle or about to be. -/
theorem sending_goes_on {k : Nat} (hfix : Fixed esc r s) (hlocal : Local a) (t : Transfer r a k s)
    (dec : s.tap.dec.state ≠ .handover) (dec' : (next esc s i).tap.dec.state = .idle)
    (send : s.tap.rd.sendCommand = false) (hnone : i.arrival = none)
    (hleft : s.tap.ser.busyO = true → k < byteLength a) :
    Moves esc r s i (toSend r a k s) (effort a k s) := by
  have hacc := accepts_handover dec
  obtain ⟨k', ht, -, hsends, heffort⟩ := transfer_next (i := i) hfix hlocal t hacc (Or.inl send) hleft
  obtain ⟨-, -, -, -, -, -, hsend, hack⟩ := arbiter_reading (tapIn s i) t.cmd t.done hacc
  refine ⟨_, _, Phase.sending a k' hlocal ht dec' hsend hack, ?_, fun _ => ?_⟩
  · rw [asked_none hnone, List.append_nil, hsends]
  · rcases heffort with h | ⟨h, hd⟩
    · exact Or.inl h
    · exact Or.inr ⟨h, Or.inl hd⟩

theorem parting_next (hfix : Fixed esc r s) (hlocal : Local a) (t : Transfer r a 0 s)
    (dec : s.tap.dec.state = .waitAck) (send : s.tap.rd.sendCommand = false)
    (ack : s.tap.rd.readArbiterReady = false) (hnone : i.arrival = none) :
    Moves esc r s i (toSend r a 0 s) (effort a 0 s) := by
  refine sending_goes_on hfix hlocal t (by rw [dec]; exact CommandDecoder.Fsm.noConfusion) ?_ send
    hnone (fun _ => (byteLength_bounds a).1)
  rw [next_tap, DmiUartTap.next_dec]
  simp [CommandDecoder.next, decIn, ack, dec, hfix.writeReady]

/-- The serializer sees that no byte is left, and the read is nearly over. -/
theorem sending_ends (hfix : Fixed esc r s) (hcalm : Calm i)
    (t : Transfer r a (byteLength a) s) (dec : s.tap.dec.state = .idle)
    (send : s.tap.rd.sendCommand = false) (hb : s.tap.ser.busyO = true) (hnone : i.arrival = none) :
    Moves esc r s i (toSend r a (byteLength a) s) (effort a (byteLength a) s) := by
  have hacc : accepts s.tap = false :=
    accepts_handover (by rw [dec]; exact CommandDecoder.Fsm.noConfusion)
  obtain ⟨hcmd, -, -, hreset, hready, -, hsend, -⟩ :=
    arbiter_reading (tapIn s i) t.cmd t.done hacc
  have hw : s.tap.ser.writeO = false := by
    cases hw : s.tap.ser.writeO
    · rfl
    · exact absurd (t.offer hw).2.1 (Nat.lt_irrefl _)
  -- all bytes are counted, so the serializer starts no other one and raises DONE instead
  have hserve : serving s.tap = false := by
    have hlt : ¬ s.tap.ser.count < s.tap.rd.serLength := by
      rw [t.count, t.len, byteLength]
      omega
    simp [serving, hlt]
  have hstart : starts s.tap = false := by simp [starts, hb]
  obtain ⟨hopen, hsilent⟩ := t.later (byteLength_bounds a).1
  rw [hb, Bool.not_true] at hready
  have hover : Over (next esc s i) := {
    dec := idle_dec hfix hnone dec
    send := hsend
    busy := by rw [next_tap, next_busy, hstart, hserve]; rfl
    done := by rw [next_tap, next_done, t.reset, hb, hserve]; simp
    offer := (next_count_rest (tapIn s i) hserve).2
    ready := hready
    silent := by rw [next_answer hfix, hopen, Bool.false_and]
    nobody := next_nobody hcalm hsilent }
  have hgone : TxLink.stage (next esc s i).link = .gone := by
    rw [next_link, TxLink.stage_next _ hfix.link, t.last rfl]
  refine ⟨[], 2, Phase.finished hover hcmd hreset hgone, ?_, fun _ => Or.inl ?_⟩
  · rw [asked_none hnone, taken_none send hw, toSend, hw, Bool.false_and,
      if_neg Bool.false_ne_true, bytesFrom_end]
  · rw [effort, hb, hw, Nat.sub_self, if_pos rfl, if_neg Bool.false_ne_true]
    decide

theorem sending_next {k : Nat} (hfix : Fixed esc r s) (hcalm : Calm i) (hlocal : Local a)
    (t : Transfer r a k s) (dec : s.tap.dec.state = .idle) (send : s.tap.rd.sendCommand = false)
    (hnone : i.arrival = none) : Moves esc r s i (toSend r a k s) (effort a k s) := by
  by_cases hend : s.tap.ser.busyO = true ∧ k = byteLength a
  · obtain ⟨hb, rfl⟩ := hend
    exact sending_ends hfix hcalm t dec send hb hnone
  · refine sending_goes_on hfix hlocal t (by rw [dec]; exact CommandDecoder.Fsm.noConfusion)
      (idle_dec hfix hnone dec) send hnone (fun hb => ?_)
    exact lt_of_le_of_ne t.le (fun hk => hend ⟨hb, hk⟩)

/-- DONE ends the read: the arbiter drops the command and asks for the reset of the serializer. -/
theorem finished_next (hfix : Fixed esc r s) (hcalm : Calm i) (h : Over s)
    (cmd : s.tap.rd.currentReadCommand = CMD_READ) (reset : s.tap.rd.serReset = false)
    (gone : TxLink.stage s.link = .gone) (hnone : i.arrival = none) : Moves esc r s i [] 2 := by
  have hacc : accepts s.tap = false :=
    accepts_handover (by rw [h.dec]; exact CommandDecoder.Fsm.noConfusion)
  have hfollow := follows_reading (tapIn s i) cmd
  have hserve : serving s.tap = false := by simp [serving, h.busy]
  have hstart : starts s.tap = false := by simp [starts, h.done]
  -- the arbiter sees DONE: the transfer is over, and its reset of the serializer comes with it
  have hover : Over (next esc s i) := {
    dec := idle_dec hfix hnone h.dec
    send := by rw [next_tap, DmiUartTap.next_rd, readArbiter_sendCommand, hfollow, hacc]; rfl
    busy := by rw [next_tap, next_busy, hstart, hserve]; rfl
    done := by rw [next_tap, next_done, reset, h.done]; rfl
    offer := (next_count_rest (tapIn s i) hserve).2
    ready := by rw [next_tap, DmiUartTap.next_rd, readArbiter_readReady, h.done]; rfl
    silent := by rw [next_answer hfix, h.ready, Bool.false_and]
    nobody := next_nobody hcalm h.silent }
  refine ⟨[], 1, Phase.closing hover ?_ ?_ ?_ ?_, ?_, fun _ => Or.inl (by decide)⟩
  · rw [next_tap, DmiUartTap.next_rd, readArbiter_command, if_pos (Or.inr ⟨cmd, h.done⟩)]
  · rw [next_tap, DmiUartTap.next_rd, readArbiter_serRun, h.done]; rfl
  · rw [next_tap, DmiUartTap.next_rd, readArbiter_serReset, h.done, reading, cmd]; rfl
  · cases hd : (next esc s i).link.tx.sendData
    · have hstage := TxLink.stage_next (linkIn s i) hfix.link
      rw [← next_link, TxLink.stage_free.mpr hd, gone] at hstage
      cases hwake : (linkIn s i).wake
      · rw [hwake] at hstage; cases hstage
      · rw [hwake] at hstage; cases hstage
    · rfl
  · rw [asked_none hnone, taken_none h.send h.offer]

/-- The serializer is reset, and everything is at rest again. -/
theorem closing_next (hfix : Fixed esc r s) (hcalm : Calm i) (h : Over s)
    (cmd : s.tap.rd.currentReadCommand = CMD_NOP) (run : s.tap.rd.serRun = false)
    (reset : s.tap.rd.serReset = true) (hnone : i.arrival = none) : Moves esc r s i [] 1 := by
  have hacc : accepts s.tap = false :=
    accepts_handover (by rw [h.dec]; exact CommandDecoder.Fsm.noConfusion)
  obtain ⟨hsend, hack, -, hcmd⟩ := arbiter_listening (tapIn s i) cmd h.nobody
  rw [hacc] at hsend hack hcmd
  have hserve : serving s.tap = false := by simp [serving, h.busy]
  have hstart : starts s.tap = false := by simp [starts, run]
  obtain ⟨hcount, hwrite⟩ := next_count_rest (tapIn s i) hserve
  have hidle : Idle (next esc s i) := {
    busy := by rw [next_tap, next_busy, hstart, hserve]; rfl
    done := by rw [next_tap, next_done, reset]; rfl
    count := by
      show (DmiUartTap.next s.tap (tapIn s i)).ser.count = 0
      rw [hcount, reset]
      rfl
    offer := hwrite
    run := by rw [next_tap, DmiUartTap.next_rd, readArbiter_serRun, h.done]; rfl
    ready := by rw [next_tap, DmiUartTap.next_rd, readArbiter_readReady, h.done]; rfl
    silent := by rw [next_answer hfix, h.ready, Bool.false_and]
    nobody := next_nobody hcalm h.silent }
  refine ⟨[], 0, Phase.rest hidle (idle_dec hfix hnone h.dec) hcmd hsend hack, ?_,
    fun _ => Or.inl (by decide)⟩
  rw [asked_none hnone, taken_none h.send h.offer]

/-- A transfer with nothing left to send is not over before `TX_Escape` has its last byte. -/
theorem transfer_sent {k : Nat} (t : Transfer r a k s) (hnil : toSend r a k s = []) :
    s.link.tx.sendData = true := by
  by_contra hfree
  rw [Bool.not_eq_true] at hfree
  rw [toSend, hfree, Bool.and_false, if_neg Bool.false_ne_true] at hnil
  rcases Nat.lt_or_eq_of_le t.le with hk | hk
  · rw [bytesFrom_step r a hk] at hnil
    cases hnil
  · have hoffer := t.last hk
    rw [TxLink.stage_free.mpr hfree] at hoffer
    cases hoffer

/-- With nothing left to send and `TX_Escape` free, the decoder is idle. -/
theorem phase_idle {todo : List (Symbol Byte)} {m : Nat} (h : Phase r s todo m) (hnil : todo = [])
    (hfree : s.link.tx.sendData = false) : s.tap.dec.state = .idle := by
  cases h with
  | rest idle dec => exact dec
  | offered a => cases hnil
  | accepted a => cases hnil
  | again a hl t => rw [transfer_sent t hnil] at hfree; cases hfree
  | parting a hl t => rw [transfer_sent t hnil] at hfree; cases hfree
  | sending a k hl t dec => exact dec
  | finished h => exact h.dec
  | closing h => exact h.dec

/-- **The step lemma.**  Every cycle goes from a phase to a phase; a command may arrive only while
    nothing is left to do and `TX_Escape` is free. -/
theorem phase_next {todo : List (Symbol Byte)} {m : Nat} (hfix : Fixed esc r s) (hcalm : Calm i)
    (h : Phase r s todo m) (hlocal : ∀ a, i.arrival = some a → Local a)
    (hquiet : i.arrival ≠ none → todo = [] ∧ s.link.tx.sendData = false) :
    Moves esc r s i todo m := by
  -- an arrival meets no transfer and no symbol
  have hnone (hno : todo = [] → s.link.tx.sendData = false → False) : i.arrival = none := by
    by_contra ha
    exact hno (hquiet ha).1 (hquiet ha).2
  cases h with
  | rest idle dec cmd send ack =>
    exact rest_next hfix hcalm idle dec cmd send hlocal (fun ha => (hquiet ha).2)
  | offered a hl idle dec cmd send ack reset free =>
    exact offered_next hfix hcalm hl idle dec cmd send ack free
      (hnone fun h _ => List.cons_ne_nil _ _ h)
  | accepted a hl idle dec cmd addr send header ack reset free =>
    exact accepted_next hfix hl idle dec cmd send header ack reset free
      (hnone fun h _ => List.cons_ne_nil _ _ h)
  | again a hl t busy dec ack full =>
    exact again_next hfix hl t busy dec ack full
      (hnone fun _ hfree => Bool.noConfusion (full.symm.trans hfree))
  | parting a hl t dec send ack =>
    exact parting_next hfix hl t dec send ack
      (hnone fun h hfree => Bool.noConfusion ((transfer_sent t h).symm.trans hfree))
  | sending a k hl t dec send ack =>
    exact sending_next hfix hcalm hl t dec send
      (hnone fun h hfree => Bool.noConfusion ((transfer_sent t h).symm.trans hfree))
  | finished h cmd reset gone =>
    exact finished_next hfix hcalm h cmd reset gone
      (hnone fun _ hfree => TxLink.Stage.noConfusion (gone.symm.trans (TxLink.stage_free.mpr hfree)))
  | closing h cmd run reset full =>
    exact closing_next hfix hcalm h cmd run reset
      (hnone fun _ hfree => Bool.noConfusion (full.symm.trans hfree))

end RiscDbgUart.HostRead
