/-
  From the serial line to the serial line: a register read in the whole system.

  The read path was looked at from the command symbol to the bytes that the transmitter takes
  (`HostReads`), over a write side at rest since its reset and with a transmitter that is busy for as
  long as it likes.  In the system the write side has had its words and is listening for more, and the
  transmitter is `UART_TX`.  So there are two things to show.  The read side does not see what the write
  side holds (`readView_next`), and it leaves it alone (`writeRest_next`); and a transmitter of its own
  sends a byte in eleven bit times, so that the patience of `HostReads` is a number of cycles.

  The module goes through what separates the two:

  * `within_run`      — the transmitter is busy for one frame time for each byte it takes;
  * `next_silenced`   — the read side of the TAP with the write side silenced steps like the TAP;
  * `readView_next`   — so the read path in the system steps like the one of `HostReads`;
  * `writeRest_next`  — and the write side stays where it is meanwhile;
  * `reading_next`    — both together are one cycle of a read (`Reading`);
  * `read_run`        — a read from the cycle in which the command is shown to the end of its reply.
-/
import RiscDbgUart.ReadRuns
import RiscDbgUart.SerialWrites
import RiscDbgUart.WriteRuns

set_option linter.unusedVariables false

/-! ## The time of the transmitter -/

namespace RiscDbgUart.UartTx

open Clocked

variable {r : Rates} {s : State} {i : Input} {n : Nat}

/-- From the cycle after a byte is taken to the cycle in which the next one can be. -/
abbrev frameTime (r : Rates) : Nat := 10 * bitTime r + 1

/-- The transmitter is at rest, or in a frame that will be over in `n` cycles. -/
def Within (r : Rates) (n : Nat) (s : State) : Prop :=
  n = 0 ∧ Idle s ∨ ∃ b m k, Sending r b m k s ∧ n + m = frameTime r

/-- A cycle in which the transmitter is busy. -/
def busy (s : State) (i : Input) : List Unit := if txBusyO s then [()] else []

theorem within_idle (h : Within r n s) (hs : txBusyO s = false) : n = 0 ∧ Idle s := by
  rcases h with h | ⟨b, m, k, h, -⟩
  · exact h
  · rw [txBusyO, h.state] at hs
    cases hs

theorem within_pausing (h : Within r n s) : s.pausing = false := by
  rcases h with ⟨-, h⟩ | ⟨b, m, k, h, -⟩
  · exact h.pausing
  · exact h.pausing

theorem within_next (h : Workable r) (hn : Within r n s) (hi : plain i = true) :
    ∃ m, Within r m (next r s i) ∧
      m + (busy s i).length = n + frameTime r * (taken s i).length := by
  obtain ⟨hp, hc⟩ := (plain_iff i).mp hi
  rcases hn with ⟨rfl, hidle⟩ | ⟨b, m, k, hs, hm⟩
  · -- at rest: a byte is taken or not
    have hquiet : busy s i = [] := by rw [busy, txBusyO, hidle.state]; rfl
    rw [hquiet]
    cases hstart : i.txStartI
    · refine ⟨0, Or.inl ⟨rfl, idle_next hidle hi hstart⟩, ?_⟩
      simp [taken, takes, hstart]
    · refine ⟨frameTime r,
        Or.inr ⟨_, 0, 0, sending_start h hidle.state hidle.pausing hp hc hstart, rfl⟩, ?_⟩
      simp [taken, takes, hidle.state, hidle.pausing, hp, hstart]
  · -- in a frame: the line goes on for one more cycle, or the frame is over
    have hbusy : busy s i = [()] := by rw [busy, txBusyO, hs.state]; rfl
    have hnone : taken s i = [] := by simp [taken, takes, hs.state]
    have hbefore : m ≤ 10 * bitTime r :=
      le_trans hs.before (Nat.mul_le_mul_right _ (by have := hs.last; omega))
    have hframe : frameTime r = 10 * bitTime r + 1 := rfl
    rw [hbusy, hnone]
    show ∃ m, Within r m (next r s i) ∧ m + 1 = n + frameTime r * 0
    rcases Nat.lt_or_ge m (10 * bitTime r) with hlt | hge
    · exact ⟨n - 1, Or.inr ⟨b, m + 1, _, sending_next h hs hlt hc, by omega⟩, by omega⟩
    · have hlast : m = 10 * bitTime r := le_antisymm hbefore hge
      subst hlast
      exact ⟨0, Or.inl ⟨rfl, sending_last h hs hc⟩, by omega⟩

/-- **The transmitter is busy for one frame time for each byte it takes.**  So the time a message takes
    on the line is known from its length, however long the transmitter has been idle in between. -/
theorem within_run (h : Workable r) {is : List Input} (hi : ∀ i ∈ is, plain i = true)
    (hn : Within r n s) : ∃ m, Within r m (run (next r) s is) ∧
      m + (emitted (next r) busy s is).length
        = n + frameTime r * (emitted (next r) taken s is).length := by
  induction is generalizing n s with
  | nil => exact ⟨n, hn, rfl⟩
  | cons i is ih =>
    obtain ⟨m, hm, hlaw⟩ := within_next h hn (hi i List.mem_cons_self)
    obtain ⟨m', hm', hlaw'⟩ := ih (fun j hj => hi j (List.mem_cons_of_mem i hj)) hm
    refine ⟨m', hm', ?_⟩
    rw [emitted_cons, emitted_cons, List.length_append, List.length_append, Nat.mul_add]
    omega

end RiscDbgUart.UartTx

/-! ## The two sides of the TAP -/

namespace RiscDbgUart.SimpleFifo

/-- One byte is not half of four, wherever the pointers are.  With at most one byte waiting the receiver
    asks for no pause. -/
theorem halfFull_single {q : List Byte} {s : State 2} (h : Holds q s) (hq : q.length ≤ 1) :
    halfFullO s = false := by
  obtain ⟨hfilled, -⟩ := h
  have hptr := hfilled.wPtr
  have hfull := hfilled.full
  rw [halfFullO, hfull, distance, hptr]
  generalize s.rPtr = x
  generalize q.length = k at hq
  interval_cases k <;> revert x <;> decide

end RiscDbgUart.SimpleFifo

namespace RiscDbgUart.DmiUartTap

/-- The TAP with a write side that has just been reset. -/
def State.silenced (s : State) : State :=
  { s with deser := RxDeserializer.reset, wr := (DmiUartTap.reset default).wr }

/-- **The read side does not see the write side**, while no command is for it and symbols come only when
    the decoder is free. -/
theorem next_silenced {s : State} {i : Input} (hack : s.wr.writeArbiterReady = false)
    (hcmd : acceptsWrite s = false)
    (hshown : i.rxEmptyI = false → i.cmdRecI = true ∧ s.dec.state = .idle) :
    (next s i).silenced = next s.silenced i := by
  have hread : readO s.silenced i = readO s i := by
    show (!i.rxEmptyI && ((!(CommandDecoder.out s.dec).busyO && i.cmdRecI) || false)) = _
    rw [readO]
    -- a symbol is shown, so it is a command and the decoder is free: the ready of the other side is not asked
    cases he : i.rxEmptyI
    · obtain ⟨hc, hd⟩ := hshown he
      rw [CommandDecoder.out_busy, hd, hc]
      rfl
    · rfl
  have hdec : decIn s.silenced i = decIn s i := by
    show CommandDecoder.Input.mk (readO s.silenced i) _ _ _ false = _
    rw [hread, ← hack]
    rfl
  have hwr : writeArbiter s.silenced i = (DmiUartTap.reset default).wr := by
    have hout : (CommandDecoder.out s.silenced.dec).writeArbiterValidO = false := hcmd
    unfold writeArbiter
    simp only [hout]
    rfl
  show State.mk (CommandDecoder.next s.dec (decIn s i)) _ _ _ _
    = State.mk (CommandDecoder.next s.dec (decIn s.silenced i)) _ (writeArbiter s.silenced i) _ _
  rw [hdec, hwr]
  rfl

/-- The read side of the TAP is at rest. -/
structure ReadRest (s : State) : Prop where
  busy : s.ser.busyO = false
  done : s.ser.doneO = false
  count : s.ser.count = 0
  offer : s.ser.writeO = false
  run : s.rd.serRun = false
  ready : s.rd.readReadyO = false
  cmd : s.rd.currentReadCommand = CMD_NOP
  send : s.rd.sendCommand = false
  ack : s.rd.readArbiterReady = false

/-- It stays at rest while no command is for it and no device is valid. -/
theorem readRest_next {s : State} {i : Input} (h : ReadRest s) (hacc : accepts s = false)
    (hnobody : i.validAddressI = ADDR_NOP) : ReadRest (next s i) := by
  have hstay : stays s i = false := by simp [stays, hnobody]
  have hfollow : follows s i = false := by simp [follows, hnobody]
  have hreading : reading s = false := by simp [reading, h.cmd]
  have hstart : starts s = false := by simp [starts, h.run]
  have hserve : serving s = false := by simp [serving, h.busy]
  -- no address, no command, no transfer: each register of the read side keeps its value
  obtain ⟨hcount, hwrite⟩ := next_count_rest i hserve
  constructor
  · rw [next_busy, hstart, hserve]
    rfl
  · rw [next_done, h.done, h.busy]
    simp
  · rw [hcount, h.count, ite_self]
  · exact hwrite
  · rw [next_rd, readArbiter_serRun, hreading, hstay]
    simp
  · rw [next_rd, readArbiter_readReady, hreading, hstay]
    simp
  · rw [next_rd, readArbiter_command, hacc, h.cmd]
    simp
  · rw [next_rd, readArbiter_sendCommand, hfollow, hacc]
    rfl
  · rw [next_rd, readArbiter_ready, hacc]

end RiscDbgUart.DmiUartTap

/-! ## The read path in the transport module -/

namespace RiscDbgUart.DtmUart

open Clocked DmiUartTap

variable {r : Rates} {esc : Byte} {s : State} {i : Input} {n : Nat}

/-- The registers of the read path, over a write side that has just been reset. -/
def readView (s : State) : HostRead.State :=
  { waiting := []
    side := { side := { tap := s.tap.silenced, ic := s.readIntc }, dmi := s.dmi }
    link := { tx := s.txEsc, ready := escTxReady s } }

/-- What the read path looks at: the command that `RX_Escape` shows, and whether the transmitter gets
    ready, or is ready anyway. -/
def readPathIn (r : Rates) (esc : Byte) (s : State) (i : Input) : HostRead.Input :=
  { arrival := if RxEscape.commandO s.rxEsc then some (addrOf s.rxEsc.data) else none
    wake := escTxReady s || escTxReady (next r esc s i)
    sideI := readSideIn s i }

/-- `RX_Escape` shows nothing, or a read command to a decoder that is free. -/
def ReadShown (s : State) : Prop :=
  RxEscape.rxEmptyO s.rxEsc = false →
    s.tap.dec.state = .idle ∧ ∃ a, s.rxEsc = { state := .command, data := symbolOf CMD_READ a }

/-- The line is this channel's, and nothing asks for a pause. -/
structure Undisturbed (s : State) : Prop where
  half : SimpleFifo.halfFullO s.uart.fifo = false
  channel : s.uart.channel = false
  line : UartRx.channelO s.uart.rx = false

/-- The cases of `ReadShown`: nothing is shown, or it is a read command and the decoder is free for it. -/
theorem readShown_cases (h : ReadShown s) :
    RxEscape.rxEmptyO s.rxEsc = true ∧ RxEscape.commandO s.rxEsc = false ∨
      s.tap.dec.state = .idle ∧ ∃ a, s.rxEsc = { state := .command, data := symbolOf CMD_READ a } := by
  cases he : RxEscape.rxEmptyO s.rxEsc
  · exact Or.inr (h he)
  · refine Or.inl ⟨rfl, ?_⟩
    by_contra hc
    rw [RxEscape.rxEmptyO_command (Bool.eq_true_of_not_eq_false hc)] at he
    cases he

/-- The TAP's pins are those of the read path alone, so the TAP cannot tell whether it is part of the
    module or of the read path. -/
theorem tapPins_readView (h : ReadShown s) :
    HostRead.tapPins (readView s) (readPathIn r esc s i) = tapIn s i := by
  rcases readShown_cases h with ⟨he, hc⟩ | ⟨-, a, ha⟩
  · -- nothing is shown, so the read path has no command either
    have hempty : (tapIn s i).rxEmptyI = true := he
    have hcmd : (tapIn s i).cmdRecI = false := hc
    have hnone : HostRead.available (readView s) (readPathIn r esc s i) = [] := by
      show [] ++ (if RxEscape.commandO s.rxEsc then _ else none).toList = []
      rw [hc]
      rfl
    unfold HostRead.tapPins
    rw [hnone]
    show DmiUartTap.Input.mk (tapIn s i).dataRecI true ((tapIn s i).cmdRecI || false) _ _ _ _ _ = _
    rw [hcmd, Bool.or_false, ← hempty, ← hcmd]
    rfl
  · -- a READ is shown, and the read path gives the same command
    have hc : RxEscape.commandO s.rxEsc = true := by rw [ha]; rfl
    have hempty : (tapIn s i).rxEmptyI = false := RxEscape.rxEmptyO_command hc
    have hcmd : (tapIn s i).cmdRecI = true := hc
    have hdata : (tapIn s i).dataRecI = symbolOf CMD_READ a := by
      show s.rxEsc.data = _
      rw [ha]
    have hone : HostRead.available (readView s) (readPathIn r esc s i) = [a] := by
      show [] ++ (if RxEscape.commandO s.rxEsc then some (addrOf s.rxEsc.data) else none).toList = [a]
      rw [hc, ha]
      show [addrOf (symbolOf CMD_READ a)] = [a]
      rw [addrOf_symbolOf]
    unfold HostRead.tapPins
    rw [hone]
    show DmiUartTap.Input.mk (symbolOf CMD_READ a) false ((tapIn s i).cmdRecI || true) _ _ _ _ _ = _
    rw [Bool.or_true, ← hempty, ← hcmd, ← hdata]
    rfl

/-- The transmitter gets busy with the byte that it takes, and with nothing else: the line is not
    disturbed, so it has no byte of its own to send. -/
theorem escTxReady_next (hn : UartTx.Within r n s.uart.tx) (hu : Undisturbed s)
    (hready : escTxReady s = true) : escTxReady (next r esc s i) = !s.txEsc.writeO := by
  rw [escTxReady, Bool.and_eq_true, Uart.txReadyO, Bool.not_eq_true'] at hready
  obtain ⟨-, hidle⟩ := UartTx.within_idle hn hready.1
  have hpause : (Uart.txIn s.uart (uartIn s i)).sendPauseI = false := hu.half
  have hchannel : (Uart.txIn s.uart (uartIn s i)).channelI = false := hu.channel
  have hstart : (Uart.txIn s.uart (uartIn s i)).txStartI = s.txEsc.writeO := rfl
  have hstate := UartTx.next_state_idle (r := r) hidle.state hchannel
  have hkeep : (next r esc s i).uart.channel = false := by
    show (UartRx.channelO s.uart.rx || (false && _)) = false
    rw [hu.line]
    rfl
  show (!((UartTx.next r s.uart.tx _).state != .idle) && !(next r esc s i).uart.channel) = _
  rw [hkeep, hstate, UartTx.injects, UartTx.pauses, UartTx.resumes, UartTx.takes, hidle.state,
    hidle.pausing, hpause, hstart]
  cases s.txEsc.writeO <;> rfl

/-- What the transmitter takes is what `TX_Escape` puts on the wire, byte for byte. -/
theorem taken_readView (hn : UartTx.Within r n s.uart.tx) (hu : Undisturbed s) :
    UartTx.taken s.uart.tx (Uart.txIn s.uart (uartIn s i)) = TxLink.wire (readView s).link := by
  have hpause : (Uart.txIn s.uart (uartIn s i)).sendPauseI = false := hu.half
  have hstart : (Uart.txIn s.uart (uartIn s i)).txStartI = s.txEsc.writeO := rfl
  have hdata : (Uart.txIn s.uart (uartIn s i)).dataI = s.txEsc.dataSendO := rfl
  have hready : (readView s).link.ready = (s.uart.tx.state == .idle) := by
    show (!(s.uart.tx.state != .idle) && !s.uart.channel) = _
    rw [hu.channel]
    cases s.uart.tx.state <;> rfl
  rw [UartTx.taken, UartTx.takes, TxLink.wire, hready, hpause, hstart, hdata,
    UartTx.within_pausing hn]
  simp only [beq_self_eq_true, Bool.and_true]
  rfl

/-- **A cycle of the transport module is one of the read path**, while it has the module to itself: no
    write command, nobody else at the ports, and a transmitter that sends nothing of its own. -/
theorem readView_next (hshown : ReadShown s) (hack : s.tap.wr.writeArbiterReady = false)
    (hcmd : acceptsWrite s.tap = false) (hn : UartTx.Within r n s.uart.tx) (hu : Undisturbed s) :
    readView (next r esc s i) = HostRead.next esc (readView s) (readPathIn r esc s i) := by
  have hpins : HostRead.tapPins (readView s) (readPathIn r esc s i) = tapIn s i := tapPins_readView hshown
  have htapIn : HostRead.tapIn (readView s) (readPathIn r esc s i) = tapIn s i := by
    show DmiReadSide.tapIn (readView s).side (HostRead.sideIn (readView s) (readPathIn r esc s i)) = _
    rw [HostRead.sideIn, hpins]
    rfl
  have hsilenced : (DmiUartTap.next s.tap (tapIn s i)).silenced
      = DmiUartTap.next s.tap.silenced (tapIn s i) := by
    refine next_silenced hack hcmd fun he => ?_
    obtain ⟨hdec, a, ha⟩ := hshown he
    refine ⟨?_, hdec⟩
    show RxEscape.commandO s.rxEsc = true
    rw [ha]
    rfl
  have hside : (HostRead.next esc (readView s) (readPathIn r esc s i)).side
      = (readView (next r esc s i)).side := by
    show DmiReadSide.next (readView s).side (HostRead.sideIn (readView s) (readPathIn r esc s i)) = _
    rw [HostRead.sideIn, hpins]
    show _ = DmiReadSide.State.mk ⟨(DmiUartTap.next s.tap (tapIn s i)).silenced, _⟩ _
    rw [hsilenced]
    rfl
  have hlink : (HostRead.next esc (readView s) (readPathIn r esc s i)).link
      = (readView (next r esc s i)).link := by
    show TxLink.State.mk _ (if escTxReady s then !s.txEsc.writeO
      else escTxReady s || escTxReady (next r esc s i)) = TxLink.State.mk _ (escTxReady (next r esc s i))
    cases hready : escTxReady s
    · rfl
    · rw [escTxReady_next hn hu hready]
      rfl
  have hwaiting : (HostRead.next esc (readView s) (readPathIn r esc s i)).waiting = [] := by
    show (if readO s.tap.silenced (HostRead.tapIn (readView s) (readPathIn r esc s i)) then _ else _) = []
    rw [htapIn]
    rcases readShown_cases hshown with ⟨-, hc⟩ | ⟨hdec, a, ha⟩
    · have hnone : HostRead.available (readView s) (readPathIn r esc s i) = [] := by
        show [] ++ (if RxEscape.commandO s.rxEsc then _ else none).toList = []
        rw [hc]
        rfl
      rw [hnone, List.tail_nil, ite_self]
    · -- the free decoder reads the command
      have hread : readO s.tap.silenced (tapIn s i) = true := by
        show (!RxEscape.rxEmptyO s.rxEsc && ((!(CommandDecoder.out s.tap.dec).busyO
          && RxEscape.commandO s.rxEsc) || false)) = true
        rw [CommandDecoder.out_busy, hdec, ha]
        rfl
      have hone : HostRead.available (readView s) (readPathIn r esc s i) = [addrOf s.rxEsc.data] := by
        show [] ++ (if RxEscape.commandO s.rxEsc then some (addrOf s.rxEsc.data) else none).toList = _
        rw [ha]
        rfl
      rw [hread, hone]
      rfl
  show HostRead.State.mk [] (readView (next r esc s i)).side (readView (next r esc s i)).link = _
  rw [← hside, ← hlink, ← hwaiting]

/-! ## One side at rest while the other works -/

/-- None of the STB targets has something for the host. -/
structure Silent (i : Input) : Prop where
  stb0Status : i.stbI.stb0StatusValidI = false
  stb0Data : i.stbI.stb0DataValidI = false
  stb1Status : i.stbI.stb1StatusValidI = false
  stb1Data : i.stbI.stb1DataValidI = false

/-- The read side, `TX_Escape` and the transmitter are at rest. -/
structure ReadRest (s : State) : Prop where
  tap : DmiUartTap.ReadRest s.tap
  silent : s.dmi.tapReadValidO = false
  nobody : s.readIntc.validAddressO = ADDR_NOP
  free : s.txEsc.sendData = false
  noEsc : s.txEsc.sendEsc = false
  noOffer : s.txEsc.writeO = false
  tx : UartTx.Idle s.uart.tx

/-- **The write side does not wake the read side.** -/
theorem readRest_next (h : ReadRest s) (hacc : accepts s.tap = false) (hi : Silent i)
    (hu : Undisturbed s) : ReadRest (next r esc s i) ∧
      UartTx.taken s.uart.tx (Uart.txIn s.uart (uartIn s i)) = [] := by
  have hstart : (Uart.txIn s.uart (uartIn s i)).txStartI = false := h.noOffer
  have hplain : UartTx.plain (Uart.txIn s.uart (uartIn s i)) = true :=
    (UartTx.plain_iff _).mpr ⟨hu.half, hu.channel⟩
  have hcommand : TxEscape.takesCommand s.txEsc (txEscIn s) = false := by
    show (!s.txEsc.sendData && s.tap.rd.sendCommand) = false
    rw [h.tap.send, Bool.and_false]
  have hdata : TxEscape.takesData s.txEsc (txEscIn s) = false := by
    show (!s.txEsc.sendData && !s.tap.rd.sendCommand && s.tap.ser.writeO) = false
    rw [h.tap.offer, Bool.and_false]
  have hesc := TxEscape.next_free esc s.txEsc (txEscIn s) h.free h.noEsc
  rw [hcommand, hdata] at hesc
  have htxEsc : (next r esc s i).txEsc = TxEscape.next esc s.txEsc (txEscIn s) := rfl
  refine ⟨⟨DmiUartTap.readRest_next h.tap hacc h.nobody, ?_, ?_, ?_, ?_, ?_,
    UartTx.idle_next h.tx hplain hstart⟩, ?_⟩
  · -- the TAP is not ready for a word
    show (DmiUart.next s.dmi (dmiIn s i)).tapReadValidO = false
    rw [DmiUart.next_tapReadValidO]
    show (!DmiUart.outstanding s.dmi
      && (ReadInterconnect.ready s.tap.rd.currentReadAddress s.tap.rd.readReadyO).dmiReadReadyO) = false
    rw [h.tap.ready]
    exact Bool.and_false _
  · show ReadInterconnect.validAddress (devices s i) = ADDR_NOP
    have hdmi : (devices s i).dmiReadValidI = false := h.silent
    have hs0 : (devices s i).stb0StatusValidI = false := hi.stb0Status
    have hd0 : (devices s i).stb0DataValidI = false := hi.stb0Data
    have hs1 : (devices s i).stb1StatusValidI = false := hi.stb1Status
    have hd1 : (devices s i).stb1DataValidI = false := hi.stb1Data
    simp [ReadInterconnect.validAddress, hdmi, hs0, hd0, hs1, hd1]
  · rw [htxEsc, hesc]
    rfl
  · rw [htxEsc, hesc]
    rfl
  · rw [htxEsc, hesc]
  · rw [UartTx.taken, UartTx.takes, hstart, Bool.and_false]
    rfl

end RiscDbgUart.DtmUart

namespace RiscDbgUart.HostWrite

/-- The write arbiter between two messages. -/
def Stage.arbiter : Stage → DmiUartTap.WriteArbiter
  | .finished w => listening w
  | _ => (DmiUartTap.reset default).wr

/-- The decoder between two messages. -/
def Stage.decoder : Stage → CommandDecoder.State
  | .finished w => writeTaken
  | _ => CommandDecoder.reset

theorem settled_ready {st : Stage} (h : st.Ready) (rx : RxEscape.State) (req : DmiReq) :
    settled rx req st = bare rx st.decoder st.arbiter RxDeserializer.reset (restDmi req) := by
  rcases h with rfl | ⟨w, rfl⟩
  · rfl
  · rfl

theorem decoder_idle (st : Stage) : st.decoder.state = .idle := by
  cases st <;> rfl

end RiscDbgUart.HostWrite

namespace RiscDbgUart.DtmUart

open Clocked DmiUartTap
open HostWrite (Stage forgetDmi restDmi listening)

variable {r : Rates} {esc : Byte} {s : State} {i : Input} {n : Nat} {st : Stage}

/-- The write side and the bridge are at rest between two messages. -/
structure WriteRest (st : Stage) (s : State) : Prop where
  ready : st.Ready
  wr : s.tap.wr = st.arbiter
  deser : s.tap.deser = RxDeserializer.reset
  dmi : ∃ req, forgetDmi s.dmi = restDmi req

theorem WriteRest.ack (h : WriteRest st s) : s.tap.wr.writeArbiterReady = false := by
  rw [h.wr]
  rcases h.ready with rfl | ⟨w, rfl⟩ <;> rfl

/-- What the bridge at rest holds. -/
theorem WriteRest.bridge (h : WriteRest st s) :
    s.dmi.doRequest = false ∧ s.dmi.doEnd = false ∧ s.dmi.dmiReqValidO = false := by
  obtain ⟨req, hreq⟩ := h.dmi
  exact ⟨congrArg DmiUart.State.doRequest hreq, congrArg DmiUart.State.doEnd hreq,
    congrArg DmiUart.State.dmiReqValidO hreq⟩

/-- No word is on the bridge's port. -/
theorem WriteRest.noWord (h : WriteRest st s) : (writeIntc s i).dmiWriteValidO = false := by
  have hmux := WriteSide.mux_dmiValid (writeSide s) (writeSideIn s i)
  have hvalid : writeValidO (writeSide s).tap = false := by
    show s.tap.deser.doneO = false
    rw [h.deser]
    rfl
  rw [hvalid, Bool.and_false] at hmux
  exact hmux

/-- **The read side does not wake the write side.** -/
theorem writeRest_next (h : WriteRest st s) (hshown : ReadShown s) (hcmd : acceptsWrite s.tap = false) :
    WriteRest st (next r esc s i) := by
  obtain ⟨hrequest, hend, -⟩ := h.bridge
  -- a symbol that is shown is a command
  have hrun : (!(tapIn s i).rxEmptyI && !(tapIn s i).cmdRecI) = false := by
    show (!RxEscape.rxEmptyO s.rxEsc && !RxEscape.commandO s.rxEsc) = false
    rcases readShown_cases hshown with ⟨he, -⟩ | ⟨-, a, ha⟩
    · rw [he]
      rfl
    · rw [ha]
      rfl
  have hout : (CommandDecoder.out s.tap.dec).writeArbiterValidO = false := hcmd
  refine ⟨h.ready, ?_, ?_, ?_⟩
  · show writeArbiter s.tap (tapIn s i) = st.arbiter
    unfold writeArbiter
    rw [h.wr, h.deser, hrun]
    simp only [hout]
    rcases h.ready with rfl | ⟨w, rfl⟩ <;> rfl
  · show RxDeserializer.next s.tap.deser (deserIn s.tap (tapIn s i)) = RxDeserializer.reset
    unfold deserIn
    rw [h.deser, h.wr]
    rcases h.ready with rfl | ⟨w, rfl⟩ <;> rfl
  · obtain ⟨req, hreq⟩ := h.dmi
    refine ⟨req, ?_⟩
    have hno : (dmiIn s i).tapWriteValidI = false := h.noWord
    have hcaptures : DmiUart.captures s.dmi (dmiIn s i) = false := by
      rw [DmiUart.captures, hno, Bool.and_false, Bool.false_and]
    show forgetDmi (DmiUart.next s.dmi (dmiIn s i)) = restDmi req
    have hword : s.dmi.request = req := congrArg DmiUart.State.request hreq
    rw [DmiUart.next_idle _ hrequest hend, hcaptures, hno, hword, hend]
    rfl

/-! ## Rest, in the terms of the read path -/

/-- With the decoder free and the bridge at rest, the read path is where a command finds it, so what is
    proved of a read from rest applies. -/
theorem readView_rest (h : ReadRest s) (hu : Undisturbed s) (hdec : s.tap.dec.state = .idle)
    (hread : s.dmi.doRead = false) (hrequest : s.dmi.doRequest = false) :
    HostRead.Fixed esc s.dmi.dmiResp (readView s) ∧ HostRead.AtRest (readView s) := by
  have hready : escTxReady s = true := by
    rw [escTxReady, Uart.txReadyO, UartTx.txBusyO, h.tx.state, Uart.channelO, hu.channel]
    rfl
  refine ⟨?_, ?_⟩
  · -- the inputs that the reader fixes
    exact {
      link := ⟨fun _ => ⟨hready, h.noEsc, h.noOffer⟩,
        fun _ hw => absurd (h.noOffer.symm.trans hw) Bool.false_ne_true⟩
      waiting := rfl
      write := rfl
      writeReady := rfl
      cmd := fun hne => absurd hdec hne
      noRead := hread
      noRequest := hrequest
      resp := rfl }
  · -- and the state it starts in
    exact {
      idle := ⟨h.tap.busy, h.tap.done, h.tap.count, h.tap.offer, h.tap.run, h.tap.ready, h.silent,
        h.nobody⟩
      dec := hdec
      cmd := h.tap.cmd
      send := h.tap.send
      ack := h.tap.ack
      free := h.free }

/-- And the other way round: when the read path is at rest, the registers are, the transmitter's among
    them. -/
theorem readRest_of_view {x : BitVec 32} (hfix : HostRead.Fixed esc x (readView s))
    (h : HostRead.AtRest (readView s)) (hn : UartTx.Within r n s.uart.tx) : ReadRest s := by
  obtain ⟨hready, hnoEsc, hnoOffer⟩ := hfix.link.rest h.free
  have hidle : UartTx.txBusyO s.uart.tx = false := by
    have hand : (Uart.txReadyO s.uart && !Uart.channelO s.uart) = true := hready
    rw [Bool.and_eq_true, Uart.txReadyO, Bool.not_eq_true'] at hand
    exact hand.1
  exact {
    tap := ⟨h.idle.busy, h.idle.done, h.idle.count, h.idle.offer, h.idle.run, h.idle.ready, h.cmd, h.send,
      h.ack⟩
    silent := h.idle.silent
    nobody := h.idle.nobody
    free := h.free
    noEsc := hnoEsc
    noOffer := hnoOffer
    tx := (UartTx.within_idle hn hidle).2 }

end RiscDbgUart.DtmUart

/-! ## A read in the whole system -/

namespace RiscDbgUart.UartDtmTop

open Clocked DmiUartTap
open DmMem (Params)
open HostWrite (Stage)

variable {n w : Nat} {r : Rates} {esc : Byte} {p : Params n} {s : State n} {i : Input n w} {st : Stage}

/-- The byte that the transmitter takes. -/
def sent (s : State n) (i : Input n w) : List Byte :=
  UartTx.taken s.dtm.uart.tx (Uart.txIn s.dtm.uart (DtmUart.uartIn s.dtm (dtmIn s i)))

/-- The registers of the read path. -/
def readView (s : State n) : HostRead.State := DtmUart.readView s.dtm

/-- What the read path looks at in a cycle. -/
def readIn (r : Rates) (esc : Byte) (s : State n) (i : Input n w) : List HostRead.Input :=
  [DtmUart.readPathIn r esc s.dtm (dtmIn s i)]

/-- A cycle in which the transmitter is busy. -/
def busy (s : State n) (i : Input n w) : List Unit :=
  UartTx.busy s.dtm.uart.tx (Uart.txIn s.dtm.uart (DtmUart.uartIn s.dtm (dtmIn s i)))

/-- The receiver announces nothing and leaves the line to this channel, and the STB targets have
    nothing for the host. -/
structure Still (s : State n) (i : Input n w) : Prop where
  announced : Uart.announced s.dtm.uart = none
  line : UartRx.channelO s.dtm.uart.rx = false
  silent : DtmUart.Silent (dtmIn s i)

/-- `RX_Escape` holds nothing or a read command that can be read at once. -/
def Shown (s : State n) : Prop :=
  s.dtm.rxEsc.state = .idle ∨
    s.dtm.tap.dec.state = .idle ∧ ∃ a, s.dtm.rxEsc = { state := .command, data := symbolOf CMD_READ a }

/-- Nothing but a read is going on: the write side rests, the debug module owes no response, and the FIFO
    is empty. -/
structure Reading (r : Rates) (st : Stage) (s : State n) : Prop where
  write : DtmUart.WriteRest st s.dtm
  queue : s.dm.csrs.queue.respQueue = []
  fifo : SimpleFifo.Holds [] s.dtm.uart.fifo
  channel : s.dtm.uart.channel = false
  tx : ∃ m, UartTx.Within r m s.dtm.uart.tx
  dec : s.dtm.tap.dec.state ≠ .idle → s.dtm.tap.dec.cmd = CMD_READ
  shown : Shown s

theorem Reading.readShown (h : Reading r st s) : DtmUart.ReadShown s.dtm := by
  intro he
  rcases h.shown with hs | hs
  · rw [RxEscape.rxEmptyO, hs] at he
    cases he
  · exact hs

theorem Reading.undisturbed (h : Reading r st s) (hi : Still s i) : DtmUart.Undisturbed s.dtm :=
  ⟨SimpleFifo.halfFull_single h.fifo (Nat.zero_le 1), h.channel, hi.line⟩

theorem Reading.noWrite (h : Reading r st s) : acceptsWrite s.dtm.tap = false := by
  by_contra hw
  obtain ⟨hstate, hcmd⟩ := (CommandDecoder.out_writeValid s.dtm.tap.dec).mp
    (Bool.eq_true_of_not_eq_false hw)
  rw [h.dec (by rw [hstate]; exact CommandDecoder.Fsm.noConfusion)] at hcmd
  rcases hcmd with hc | hc <;> cases hc

/-- The decoder gets to know nothing but read commands: what it holds it keeps, and what it is shown is
    one. -/
theorem reading_dec (h : Reading r st s) :
    (next r esc p s i).dtm.tap.dec.state ≠ .idle → (next r esc p s i).dtm.tap.dec.cmd = CMD_READ := by
  have hdec : (next r esc p s i).dtm.tap.dec
      = CommandDecoder.next s.dtm.tap.dec (decIn s.dtm.tap (DtmUart.tapIn s.dtm (dtmIn s i))) := rfl
  intro hne
  by_cases hidle : s.dtm.tap.dec.state = .idle
  · cases hread : readO s.dtm.tap (DtmUart.tapIn s.dtm (dtmIn s i)) && RxEscape.commandO s.dtm.rxEsc
    · rw [hdec, CommandDecoder.next_idle_stays hidle hread] at hne
      exact absurd hidle hne
    · have hand := hread
      rw [Bool.and_eq_true] at hand
      rcases h.shown with hs | ⟨-, a, ha⟩
      · rw [RxEscape.commandO, hs] at hand
        cases hand.2
      · rw [hdec, CommandDecoder.next_latch hidle hand.1 hand.2]
        show cmdOf s.dtm.rxEsc.data = CMD_READ
        rw [ha, cmdOf_symbolOf]
  · rw [hdec, (CommandDecoder.next_busy_keeps hidle).1]
    exact h.dec hidle

/-- With nothing in the FIFO, `RX_Escape` is idle after the cycle. -/
theorem reading_rxEsc (h : Reading r st s) : (next r esc p s i).dtm.rxEsc.state = .idle := by
  have hempty : (DtmUart.rxEscIn s.dtm (dtmIn s i)).rxEmptyI = true :=
    (SimpleFifo.holds_shows h.fifo).empty.mpr rfl
  show (RxEscape.next esc s.dtm.rxEsc (DtmUart.rxEscIn s.dtm (dtmIn s i))).state = .idle
  rcases h.shown with hs | ⟨hdec, a, ha⟩
  · simp [RxEscape.next, hs, hempty]
  · have hread : (DtmUart.rxEscIn s.dtm (dtmIn s i)).readI = true := by
      show (!RxEscape.rxEmptyO s.dtm.rxEsc && ((!(CommandDecoder.out s.dtm.tap.dec).busyO
        && RxEscape.commandO s.dtm.rxEsc) || _)) = true
      rw [CommandDecoder.out_busy, hdec, ha]
      rfl
    refine RxEscape.next_read ?_ hread
    rw [ha]
    rfl

/-- Nothing comes into the FIFO: the line is still, so the receiver announces no byte. -/
theorem reading_fifo (h : Reading r st s) (hi : Still s i) :
    SimpleFifo.Holds [] (next r esc p s i).dtm.uart.fifo := by
  have hnone : s.dtm.uart.rx.core.rxDoneO = false := by
    have hann := hi.announced
    rw [Uart.announced] at hann
    by_contra hd
    rw [if_pos (Bool.eq_true_of_not_eq_false hd)] at hann
    cases hann
  have hread : SimpleFifo.ReadsFilled s.dtm.uart.fifo
      (Uart.fifoIn s.dtm.uart (DtmUart.uartIn s.dtm (dtmIn s i))) := by
    intro hre
    have hre' : RxEscape.readO s.dtm.rxEsc (Uart.rxEmptyO s.dtm.uart) = true := hre
    rw [RxEscape.readO, Bool.and_eq_true, Bool.not_eq_true'] at hre'
    exact hre'.2
  have htrack := SimpleFifo.holds_next h.fifo hread
  have hblocked : SimpleFifo.wEn s.dtm.uart.fifo
      (Uart.fifoIn s.dtm.uart (DtmUart.uartIn s.dtm (dtmIn s i))) = false := by
    show (s.dtm.uart.rx.core.rxDoneO && _) = false
    rw [hnone, Bool.false_and]
  rw [SimpleFifo.track_blocked h.fifo hblocked, List.tail_nil, ite_self] at htrack
  exact htrack

/-- **One cycle of a read.**  It stays one until the host sends the next byte, also when the words have
    long been sent. -/
theorem reading_next (hr : UartTx.Workable r) (h : Reading r st s) (hi : Still s i) :
    Reading r st (next r esc p s i) := by
  obtain ⟨m, hm⟩ := h.tx
  have hu := h.undisturbed hi
  have hplain : UartTx.plain (Uart.txIn s.dtm.uart (DtmUart.uartIn s.dtm (dtmIn s i))) = true :=
    (UartTx.plain_iff _).mpr ⟨hu.half, hu.channel⟩
  obtain ⟨m', hm', -⟩ := UartTx.within_next hr hm hplain
  refine ⟨DtmUart.writeRest_next h.write h.readShown h.noWrite, ?_, reading_fifo h hi, ?_, ⟨m', hm'⟩,
    reading_dec h, Or.inl (reading_rxEsc h)⟩
  · -- no request is on the bus
    show (DmCsrs.next s.dm.csrs.queue (DmRegs.queueIn s.dm.csrs (DmTop.csrsIn p s.dm (dmIn s i)))).respQueue
      = []
    have hpush : DmCsrs.push s.dm.csrs.queue
        (DmRegs.queueIn s.dm.csrs (DmTop.csrsIn p s.dm (dmIn s i))) = false := by
      show (s.dtm.dmi.dmiReqValidO && _) = false
      rw [h.write.bridge.2.2, Bool.false_and]
    rw [DmCsrs.next, hpush, h.queue]
    simp
  · show (UartRx.channelO s.dtm.uart.rx || (false && _)) = false
    rw [hi.line]
    rfl

/-- Behind the command nothing is shown any more. -/
theorem reading_next_idle (hr : UartTx.Workable r) (s : State n) (i : Input n w)
    (h : Reading r st s ∧ s.dtm.rxEsc.state = .idle) (hi : Still s i) :
    Reading r st (next r esc p s i) ∧ (next r esc p s i).dtm.rxEsc.state = .idle :=
  ⟨reading_next hr h.1 hi, reading_rxEsc h.1⟩

/-! ### The run, as the read path sees it -/

/-- **A run of the system is one of the read path**, over the inputs that the path sees in it, and what
    goes to the line is the same. -/
theorem reading_simulates (hr : UartTx.Workable r) {is : List (Input n w)} (h : Reading r st s)
    (hstill : Always (next r esc p) Still s is) :
    readView (run (next r esc p) s is)
        = run (HostRead.next esc) (readView s) (emitted (next r esc p) (readIn r esc) s is) ∧
      emitted (next r esc p) sent s is
        = emitted (HostRead.next esc) HostRead.wire (readView s)
            (emitted (next r esc p) (readIn r esc) s is) := by
  have hstep (s : State n) (i : Input n w) (hs : Reading r st s) (hi : Still s i) :
      Reading r st (next r esc p s i) := reading_next hr hs hi
  have hview (s : State n) (i : Input n w) (hs : Reading r st s) (hi : Still s i) :
      readView (next r esc p s i) = run (HostRead.next esc) (readView s) (readIn r esc s i) := by
    obtain ⟨m, hm⟩ := hs.tx
    exact DtmUart.readView_next hs.readShown hs.write.ack hs.noWrite hm (hs.undisturbed hi)
  refine ⟨run_simulates hstep hview is s h hstill, emitted_simulates hstep hview ?_ is s h hstill⟩
  intro s i hs hi
  obtain ⟨m, hm⟩ := hs.tx
  show _ = HostRead.wire _ _ ++ []
  rw [List.append_nil]
  exact DtmUart.taken_readView hm (hs.undisturbed hi)

theorem calm_reading (h : Reading r st s) (hi : Still s i) :
    HostRead.Calm (DtmUart.readPathIn r esc s.dtm (dtmIn s i)) :=
  ⟨hi.silent.stb0Status, hi.silent.stb0Data, hi.silent.stb1Status, hi.silent.stb1Data, h.write.noWord⟩

/-- Behind the command the read path meets no other one, which is the host's promise to wait for the
    answer. -/
theorem calm_run (hr : UartTx.Workable r) {is : List (Input n w)} (h : Reading r st s)
    (hidle : s.dtm.rxEsc.state = .idle) (hstill : Always (next r esc p) Still s is) :
    HostRead.Welcome (emitted (next r esc p) (readIn r esc) s is) ∧
      HostRead.commands (emitted (next r esc p) (readIn r esc) s is) = [] := by
  have hall : ∀ e ∈ emitted (next r esc p) (readIn r esc) s is, HostRead.Calm e ∧ e.arrival = none := by
    refine forall_emitted _ _ (fun e => HostRead.Calm e ∧ e.arrival = none) _ is ?_
    refine always_of_step (fun s => Reading r st s ∧ s.dtm.rxEsc.state = .idle) Still _
      (reading_next_idle hr) ?_ is s ⟨h, hidle⟩ hstill
    intro s i hs hi e he
    rw [List.mem_singleton.mp he]
    refine ⟨calm_reading hs.1 hi, ?_⟩
    rw [DtmUart.readPathIn, RxEscape.commandO, hs.2]
    rfl
  have hnone : HostRead.commands (emitted (next r esc p) (readIn r esc) s is) = [] := by
    rw [HostRead.commands, List.flatMap_eq_nil_iff]
    intro e he
    rw [(hall e he).2]
    rfl
  refine ⟨⟨fun e he => (hall e he).1, fun b hb => ?_⟩, hnone⟩
  rw [hnone] at hb
  cases hb

/-! ### The time of a read -/

/-- The transmitter is busy for a frame time for each byte that it is given, and not at all without
    one. -/
theorem busy_le (hr : UartTx.Workable r) {is : List (Input n w)} (h : Reading r st s)
    (hidle : UartTx.Idle s.dtm.uart.tx) (hstill : Always (next r esc p) Still s is) :
    (emitted (next r esc p) busy s is).length
      ≤ UartTx.frameTime r * (emitted (next r esc p) sent s is).length := by
  have hplain : ∀ j ∈ seen (next r esc p) (fun s (i : Input n w) =>
      Uart.txIn s.dtm.uart (DtmUart.uartIn s.dtm (dtmIn s i))) s is, UartTx.plain j = true := by
    refine forall_emitted _ _ (fun j => UartTx.plain j = true) s is ?_
    refine always_of_step (Reading r st) Still _ (fun s i hs hi => reading_next hr hs hi) ?_ is s h
      hstill
    intro s i hs hi j hj
    rw [List.mem_singleton.mp hj]
    exact (UartTx.plain_iff _).mpr ⟨(hs.undisturbed hi).half, hs.channel⟩
  obtain ⟨m, -, hlaw⟩ := UartTx.within_run hr hplain (Or.inl ⟨rfl, hidle⟩)
  have hbusy := emitted_component (tx_component r esc p) UartTx.busy is s
  have hsent := emitted_component (tx_component r esc p) UartTx.taken is s
  rw [hbusy, hsent, Nat.zero_add] at hlaw
  exact le_trans (Nat.le_add_left _ m) (le_of_eq hlaw)

/-- A transmitter that is not busy is a willing one.  Together with `busy_le` it gives the read path as
    many willing cycles as it needs. -/
theorem wakes_ge (hr : UartTx.Workable r) {is : List (Input n w)} (h : Reading r st s)
    (hstill : Always (next r esc p) Still s is) :
    is.length ≤ ((emitted (next r esc p) (readIn r esc) s is).filter (·.wake)).length
      + (emitted (next r esc p) busy s is).length := by
  induction is generalizing s with
  | nil => exact Nat.zero_le _
  | cons i is ih =>
    have hrest := ih (reading_next hr h hstill.1) hstill.2
    have hone : 1 ≤ ((readIn r esc s i).filter (·.wake)).length + (busy s i).length := by
      cases hb : UartTx.txBusyO s.dtm.uart.tx
      · have hready : DtmUart.escTxReady s.dtm = true := by
          rw [DtmUart.escTxReady, Uart.txReadyO, hb, Uart.channelO, h.channel]
          rfl
        have hwake : (DtmUart.readPathIn r esc s.dtm (dtmIn s i)).wake = true := by
          rw [DtmUart.readPathIn, hready, Bool.true_or]
        simp [readIn, hwake]
      · simp [busy, UartTx.busy, hb]
    rw [emitted_cons, emitted_cons, List.filter_append, List.length_append, List.length_append,
      List.length_cons]
    omega

/-- After how many cycles a read has been answered. -/
def readTime (r : Rates) : Nat := HostRead.patience + 14 * UartTx.frameTime r

/-- **A read is answered**, and leaves everything at rest.  The answer is the register's, with what the
    bridge has stored for the register of responses. -/
theorem read_run (hr : UartTx.Workable r) {a : Addr} {is : List (Input n w)} (h : Reading r st s)
    (hrest : DtmUart.ReadRest s.dtm) (hdec : s.dtm.tap.dec.state = .idle)
    (hrx : s.dtm.rxEsc = { state := .command, data := symbolOf CMD_READ a }) (hlocal : HostRead.Local a)
    (hread : s.dtm.dmi.doRead = false) (hstill : Always (next r esc p) Still s (i :: is))
    (hlong : readTime r ≤ is.length) :
    emitted (next r esc p) sent s (i :: is) = HostRead.reply esc s.dtm.dmi.dmiResp a ∧
      Reading r st (run (next r esc p) s (i :: is)) ∧
      DtmUart.ReadRest (run (next r esc p) s (i :: is)).dtm ∧
      (run (next r esc p) s (i :: is)).dtm.rxEsc.state = .idle ∧
      (run (next r esc p) s (i :: is)).dtm.tap.dec.state = .idle := by
  have hnext : Reading r st (next r esc p s i) := reading_next hr h hstill.1
  have hidle' : (next r esc p s i).dtm.rxEsc.state = .idle := reading_rxEsc h
  obtain ⟨hview, hsent⟩ := reading_simulates hr h hstill
  have hreads : emitted (next r esc p) (readIn r esc) s (i :: is)
      = DtmUart.readPathIn r esc s.dtm (dtmIn s i)
        :: emitted (next r esc p) (readIn r esc) (next r esc p s i) is := rfl
  rw [hreads] at hview hsent
  -- the command comes in the first cycle, and no other one behind it
  have harrival : (DtmUart.readPathIn r esc s.dtm (dtmIn s i)).arrival = some a := by
    rw [DtmUart.readPathIn, hrx]
    show some (addrOf (symbolOf CMD_READ a)) = some a
    rw [addrOf_symbolOf]
  obtain ⟨⟨hcalm, -⟩, hnone⟩ := calm_run hr hnext hidle' hstill.2
  have hwelcome : HostRead.Welcome (DtmUart.readPathIn r esc s.dtm (dtmIn s i)
      :: emitted (next r esc p) (readIn r esc) (next r esc p s i) is) := by
    refine ⟨?_, ?_⟩
    · intro e he
      rcases List.mem_cons.mp he with rfl | he
      · exact calm_reading h hstill.1
      · exact hcalm e he
    · intro b hb
      rw [HostRead.commands, List.flatMap_cons, harrival] at hb
      rw [HostRead.commands] at hnone
      rw [hnone, List.append_nil, Option.toList_some, List.mem_singleton] at hb
      rw [hb]
      exact hlocal
  obtain ⟨hfix, hat⟩ : HostRead.Fixed esc s.dtm.dmi.dmiResp (readView s) ∧ HostRead.AtRest (readView s) :=
    DtmUart.readView_rest hrest (h.undisturbed hstill.1) hdec hread h.write.bridge.1
  -- the transmitter is busy with at most fourteen bytes
  have hpatience : HostRead.patience
      ≤ ((emitted (next r esc p) (readIn r esc) (next r esc p s i) is).filter (·.wake)).length := by
    have hprefix := HostRead.read_sends hfix hat harrival hwelcome hnone
    rw [← hsent] at hprefix
    have hfourteen : (emitted (next r esc p) sent s (i :: is)).length ≤ 14 :=
      le_trans hprefix.length_le (HostRead.reply_length esc _ a)
    have hmul := Nat.mul_le_mul_left (UartTx.frameTime r) hfourteen
    have hbusy := busy_le hr h hrest.tx hstill
    have hwakes := wakes_ge hr hnext hstill.2
    rw [emitted_cons, List.length_append] at hbusy
    rw [readTime, Nat.mul_comm] at hlong
    omega
  obtain ⟨hreply, hfix', hat'⟩ := HostRead.read_settles hfix hat harrival hwelcome hnone hpatience
  rw [← hview] at hfix' hat'
  obtain ⟨hreading, hlast⟩ := run_of_step (reading_next_idle hr) is _ ⟨hnext, hidle'⟩ hstill.2
  obtain ⟨m, hm⟩ := hreading.tx
  exact ⟨hsent.trans hreply, hreading, DtmUart.readRest_of_view hfix' hat' hm, hlast, hat'.dec⟩

end RiscDbgUart.UartDtmTop
