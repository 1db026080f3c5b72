/-
  The head-of-line slot of the receive path: which pending symbol the TAP can still take.

  `RX_Escape` shows one symbol at a time and takes no further byte while it does, so a symbol the TAP
  never reads keeps every later one away from it, a reset command included.  The TAP reads under
  `rx_read`: a command whenever the decoder is idle, anything else under `receive_enable` only, which
  the write arbiter raises while a `CMD_WRITE` is current.

  * A COMMAND at the head can always be taken.  The decoder may be handing the command before it to a
    read arbiter that waits for the serializer; the serializer is drained by letting the transmit
    side take its bytes, provided its length port holds a register length.  The one state in which it
    may not is the one before any read command, since no reset assigns `ser_length`, and there a
    peripheral at another address loads it.
  * A DATA byte can be taken exactly when it is being received or a `CMD_WRITE` is current or about
    to become current.  Otherwise the slot is wedged: `rx_read` stays low in every continuation, for
    what would change the write command is a command behind the byte.
  * Where the slot is not wedged, a reset command the host sends can still reach the decoder.

  The reachability statements (`Reaches`, `CanConsume`, `CanReset`) say that some continuation takes the
  symbol, so each proof gives one: `reaches_served` drains the serializer, with `backlog` as a bound
  on the cycles that this takes, and `can_of_command` adds the cycles in which the decoder comes to rest.  The
  opposite is an invariant: `wedged_next` keeps a wedged slot wedged whatever comes in.
-/
import RiscDbgUart.DataSymbols

set_option linter.unusedVariables false

namespace RiscDbgUart.RxTap

open Clocked

/-! ## Taking the symbol at the head -/

/-- A symbol is pending: `RX_EMPTY_O` is low. -/
def pending (s : State) : Bool := !RxEscape.rxEmptyO s.rx

/-- The TAP reads in this cycle. -/
def consumes (s : State) (i : Input) : Bool := DmiUartTap.readO s.tap (tapIn s i)

/-- The symbol at the head is read in this cycle, whatever the inputs are. -/
def Taken (s : State) : Prop := ∀ i, consumes s i = true

/-- The host sends nothing. -/
def Silent (is : List Input) : Prop := ∀ i ∈ is, i.fifoEmptyI = true

/-- Some inputs of the TAP, with the host silent, lead to a state with `Q` that has the symbol of
    `s` at the head, or none if `s` has none. -/
def Reaches (esc : Byte) (Q : State → Prop) (s : State) : Prop :=
  ∃ is, Silent is ∧ (run (next esc) s is).rx = s.rx ∧ Q (run (next esc) s is)

/-- The symbol at the head can still be consumed. -/
def CanConsume (esc : Byte) (s : State) : Prop := Reaches esc Taken s

/-- The bytes `RX_Escape` takes from the FIFO. -/
def accepts (s : State) (i : Input) : List Byte :=
  if RxEscape.readO s.rx i.fifoEmptyI then [i.fifoDataI] else []

/-- The host can send a `CMD_RESET` with the address `a`, completing an escape sequence that has
    been begun, such that the decoder latches it.  The bytes accepted on the way are exactly these. -/
def CanReset (esc : Byte) (a : Addr) (s : State) : Prop :=
  ∃ is, emitted (next esc) accepts s is
      = (if s.rx.state = .escape then [] else [esc]) ++ [symbolOf CMD_RESET a] ∧
    (run (next esc) s is).tap.dec = { state := .handover, addr := a, cmd := CMD_RESET }

/-- The command the write arbiter will hold after this cycle, a reset not yet carried out. -/
def writeCommandNext (s : State) : Cmd :=
  if DmiUartTap.acceptsWrite s.tap then (CommandDecoder.out s.tap.dec).writeCommandO
  else s.tap.wr.currentWriteCommand

/-- A data byte is at the head, it is not being received, and `CMD_WRITE` is neither current nor
    about to become current. -/
def wedged (s : State) : Bool :=
  dataAtHead s && !s.tap.wr.receiveEnable && writeCommandNext s != CMD_WRITE

variable {esc : Byte} {s : State} {i : Input} {Q : State → Prop}

theorem consumes_eq (s : State) (i : Input) : consumes s i
    = (pending s && ((decide (s.tap.dec.state = .idle) && RxEscape.commandO s.rx) ||
        s.tap.wr.receiveEnable)) := by
  unfold consumes DmiUartTap.readO pending
  rw [CommandDecoder.out_busy, decide_not, Bool.not_not]
  rfl

theorem taken_of_consumes (h : consumes s i = true) : Taken s := by
  intro j
  rw [consumes_eq] at h ⊢
  exact h

theorem taken_of_receiveEnable (hp : pending s = true) (h : s.tap.wr.receiveEnable = true) :
    Taken s := by
  intro j
  rw [consumes_eq, hp, h, Bool.or_true]
  rfl

theorem taken_of_idle (hc : RxEscape.commandO s.rx = true) (h : s.tap.dec.state = .idle) :
    Taken s := by
  intro j
  rw [consumes_eq, pending, RxEscape.rxEmptyO_command hc, hc, h]
  rfl

theorem pending_of_taken (h : Taken s) : pending s = true := by
  have h₀ := h {}
  rw [consumes_eq, Bool.and_eq_true] at h₀
  exact h₀.1

theorem reaches_refl (h : Q s) : Reaches esc Q s := ⟨[], by simp [Silent], rfl, h⟩

/-- One more silent cycle in front: it reads the symbol at the head, or it leaves the head alone. -/
theorem reaches_step (hQ : Taken s → Q s) (i : Input) (hi : i.fifoEmptyI = true)
    (h : (next esc s i).rx = s.rx → Reaches esc Q (next esc s i)) : Reaches esc Q s := by
  cases hr : consumes s i
  · have hrx : (next esc s i).rx = s.rx := RxEscape.next_silent hi hr
    obtain ⟨is, his, hsame, hq⟩ := h hrx
    refine ⟨i :: is, ?_, hsame.trans hrx, hq⟩
    intro j hj
    rcases List.mem_cons.mp hj with rfl | hj
    · exact hi
    · exact his j hj
  · exact reaches_refl (hQ (taken_of_consumes hr))

/-! ## A data byte at the head -/

/-- The target is ready, and nothing else moves. -/
def ready : Input := { tapI := { writeReadyI := true } }

theorem pending_of_data (hd : dataAtHead s = true) : pending s = true := by
  rw [dataAtHead, beq_iff_eq] at hd
  simp [pending, RxEscape.rxEmptyO, hd]

theorem data_of_rx {t : State} (h : t.rx = s.rx) (hd : dataAtHead s = true) :
    dataAtHead t = true := by
  rw [dataAtHead, h]
  exact hd

/-- With data at the head no command reaches the decoder, so the write arbiter is offered nothing it
    is not offered already. -/
theorem acceptsWrite_data (hd : dataAtHead s = true)
    (h : DmiUartTap.acceptsWrite (next esc s i).tap = true) :
    DmiUartTap.acceptsWrite s.tap = true ∧ (next esc s i).tap.dec.cmd = s.tap.dec.cmd := by
  rw [dataAtHead, beq_iff_eq] at hd
  rw [DmiUartTap.acceptsWrite, CommandDecoder.out_writeValid] at h ⊢
  obtain ⟨hst, hcmd⟩ := h
  rw [next, DmiUartTap.next_dec] at hst hcmd ⊢
  by_cases hidle : s.tap.dec.state = .idle
  · have hno : ((DmiUartTap.decIn s.tap (tapIn s i)).readI &&
        (DmiUartTap.decIn s.tap (tapIn s i)).cmdRecI) = false := by
      simp [DmiUartTap.decIn, tapIn, RxEscape.commandO, hd]
    rw [CommandDecoder.next_idle_stays hidle hno, hidle] at hst
    cases hst
  · have hkeep := (CommandDecoder.next_busy_keeps (i := DmiUartTap.decIn s.tap (tapIn s i)) hidle).1
    rw [hkeep] at hcmd
    exact ⟨⟨CommandDecoder.handover_of_next hidle hst, hcmd⟩, hkeep⟩

/-- The arbiter drives the deserializer, and goes on doing so while the byte waits. -/
theorem writes_data (hd : dataAtHead s = true) (h : DmiUartTap.writes s.tap = true) :
    DmiUartTap.writes (next esc s i).tap = true := by
  obtain ⟨hna, hcmd⟩ := (DmiUartTap.writes_iff _).mp h
  rw [DmiUartTap.writes_iff]
  constructor
  · by_contra ha
    rw [Bool.not_eq_false] at ha
    rw [(acceptsWrite_data hd ha).1] at hna
    cases hna
  · rw [next, DmiUartTap.next_wr, DmiUartTap.writeArbiter_command, hna, hcmd]
    rfl

/-- No finished word waits: the byte is received one cycle later, and the head of the line moves on. -/
theorem can_of_room (hd : dataAtHead s = true) (hw : DmiUartTap.writes s.tap = true)
    (hdone : s.tap.deser.doneO = false) : CanConsume esc s := by
  refine reaches_step id ready rfl fun hrx => reaches_refl ?_
  refine taken_of_receiveEnable (pending_of_data (data_of_rx hrx hd)) ?_
  rw [next, DmiUartTap.next_wr, DmiUartTap.writeArbiter_receiveEnable, hw, hdone]
  rfl

/-- A finished word is taken by the target first, which restarts the deserializer, and then the byte is
    received. -/
theorem can_of_writes (hd : dataAtHead s = true) (hw : DmiUartTap.writes s.tap = true) :
    CanConsume esc s := by
  cases hdone : s.tap.deser.doneO
  · exact can_of_room hd hw hdone
  refine reaches_step id ready rfl fun hrx => ?_
  have hd₁ := data_of_rx hrx hd
  have hreset : (next esc s ready).tap.wr.deserReset = true := by
    rw [next, DmiUartTap.next_wr, DmiUartTap.writeArbiter_deserReset, hw, hdone]
    rfl
  refine reaches_step id ready rfl fun hrx₂ => ?_
  refine can_of_room (data_of_rx hrx₂ hd₁) (writes_data hd₁ (writes_data hd hw)) ?_
  rw [next, DmiUartTap.next_deser, RxDeserializer.next_doneO, DmiUartTap.deserIn, hreset]
  rfl

/-- The write arbiter is taking over a `CMD_WRITE`, which the decoder offers for at most one more
    cycle. -/
theorem can_of_taking (hd : dataAtHead s = true) (ha : DmiUartTap.acceptsWrite s.tap = true)
    (hc : s.tap.dec.cmd = CMD_WRITE) : CanConsume esc s := by
  refine reaches_step id ready rfl fun hrx => ?_
  have hd₁ := data_of_rx hrx hd
  have hcur₁ : (next esc s ready).tap.wr.currentWriteCommand = CMD_WRITE := by
    rw [next, DmiUartTap.next_wr, DmiUartTap.writeArbiter_command, ha,
      CommandDecoder.out_writeCommand ha, hc]
    rfl
  cases ha₁ : DmiUartTap.acceptsWrite (next esc s ready).tap
  · exact can_of_writes hd₁ ((DmiUartTap.writes_iff _).mpr ⟨ha₁, hcur₁⟩)
  -- the acknowledge is up, so this is the last cycle of the handover
  have hc₁ := (acceptsWrite_data hd ha₁).2.trans hc
  have hst₁ := ((CommandDecoder.out_writeValid _).mp ha₁).1
  have hready : (next esc s ready).tap.wr.writeArbiterReady = true := by
    rw [next, DmiUartTap.next_wr, DmiUartTap.writeArbiter_ready, ha]
  refine reaches_step id ready rfl fun hrx₂ => ?_
  refine can_of_writes (data_of_rx hrx₂ hd₁) ((DmiUartTap.writes_iff _).mpr ⟨?_, ?_⟩)
  · rw [← Bool.not_eq_true, DmiUartTap.acceptsWrite, CommandDecoder.out_writeValid]
    rintro ⟨hst₂, -⟩
    refine CommandDecoder.next_acked ?_ ?_ (fun _ => hready) hst₂
    · rw [hst₁]
      simp
    · rw [CommandDecoder.out_readValid, hc₁]
      simp
  · rw [next, DmiUartTap.next_wr, DmiUartTap.writeArbiter_command, ha₁,
      CommandDecoder.out_writeCommand ha₁, hc₁]
    rfl

theorem can_of_data (hd : dataAtHead s = true) (h : wedged s = false) : CanConsume esc s := by
  cases hen : s.tap.wr.receiveEnable
  · rw [wedged, hd, hen, Bool.not_false, Bool.true_and, Bool.true_and, bne_eq_false_iff_eq,
      writeCommandNext] at h
    cases ha : DmiUartTap.acceptsWrite s.tap
    · rw [ha] at h
      exact can_of_writes hd ((DmiUartTap.writes_iff _).mpr ⟨ha, h⟩)
    · rw [ha, if_pos rfl, CommandDecoder.out_writeCommand ha] at h
      exact can_of_taking hd ha h
  · exact reaches_refl (taken_of_receiveEnable (pending_of_data hd) hen)

/-! ## The decoder comes to rest -/

/-- The decoder is idle, unless the symbol at the head is read before that. -/
def Served (s : State) : Prop := s.tap.dec.state = .idle ∨ Taken s

/-- The decoder has handed its command over and waits for the acknowledges to go. -/
theorem served_of_waitAck (h : s.tap.dec.state = .waitAck) : Reaches esc Served s := by
  refine reaches_step .inr {} rfl fun hrx => ?_
  have hread : (next esc s {}).tap.rd.readArbiterReady = false := by
    rw [next, DmiUartTap.next_rd, DmiUartTap.readArbiter_ready, DmiUartTap.accepts,
      CommandDecoder.out, h, Bool.and_false]
  have hwrite : (next esc s {}).tap.wr.writeArbiterReady = false := by
    rw [next, DmiUartTap.next_wr, DmiUartTap.writeArbiter_ready, DmiUartTap.acceptsWrite,
      CommandDecoder.out, h]
  cases hst : (next esc s {}).tap.dec.state
  · exact reaches_refl (.inl hst)
  · rw [next, DmiUartTap.next_dec] at hst
    have hbusy : s.tap.dec.state ≠ .idle := by rw [h]; simp
    rw [CommandDecoder.handover_of_next hbusy hst] at h
    cases h
  · refine reaches_step .inr {} rfl fun _ => reaches_refl (.inl ?_)
    exact CommandDecoder.next_released hst hread hwrite

/-- The decoder has nothing to hand over. -/
theorem served_of_settled (h : s.tap.dec.state ≠ .handover) : Reaches esc Served s := by
  cases hst : s.tap.dec.state
  · exact reaches_refl (.inl hst)
  · exact absurd hst h
  · exact served_of_waitAck hst

/-- The serializer is at rest, so both arbiters acknowledge what the decoder offers them. -/
theorem served_of_rest (hb : s.tap.ser.busyO = false) : Reaches esc Served s := by
  by_cases hst : s.tap.dec.state = .handover
  swap
  · exact served_of_settled hst
  have hbusy : s.tap.dec.state ≠ .idle := by rw [hst]; simp
  refine reaches_step .inr {} rfl fun _ => ?_
  by_cases hst₁ : (next esc s {}).tap.dec.state = .handover
  swap
  · exact served_of_settled hst₁
  have hcmd : (next esc s {}).tap.dec.cmd = s.tap.dec.cmd :=
    (CommandDecoder.next_busy_keeps hbusy).1
  refine reaches_step .inr {} rfl fun _ => served_of_settled ?_
  -- what is offered now has been offered in the cycle before, so the acknowledges are up
  refine CommandDecoder.next_acked ?_ ?_ ?_
  · rw [hst₁]
    simp
  · intro hv
    rw [CommandDecoder.out_readValid, hcmd] at hv
    have hv₀ := (CommandDecoder.out_readValid s.tap.dec).mpr ⟨hst, hv.2⟩
    show (DmiUartTap.readArbiter s.tap _).readArbiterReady = true
    rw [DmiUartTap.readArbiter_ready, DmiUartTap.accepts, hb, hv₀]
    rfl
  · intro hv
    rw [CommandDecoder.out_writeValid, hcmd] at hv
    have hv₀ := (CommandDecoder.out_writeValid s.tap.dec).mpr ⟨hst, hv.2⟩
    show (DmiUartTap.writeArbiter s.tap _).writeArbiterReady = true
    rw [DmiUartTap.writeArbiter_ready, DmiUartTap.acceptsWrite, hv₀]

/-! ## Draining the serializer -/

/-- `ser_length` holds the length of a register. -/
def measured (s : State) : Bool := decide (s.tap.rd.serLength ≤ 41)

theorem measured_loaded
    (h : DmiUartTap.follows s.tap (tapIn s i) = true ∨ DmiUartTap.accepts s.tap = true) :
    measured (next esc s i) = true := by
  rw [measured, decide_eq_true_iff, next, DmiUartTap.next_rd, DmiUartTap.readArbiter_length]
  have hv := getReadLength_bounds (tapIn s i).validAddressI
  have ha := getReadLength_bounds (CommandDecoder.out s.tap.dec).readAddressO
  rcases h with h | h
  · rw [if_pos h]
    omega
  · rw [if_pos h]
    split_ifs <;> omega

theorem measured_kept (hm : measured s = true) : measured (next esc s i) = true := by
  by_cases h : DmiUartTap.follows s.tap (tapIn s i) = true ∨ DmiUartTap.accepts s.tap = true
  · exact measured_loaded h
  · rw [not_or] at h
    rw [measured, next, DmiUartTap.next_rd, DmiUartTap.readArbiter_length, if_neg h.1, if_neg h.2]
    exact hm

/-- Under a read-side command the length has been loaded together with the command. -/
def Loaded (s : State) : Prop := DmiUartTap.listens s.tap = false → measured s = true

theorem loaded_reset (s : State) : Loaded (reset s) := by
  intro h
  cases h

theorem loaded_next (esc : Byte) (s : State) (i : Input) (hInv : Loaded s) :
    Loaded (next esc s i) := by
  intro h
  by_cases ha : DmiUartTap.accepts s.tap = true
  · exact measured_loaded (.inr ha)
  · refine measured_kept (hInv ?_)
    rw [DmiUartTap.listens, next, DmiUartTap.next_rd, DmiUartTap.readArbiter_command, if_neg ha] at h
    split at h
    · cases h
    · exact h

/-- The transmit side accepts a byte and becomes busy with it, in turn. -/
def takingBytes (s : State) : Input := { tapI := { txReadyI := !s.tap.ser.writeO } }

/-- The cycles the serializer needs at most: two for each byte, of which there are no more than the length
    port can count, and one for the offer. -/
def backlog (s : State) : Nat :=
  2 * (64 - s.tap.ser.count) + if s.tap.ser.writeO then 0 else 1

/-- A serializer that is not brought to rest by the cycle has got closer to it. -/
theorem backlog_next (hm : measured s = true) (hb : s.tap.ser.busyO = true)
    (hb' : (next esc s (takingBytes s)).tap.ser.busyO = true) :
    backlog (next esc s (takingBytes s)) < backlog s := by
  rw [measured, decide_eq_true_iff] at hm
  rw [next, DmiUartTap.next_ser, TxSerializer.next_busyO, hb, Bool.and_eq_true,
    Bool.not_eq_true'] at hb'
  simp only [Bool.not_true, Bool.false_and, Bool.or_false] at hb'
  obtain ⟨hrst, hserves⟩ := hb'
  have hlt : s.tap.ser.count < s.tap.rd.serLength := by
    rw [TxSerializer.serves, Bool.and_eq_true, decide_eq_true_iff] at hserves
    exact hserves.2
  have hready : (DmiUartTap.serIn s.tap (tapIn s (takingBytes s))).readyI = !s.tap.ser.writeO := rfl
  unfold backlog
  rw [next, DmiUartTap.next_ser, TxSerializer.next_count, TxSerializer.next_writeO, hrst, hserves,
    clog2_maxBits, hready]
  cases s.tap.ser.writeO
  · simp
  · -- the count stays below the register length, so it does not wrap
    simp
    omega

theorem served_of_measured {s : State} (hm : measured s = true) : Reaches esc Served s := by
  induction hn : backlog s using Nat.strong_induction_on generalizing s with
  | _ n ih =>
    cases hb : s.tap.ser.busyO
    · exact served_of_rest hb
    refine reaches_step .inr (takingBytes s) rfl fun _ => ?_
    cases hb' : (next esc s (takingBytes s)).tap.ser.busyO
    · exact served_of_rest hb'
    · exact ih _ (hn ▸ backlog_next hm hb hb') (measured_kept hm) rfl

/-- A peripheral at an address that is not the current one. -/
def otherPeripheral (s : State) : Input :=
  { tapI := { validAddressI :=
      if s.tap.rd.currentReadAddress = ADDR_IDCODE then ADDR_DTMCS else ADDR_IDCODE } }

/-- **The decoder always comes to rest**, unless the head of the receive path moves first.  The transmit side
    takes the bytes that are left, and the read arbiter is free for the command that waits. -/
theorem reaches_served (hInv : Loaded s) : Reaches esc Served s := by
  cases hl : DmiUartTap.listens s.tap
  · exact served_of_measured (hInv hl)
  · refine reaches_step .inr (otherPeripheral s) rfl fun _ => ?_
    refine served_of_measured (measured_loaded (.inl ?_))
    simp only [DmiUartTap.follows, hl, tapIn, otherPeripheral]
    split_ifs with h
    · rw [h]
      rfl
    · simpa using Ne.symm h

/-- **A command at the head can always be taken.**  This needs no condition: an idle decoder reads it, and
    the decoder comes to be idle. -/
theorem can_of_command (hInv : Loaded s) (hc : RxEscape.commandO s.rx = true) :
    CanConsume esc s := by
  obtain ⟨is, his, hrx, hidle | htaken⟩ := (reaches_served hInv : Reaches esc Served s)
  · exact ⟨is, his, hrx, taken_of_idle (by rw [hrx, hc]) hidle⟩
  · exact ⟨is, his, hrx, htaken⟩

/-- **Whatever is pending can be taken, unless it is wedged.**  What is pending is a command or a byte of
    data, and the two have been dealt with above. -/
theorem can_of_pending (hInv : Loaded s) (hw : wedged s = false) (hp : pending s = true) :
    CanConsume esc s := by
  cases hc : RxEscape.commandO s.rx
  · refine can_of_data ?_ hw
    rw [pending, RxEscape.rxEmptyO, Bool.not_not, Bool.or_eq_true] at hp
    rcases hp with hd | hcmd
    · exact hd
    · rw [RxEscape.commandO, hcmd] at hc
      cases hc
  · exact can_of_command hInv hc

/-! ## The wedged slot -/

theorem wedged_iff (s : State) : wedged s = true ↔
    dataAtHead s = true ∧ s.tap.wr.receiveEnable = false ∧ writeCommandNext s ≠ CMD_WRITE := by
  rw [wedged, Bool.and_eq_true, Bool.and_eq_true, Bool.not_eq_true', bne_iff_ne, and_assoc]

theorem wedged_unread (h : wedged s = true) (i : Input) : consumes s i = false := by
  obtain ⟨hd, hen, -⟩ := (wedged_iff s).mp h
  rw [dataAtHead, beq_iff_eq] at hd
  rw [consumes_eq, hen, RxEscape.commandO, hd]
  simp

/-- A wedged slot stays wedged, whatever the inputs are. -/
theorem wedged_next (h : wedged s = true) (i : Input) : wedged (next esc s i) = true := by
  have hno := wedged_unread h i
  obtain ⟨hd, hen, hcmd⟩ := (wedged_iff s).mp h
  have hrx : (next esc s i).rx = s.rx := by
    refine RxEscape.next_unread ?_ hno
    simpa [pending] using pending_of_data hd
  rw [wedged_iff]
  refine ⟨data_of_rx hrx hd, ?_, ?_⟩
  · -- `receive_enable` rises under a current `CMD_WRITE` only
    rw [next, DmiUartTap.next_wr, DmiUartTap.writeArbiter_receiveEnable, ← Bool.not_eq_true]
    intro hw
    rw [Bool.and_eq_true, DmiUartTap.writes_iff] at hw
    rw [writeCommandNext, hw.1.1] at hcmd
    exact hcmd hw.1.2
  · rw [writeCommandNext]
    cases ha : DmiUartTap.acceptsWrite (next esc s i).tap
    · rw [if_neg (by simp), next, DmiUartTap.next_wr, DmiUartTap.writeArbiter_command]
      rw [writeCommandNext] at hcmd
      split_ifs at hcmd ⊢
      · exact hcmd
      · simp
      · exact hcmd
    · -- the decoder offers what it has offered before
      obtain ⟨ha₀, hkeep⟩ := acceptsWrite_data hd ha
      rw [writeCommandNext, if_pos ha₀, CommandDecoder.out_writeCommand ha₀] at hcmd
      rw [if_pos rfl, CommandDecoder.out_writeCommand ha, hkeep]
      exact hcmd

theorem wedged_run (h : wedged s = true) (js : List Input) :
    wedged (run (next esc) s js) = true := by
  induction js generalizing s with
  | nil => exact h
  | cons j js ih => exact ih (wedged_next h j)

/-- **A wedged slot is never read again**, whatever comes from the line, the transmitter and the devices. -/
theorem wedged_forever (h : wedged s = true) (js : List Input) :
    Always (next esc) (fun s i => consumes s i = false) s js := by
  rw [always_iff]
  intro pre i post _
  exact wedged_unread (wedged_run h pre) i

/-- In a cycle that reads nothing an idle decoder stays as it is, as it takes a command by reading. -/
theorem dec_idle_next (hno : consumes s i = false) (h : s.tap.dec.state = .idle) :
    (next esc s i).tap.dec = s.tap.dec := by
  refine CommandDecoder.next_idle_stays h ?_
  rw [show (DmiUartTap.decIn s.tap (tapIn s i)).readI = consumes s i from rfl, hno]
  rfl

/-- An idle decoder behind a wedged slot stays idle. -/
theorem wedged_dec (h : wedged s = true) (hidle : s.tap.dec.state = .idle) (js : List Input) :
    (run (next esc) s js).tap.dec.state = .idle := by
  have hstep : ∀ s i, wedged s = true ∧ s.tap.dec.state = .idle →
      wedged (next esc s i) = true ∧ (next esc s i).tap.dec.state = .idle := by
    rintro s i ⟨hw, hst⟩
    refine ⟨wedged_next hw i, ?_⟩
    rw [dec_idle_next (wedged_unread hw i) hst, hst]
  exact (run_of_step_free hstep js s ⟨h, hidle⟩).2

/-! ## A reset command from the host -/

/-- The host's next byte is in the FIFO. -/
def sends (b : Byte) : Input := { fifoDataI := b, fifoEmptyI := false }

theorem accepts_silent {is : List Input} (h : Silent is) (s : State) :
    emitted (next esc) accepts s is = [] := by
  induction is generalizing s with
  | nil => rfl
  | cons i is ih =>
    have hi := h i (List.mem_cons_self ..)
    rw [emitted_cons, ih fun j hj => h j (List.mem_cons_of_mem i hj), accepts, RxEscape.readO, hi]
    simp

/-- A command at the head of an idle decoder is latched in this cycle, without waiting for anyone. -/
theorem dec_latch (hc : RxEscape.commandO s.rx = true) (h : s.tap.dec.state = .idle) (i : Input) :
    (next esc s i).tap.dec
      = { state := .handover, addr := addrOf s.rx.data, cmd := cmdOf s.rx.data } :=
  CommandDecoder.next_latch h (taken_of_idle hc h i) hc

theorem reset_of_escape {a : Addr} (hne : symbolOf CMD_RESET a ≠ esc) (he : s.rx.state = .escape)
    (h : s.tap.dec.state = .idle) : CanReset esc a s := by
  have hno : ∀ i, consumes s i = false := by
    intro i
    rw [consumes_eq, pending, RxEscape.rxEmptyO, he]
    rfl
  have hrx : (next esc s (sends (symbolOf CMD_RESET a))).rx
      = { state := .command, data := symbolOf CMD_RESET a } := by
    rw [next, RxEscape.next_escaped he rfl]
    exact congrArg (RxEscape.State.mk · _) (if_neg hne)
  have hdec : (next esc s (sends (symbolOf CMD_RESET a))).tap.dec = s.tap.dec :=
    dec_idle_next (hno _) h
  refine ⟨[sends (symbolOf CMD_RESET a), {}], ?_, ?_⟩
  · rw [emitted_cons, accepts_silent (by simp [Silent]), accepts, RxEscape.readO, he]
    rfl
  · rw [run_cons, run_cons, run_nil, dec_latch (by rw [hrx]; rfl) (by rw [hdec, h]), hrx,
      addrOf_symbolOf, cmdOf_symbolOf]

theorem reset_of_idle {a : Addr} (hne : symbolOf CMD_RESET a ≠ esc) (he : s.rx.state = .idle)
    (h : s.tap.dec.state = .idle) : CanReset esc a s := by
  have hno : ∀ i, consumes s i = false := by
    intro i
    rw [consumes_eq, pending, RxEscape.rxEmptyO, he]
    rfl
  have hrx : (next esc s (sends esc)).rx.state = .escape := by
    simp [next, RxEscape.next, he, rxIn, sends]
  have hdec : (next esc s (sends esc)).tap.dec = s.tap.dec := dec_idle_next (hno _) h
  obtain ⟨is, hbytes, hlatched⟩ := reset_of_escape hne hrx (by rw [hdec, h])
  refine ⟨sends esc :: is, ?_, hlatched⟩
  rw [emitted_cons, hbytes, hrx, accepts, RxEscape.readO, he]
  rfl

/-- Cycles in front that take no byte do not matter, if they leave the receiver where it was between two
    symbols. -/
theorem reset_of_silent {a : Addr} {is : List Input} (his : Silent is)
    (hst : (run (next esc) s is).rx.state = .escape ↔ s.rx.state = .escape)
    (h : CanReset esc a (run (next esc) s is)) : CanReset esc a s := by
  obtain ⟨js, hbytes, hlatched⟩ := h
  refine ⟨is ++ js, ?_, ?_⟩
  · rw [emitted_append, accepts_silent his, hbytes, if_congr hst rfl rfl]
    rfl
  · rw [run_append]
    exact hlatched

/-- With nothing pending the decoder comes to rest first. -/
theorem reset_of_empty {a : Addr} (hInv : Loaded s) (hne : symbolOf CMD_RESET a ≠ esc)
    (hp : pending s = false) : CanReset esc a s := by
  obtain ⟨is, his, hrx, hserved⟩ := (reaches_served hInv : Reaches esc Served s)
  refine reset_of_silent his (by rw [hrx]) ?_
  have hidle : (run (next esc) s is).tap.dec.state = .idle := by
    rcases hserved with hidle | htaken
    · exact hidle
    · have hp' := pending_of_taken htaken
      rw [pending, hrx] at hp'
      rw [pending, hp'] at hp
      cases hp
  cases hst : s.rx.state
  · exact reset_of_idle hne (by rw [hrx, hst]) hidle
  · simp [pending, RxEscape.rxEmptyO, hst] at hp
  · exact reset_of_escape hne (by rw [hrx, hst]) hidle
  · simp [pending, RxEscape.rxEmptyO, hst] at hp

/-- What is pending is taken first, and then the reset finds the way free. -/
theorem reset_of_pending {a : Addr} (hInv : Loaded s) (hne : symbolOf CMD_RESET a ≠ esc)
    (hw : wedged s = false) (hp : pending s = true) : CanReset esc a s := by
  obtain ⟨is, his, hrx, htaken⟩ := (can_of_pending hInv hw hp : CanConsume esc s)
  have hp' := hp
  rw [pending, Bool.not_eq_true', ← hrx] at hp'
  -- one cycle behind the silent run the symbol is taken
  have hfree : (run (next esc) s (is ++ [({} : Input)])).rx.state = .idle := by
    rw [run_append]
    exact RxEscape.next_read hp' (htaken {})
  have hsilent : Silent (is ++ [({} : Input)]) := by
    intro j hj
    rcases List.mem_append.mp hj with hj | hj
    · exact his j hj
    · rw [List.mem_singleton.mp hj]
  have hno : s.rx.state ≠ .escape := by
    intro he
    simp [pending, RxEscape.rxEmptyO, he] at hp
  -- from there a reset goes in as into an empty unit
  refine reset_of_silent hsilent (by rw [hfree]; exact iff_of_false (by simp) hno)
    (reset_of_empty ?_ hne ?_)
  · exact run_of_step_free (loaded_next esc) _ _ hInv
  · rw [pending, RxEscape.rxEmptyO, hfree]
    rfl

/-! ## Every reachable state -/

/-- A state some run from reset leads to. -/
def Reachable (esc : Byte) (s : State) : Prop := ∃ s₀ is, run (next esc) (reset s₀) is = s

/-- **What the host sends can wedge the TAP in one way only.**  In every reachable state: where the
    symbol at the head is a data byte that is not being received, with no `CMD_WRITE` current or about
    to be, nothing is ever read again.  In every other state what is pending can still be consumed
    without a further byte of the host, and a `CMD_RESET` that the host sends afterwards can still
    reach the decoder. -/
theorem pending_consumable_iff (esc : Byte) (s : State) (h : Reachable esc s) :
    (wedged s = true → ∀ js, Always (next esc) (fun s i => consumes s i = false) s js) ∧
    (wedged s = false → (pending s = true → CanConsume esc s) ∧
      ∀ a, symbolOf CMD_RESET a ≠ esc → CanReset esc a s) := by
  obtain ⟨s₀, is, rfl⟩ := h
  have hInv : Loaded (run (next esc) (reset s₀) is) :=
    run_of_step_free (loaded_next esc) is (reset s₀) (loaded_reset s₀)
  refine ⟨fun hw js => wedged_forever hw js, fun hw => ⟨can_of_pending hInv hw, ?_⟩⟩
  intro a hne
  cases hp : pending (run (next esc) (reset s₀) is)
  · exact reset_of_empty hInv hne hp
  · exact reset_of_pending hInv hne hw hp

/-- A read of the IDCODE register, once its symbol is at the head. -/
def readCommand : List Input := [sends ESC, sends (symbolOf CMD_READ ADDR_IDCODE)]

theorem pending_consumable_iff_read :
    pending (run (next ESC) (reset default) readCommand) = true ∧
    CanConsume ESC (run (next ESC) (reset default) readCommand) := by
  have hp : pending (run (next ESC) (reset default) readCommand) = true := by decide +kernel
  have hw : wedged (run (next ESC) (reset default) readCommand) = false := by decide +kernel
  exact ⟨hp, ((pending_consumable_iff ESC _ ⟨default, readCommand, rfl⟩).2 hw).1 hp⟩

/-- A single data byte after reset. -/
def strayByte : List Input := [sends 0]

/-- It is pending and will never be read, and no reset command gets past it. -/
theorem stray_byte_wedges : Reachable ESC (run (next ESC) (reset default) strayByte) ∧
    pending (run (next ESC) (reset default) strayByte) = true ∧
    ¬ CanConsume ESC (run (next ESC) (reset default) strayByte) ∧
    ∀ a, ¬ CanReset ESC a (run (next ESC) (reset default) strayByte) := by
  have hw : wedged (run (next ESC) (reset default) strayByte) = true := by decide +kernel
  have hidle : (run (next ESC) (reset default) strayByte).tap.dec.state = .idle := by
    decide +kernel
  refine ⟨⟨default, strayByte, rfl⟩, by decide +kernel, ?_, ?_⟩
  · rintro ⟨is, -, -, htaken⟩
    have hread := htaken ready
    rw [wedged_unread (wedged_run hw is) ready] at hread
    cases hread
  · rintro a ⟨is, -, hlatched⟩
    have hstay : (run (next ESC) _ is).tap.dec.state = .idle := wedged_dec hw hidle is
    rw [hlatched] at hstay
    cases hstay

end RiscDbgUart.RxTap
