/-
  `uart_tx.sv`: the UART transmitter, with the pause and resume requests it slips in between the
  bytes of its client.

  `BAUD_GEN` and `FSM_CORE` are the two clocked blocks, `FSM` the next-state logic of the second.
  In idle a wanted pause or resume comes before a waiting byte.  Either is a byte of its own, `ESC`
  or `RESUME`, unless the byte sent last was flagged as an escape byte (`last_esc`): then only the
  flag `pausing` changes.

  `CHANNEL_I` clears the registers of `FSM_CORE`, as the reset does, and hands the line to `TX1_I`.

  A byte that is taken is on the line for ten bit times: `Sending` says which bit it is and how long it has
  been there, and `sending_next` is one cycle, with the baud generator's tick as the end of the bit.
  `frame_run` is a whole frame, and `framesTaken_run` cuts the line of any run into the frames of the bytes
  taken and the idle time between them.
-/
import RiscDbgUart.BaudGen
import RiscDbgUart.Clocked.Machine
import RiscDbgUart.UartFrame

set_option linter.unusedVariables false

namespace RiscDbgUart.UartTx

open Clocked

/-! ## The module -/

/-- The parameter `RESUME`. -/
def RESUME : Byte := 0x00

inductive Fsm
  | idle
  | send
deriving DecidableEq, Repr, Inhabited

/-- The registers of `BAUD_GEN` and of `FSM_CORE`: the frame under way and the bit of it, the line, and what
    is remembered of the flow control. -/
structure State where
  baud : BaudGen.State
  state : Fsm
  bitnum : Nat
  frame : BitVec 10
  tx : Bool
  pausing : Bool
  lastEsc : Bool
deriving DecidableEq, Repr, Inhabited

structure Input where
  txStartI : Bool := false
  sendPauseI : Bool := false
  escDetectedI : Bool := false
  channelI : Bool := false
  tx1I : Bool := false
  dataI : Byte := 0
deriving DecidableEq, Repr

/-- `SAMPLE_INTERVAL`, `REMAINDER_INTERVAL = ((CLK_RATE*10) / BAUD_RATE) / 10`, and the interval
    before the first tick. -/
def baudParams (r : Rates) : BaudGen.Params :=
  { sampleInterval := r.sampleInterval
    remainderInterval := integerUnsigned
      (Int.tdiv (Int.tdiv (integer (integer r.clkRate * 10)) (integer r.baudRate)) 10)
    firstInterval := r.sampleInterval }

/-- The registers of `FSM_CORE` as `RST_NI` low or `CHANNEL_I` leaves them. -/
def cleared (s : State) : State :=
  { s with
    state := .idle, bitnum := 0, frame := 0, tx := true, pausing := false, lastEsc := false }

/-- Loading a byte into the frame register. -/
def loadFrame (b : Byte) (s : State) : State :=
  { s with bitnum := 0, frame := frameOf b, state := .send }

/-- `FSM`.  In `idle` a pause or a resume that is wanted goes before a byte of the client, and either is
    kept back behind an escape byte; in `send` the bits follow the ticks, and the stop bit ends the frame. -/
def fsm (s : State) (i : Input) : State :=
  match s.state with
  | .idle =>
    let n := { s with tx := true }
    if i.sendPauseI && !s.pausing then
      let n := { n with pausing := true }
      -- no escape byte behind an escape byte
      if !s.lastEsc then loadFrame ESC n else n
    else if !i.sendPauseI && s.pausing then
      let n := { n with pausing := false }
      if !s.lastEsc then loadFrame RESUME n else n
    else if i.txStartI then loadFrame i.dataI { n with lastEsc := i.escDetectedI }
    else n
  | .send =>
    let n := { s with tx := s.frame.getLsbD s.bitnum }
    if s.baud.baudtick then
      if s.bitnum = 9 then { n with state := .idle } else { n with bitnum := (s.bitnum + 1) % 2 ^ 4 }
    else n

/-- The edge with `RST_NI` low. -/
def reset (r : Rates) (s : State) : State :=
  { cleared s with baud := BaudGen.held (baudParams r) }

/-- The edge with `RST_NI` high. -/
def next (r : Rates) (s : State) (i : Input) : State :=
  { (if i.channelI then cleared s else fsm s i) with
    baud := BaudGen.next (baudParams r) s.baud (s.state == .idle) }

/-- `TX_BUSY_O` -/
def txBusyO (s : State) : Bool := s.state != .idle

/-- `TX_DONE_O` -/
def txDoneO (s : State) : Bool := s.state == .send && s.baud.baudtick && s.bitnum == 9

/-- `TX0_O` -/
def tx0O (s : State) (i : Input) : Bool := (i.tx1I && i.channelI) || (s.tx && !i.channelI)

/-! ## What it frames -/

/-- A pause begins. -/
def pauses (s : State) (i : Input) : Bool :=
  s.state == .idle && (i.sendPauseI && !s.pausing)

/-- A pause ends. -/
def resumes (s : State) (i : Input) : Bool :=
  s.state == .idle && (!i.sendPauseI && s.pausing)

/-- The byte of the client is taken. -/
def takes (s : State) (i : Input) : Bool :=
  s.state == .idle && i.sendPauseI == s.pausing && i.txStartI

/-- The bytes taken from the client. -/
def taken (s : State) (i : Input) : List Byte := if takes s i then [i.dataI] else []

/-- The bytes it frames, its own included.  Behind an escape byte of the client the transmitter does not
    say that it pauses, as its own would be taken for the second half. -/
def framed (s : State) (i : Input) : List Byte :=
  if pauses s i && !s.lastEsc then [ESC]
  else if resumes s i && !s.lastEsc then [RESUME]
  else taken s i

/-- A frame of its own begins. -/
def injects (s : State) (i : Input) : Bool := (pauses s i || resumes s i) && !s.lastEsc

theorem next_state_idle {r : Rates} {s : State} {i : Input} (hs : s.state = .idle)
    (hc : i.channelI = false) :
    (next r s i).state = if injects s i || takes s i then .send else .idle := by
  simp only [next, hc, fsm, hs, injects, pauses, resumes, takes, loadFrame]
  cases i.sendPauseI <;> cases s.pausing <;> cases s.lastEsc <;> cases i.txStartI <;> simp

theorem next_pausing {r : Rates} {s : State} {i : Input} (hc : i.channelI = false) :
    (next r s i).pausing = if pauses s i then true else if resumes s i then false else s.pausing := by
  cases hs : s.state
  · simp only [next, hc, fsm, hs, pauses, resumes, loadFrame]
    cases i.sendPauseI <;> cases s.pausing <;> cases s.lastEsc <;> cases i.txStartI <;> simp
  · simp only [next, hc, fsm, hs, pauses, resumes]
    simp only [Bool.false_eq_true, if_false]
    split_ifs <;> simp_all

theorem next_lastEsc {r : Rates} {s : State} {i : Input} (hc : i.channelI = false) :
    (next r s i).lastEsc = if takes s i then i.escDetectedI else s.lastEsc := by
  cases hs : s.state
  · simp only [next, hc, fsm, hs, takes, loadFrame]
    cases i.sendPauseI <;> cases s.pausing <;> cases s.lastEsc <;> cases i.txStartI <;> simp
  · simp only [next, hc, fsm, hs, takes]
    simp only [Bool.false_eq_true, if_false]
    split_ifs <;> simp_all

/-- While a pause begins or ends nothing is taken, although the transmitter is not busy. -/
theorem takes_of_pauses {s : State} {i : Input} (h : pauses s i = true) : takes s i = false := by
  rw [pauses, Bool.and_eq_true, Bool.and_eq_true, Bool.not_eq_true'] at h
  rw [takes, h.2.1, h.2.2]
  simp

theorem takes_of_resumes {s : State} {i : Input} (h : resumes s i = true) : takes s i = false := by
  rw [resumes, Bool.and_eq_true, Bool.and_eq_true, Bool.not_eq_true'] at h
  rw [takes, h.2.1, h.2.2]
  simp

theorem pausing_of_pauses {s : State} {i : Input} (h : pauses s i = true) :
    s.pausing = false := by
  rw [pauses, Bool.and_eq_true, Bool.and_eq_true, Bool.not_eq_true'] at h
  exact h.2.2

/-- A frame leaves the client and the request alone: both are looked at in `idle` only. -/
theorem busy_nothing {s : State} (i : Input) (h : txBusyO s = true) :
    injects s i = false ∧ takes s i = false := by
  have hs : (s.state == Fsm.idle) = false := by
    rw [txBusyO, bne, Bool.not_eq_true'] at h
    exact h
  rw [injects, pauses, resumes, takes, hs]
  simp

/-! ## One frame on the line -/

variable {r : Rates} {s : State} {i : Input} {b : Byte} {n k : Nat}

/-- The cycles per bit, `CLK_RATE / BAUD_RATE`. -/
def bitTime (r : Rates) : Nat := r.clkRate / r.baudRate

/-- At least 24 cycles per bit, and no overflow in the remainder interval. -/
structure Workable (r : Rates) : Prop where
  ratio : 24 ≤ bitTime r
  clk : 10 * r.clkRate < 2 ^ 31

theorem Workable.bitTime_lt (h : Workable r) : bitTime r < 2 ^ 31 := by
  have hclk := h.clk
  have hle : bitTime r ≤ r.clkRate := Nat.div_le_self _ _
  omega

theorem Workable.baud_lt (h : Workable r) : r.baudRate < 2 ^ 31 := by
  have hratio := h.ratio
  have hclk := h.clk
  by_contra hb
  rw [bitTime, Nat.div_eq_of_lt (by omega)] at hratio
  omega

theorem sampleInterval_eq (h : Workable r) : r.sampleInterval = bitTime r := by
  have hclk := h.clk
  have hlt := h.bitTime_lt
  rw [Rates.sampleInterval, integer_eq (by omega), integer_eq h.baud_lt, ← Int.ofNat_tdiv,
    ← bitTime, integerUnsigned_eq (by omega)]

/-- The remainder interval is the sample interval again, so it never delays a tick within a frame. -/
theorem baudParams_eq (h : Workable r) : baudParams r = ⟨bitTime r, bitTime r, bitTime r⟩ := by
  have hclk := h.clk
  have hlt := h.bitTime_lt
  have hprod : integer (integer r.clkRate * 10) = ((r.clkRate * 10 : Nat) : Int) := by
    rw [integer_eq (by omega)]
    exact integer_eq (by rw [Nat.mul_comm]; exact hclk)
  have hten : Int.tdiv ((r.clkRate * 10 / r.baudRate : Nat) : Int) 10 = (bitTime r : Int) := by
    rw [show (10 : Int) = ((10 : Nat) : Int) from rfl, ← Int.ofNat_tdiv,
      Nat.div_div_eq_div_mul, Nat.mul_div_mul_right _ _ (by omega), bitTime]
  rw [baudParams, sampleInterval_eq h, hprod, integer_eq h.baud_lt, ← Int.ofNat_tdiv, hten,
    integerUnsigned_eq (by omega)]

theorem valid (h : Workable r) : BaudGen.Valid (baudParams r) := by
  have hratio := h.ratio
  have hlt := h.bitTime_lt
  rw [baudParams_eq h]
  exact ⟨by simp only; omega, le_rfl, by simp only; omega⟩

/-- Within a frame no tick is delayed, so the ticks are the bit times. -/
theorem tickTime_eq (h : Workable r) (hk : k ≤ 10) :
    BaudGen.tickTime (baudParams r) k = (k + 1) * bitTime r := by
  have hratio := h.ratio
  have hlt := h.bitTime_lt
  have hperiod : BaudGen.period (baudParams r) = bitTime r := by
    rw [BaudGen.period, BaudGen.loadRemainder, baudParams_eq h]
    show BaudGen.load (bitTime r) (bitTime r) + 1 = bitTime r
    rw [BaudGen.load_eq (by omega) le_rfl (by omega)]
    omega
  have hrest : (k + 1) / bitTime r = 0 := Nat.div_eq_of_lt (by omega)
  rw [BaudGen.tickTime, hperiod, hrest, baudParams_eq h, Nat.succ_mul]
  show bitTime r + k * bitTime r + 0 = k * bitTime r + bitTime r
  omega

/-- At rest, with a high line and nothing to resume. -/
structure Idle (s : State) : Prop where
  state : s.state = .idle
  tx : s.tx = true
  pausing : s.pausing = false

/-- `n` cycles after byte `b` has been loaded, with bit `k` selected.  The baud generator is where it has to
    be for that (`ticks`), and the line shows the level of the cycle before. -/
structure Sending (r : Rates) (b : Byte) (n k : Nat) (s : State) : Prop where
  state : s.state = .send
  pausing : s.pausing = false
  frame : s.frame = frameOf b
  bitnum : s.bitnum = k
  last : k ≤ 9
  ticks : BaudGen.At (baudParams r) s.baud n (if s.baud.baudtick then k + 1 else k)
  after : k * bitTime r < n ∨ n = 0 ∧ k = 0
  before : n ≤ (k + 1) * bitTime r
  tick : s.baud.baudtick = true ↔ n = (k + 1) * bitTime r
  tx : s.tx = if n = 0 then true else level (bitTime r) b (n - 1)

theorem next_state (hc : i.channelI = false) : next r s i
    = { fsm s i with baud := BaudGen.next (baudParams r) s.baud (s.state == .idle) } := by
  simp [next, hc]

/-- A byte is loaded: its frame is selected at the start bit, which the line shows two cycles later. -/
theorem sending_start (h : Workable r) (hs : s.state = .idle) (hp : s.pausing = false)
    (hi : i.sendPauseI = false) (hc : i.channelI = false) (hstart : i.txStartI = true) :
    Sending r i.dataI 0 0 (next r s i) := by
  have hfsm : fsm s i = loadFrame i.dataI { s with tx := true, lastEsc := i.escDetectedI } := by
    simp [fsm, hs, hp, hi, hstart]
  have hratio := h.ratio
  rw [next_state hc, hfsm, hs]
  refine ⟨rfl, hp, rfl, rfl, by omega, BaudGen.at_held (valid h), .inr ⟨rfl, rfl⟩, by omega, ?_, rfl⟩
  constructor
  · intro ht
    cases ht
  · intro hn
    omega

/-- While it sends, the line follows the selected bit, and a tick selects the next one or ends the frame. -/
theorem fsm_send (hs : s.state = .send) : fsm s i = { s with
    tx := s.frame.getLsbD s.bitnum
    state := if s.baud.baudtick && s.bitnum == 9 then .idle else .send
    bitnum := if s.baud.baudtick && s.bitnum != 9 then (s.bitnum + 1) % 2 ^ 4 else s.bitnum } := by
  simp only [fsm, hs]
  cases s.baud.baudtick
  · simp
  · by_cases h9 : s.bitnum = 9 <;> simp [h9]

/-- The selected bit is the level that is due. -/
theorem Sending.selected (hs : Sending r b n k s) :
    (frameOf b).getLsbD k = level (bitTime r) b n := by
  rcases hs.after with hafter | ⟨rfl, rfl⟩
  · exact (level_bit b hs.last hafter hs.before).symm
  · rw [level_zero, frameOf_start]

/-- Before its last tick a frame has bits left, the stop bit being the last. -/
theorem Sending.early (hs : Sending r b n k s) (hn : n < 10 * bitTime r)
    (ht : s.baud.baudtick = true) : k ≤ 8 := by
  have hlt : (k + 1) * bitTime r < 10 * bitTime r := hs.tick.mp ht ▸ hn
  have := Nat.lt_of_mul_lt_mul_right hlt
  omega

theorem Sending.after_next (h : Workable r) (hs : Sending r b n k s) :
    (if s.baud.baudtick then k + 1 else k) * bitTime r < n + 1 := by
  split_ifs with ht
  · rw [← hs.tick.mp ht]
    exact Nat.lt_succ_self n
  · rcases hs.after with hafter | ⟨rfl, rfl⟩
    · exact Nat.lt_succ_of_lt hafter
    · simp

/-- What a cycle of a frame does: the line gets the selected bit, a tick selects the next one. -/
theorem next_sending (hs : Sending r b n k s) (hn : n < 10 * bitTime r) (hc : i.channelI = false) :
    next r s i = { s with
      tx := level (bitTime r) b n
      bitnum := if s.baud.baudtick then k + 1 else k
      baud := BaudGen.next (baudParams r) s.baud false } := by
  rw [next_state hc, fsm_send hs.state, hs.frame, hs.bitnum, hs.selected, hs.state]
  cases ht : s.baud.baudtick
  · simp
    rfl
  · have hk := hs.early hn ht
    have h9 : k ≠ 9 := by omega
    have hmod : (k + 1) % 2 ^ 4 = k + 1 := Nat.mod_eq_of_lt (by omega)
    rw [hmod]
    simp [h9]
    rfl

/-- **One cycle of a frame**, up to its last tick.  Whatever the client offers meanwhile has no part in it. -/
theorem sending_next (h : Workable r) (hs : Sending r b n k s) (hn : n < 10 * bitTime r)
    (hc : i.channelI = false) :
    Sending r b (n + 1) (if s.baud.baudtick then k + 1 else k) (next r s i) := by
  have hafter := hs.after_next h
  have hlast : (if s.baud.baudtick then k + 1 else k) ≤ 9 := by
    split_ifs with ht
    · have := hs.early hn ht
      omega
    · exact hs.last
  have hticks := hs.ticks
  rw [next_sending hs hn hc]
  generalize (if s.baud.baudtick then k + 1 else k) = j at hafter hlast hticks
  have htime := tickTime_eq (k := j) h (by omega)
  have htx : level (bitTime r) b n
      = if n + 1 = 0 then true else level (bitTime r) b (n + 1 - 1) := rfl
  -- the cycle ends a bit, or not
  rcases BaudGen.at_next (valid h) hticks with ⟨hlt, hno, hat⟩ | ⟨hdue, hyes, hat⟩
  · rw [htime] at hlt
    refine ⟨hs.state, hs.pausing, hs.frame, rfl, hlast, ?_, .inl hafter, by omega, ?_, htx⟩
    · simpa only [hno, Bool.false_eq_true, if_false] using hat
    · simp only [hno]
      constructor
      · intro hf
        cases hf
      · intro hn'
        omega
  · rw [htime] at hdue
    refine ⟨hs.state, hs.pausing, hs.frame, rfl, hlast, ?_, .inl hafter, by omega, ?_, htx⟩
    · simpa only [hyes, if_true] using hat
    · simp only [hyes, true_iff]
      exact hdue

/-- The last tick ends the frame with the line high, which is the level of the stop bit. -/
theorem sending_last (h : Workable r) (hs : Sending r b (10 * bitTime r) k s)
    (hc : i.channelI = false) : Idle (next r s i) := by
  have hratio := h.ratio
  have hk : k = 9 := by
    have hle := Nat.le_of_mul_le_mul_right hs.before (by omega)
    have := hs.last
    omega
  have ht : s.baud.baudtick = true := hs.tick.mpr (by rw [hk])
  have hbit := hs.bitnum
  rw [hk] at hbit
  rw [next_state hc, fsm_send hs.state, ht, hbit, hs.frame]
  exact ⟨rfl, frameOf_stop b, hs.pausing⟩

/-! ## The line of a run -/

/-- The channel is this one and no pause is asked for. -/
def plain (i : Input) : Bool := !i.sendPauseI && !i.channelI

/-- The line, cycle after cycle. -/
def line (s : State) (i : Input) : List Bool := [tx0O s i]

theorem plain_iff (i : Input) : plain i = true ↔ i.sendPauseI = false ∧ i.channelI = false := by
  rw [plain, Bool.and_eq_true, Bool.not_eq_true', Bool.not_eq_true']

theorem line_eq (hi : plain i = true) : line s i = [s.tx] := by
  rw [line, tx0O, ((plain_iff i).mp hi).2]
  simp

/-- From its loading to the end of its stop bit a frame takes nothing from the client. -/
theorem sending_run (h : Workable r) {js : List Input} (hj : ∀ j ∈ js, plain j = true)
    (hs : Sending r b n k s) (hlen : n + js.length = 10 * bitTime r + 1) :
    emitted (next r) line s js
        = (List.range' n js.length).map (fun m => if m = 0 then true else level (bitTime r) b (m - 1)) ∧
      emitted (next r) taken s js = [] ∧ Idle (run (next r) s js) := by
  induction js generalizing s n k with
  -- no cycles left: then the frame would be over already
  | nil =>
    exfalso
    have hle : (k + 1) * bitTime r ≤ 10 * bitTime r :=
      Nat.mul_le_mul_right _ (by have := hs.last; omega)
    have := hs.before
    rw [List.length_nil] at hlen
    omega
  | cons j js ih =>
    have hj0 := hj j (List.mem_cons_self ..)
    have hc := ((plain_iff j).mp hj0).2
    have hjs : ∀ j ∈ js, plain j = true := fun a ha => hj a (List.mem_cons_of_mem j ha)
    have hno : taken s j = [] := by
      simp [taken, takes, hs.state]
    rw [List.length_cons] at hlen ⊢
    rw [emitted_cons, emitted_cons, line_eq hj0, hs.tx, hno, List.range'_succ, List.map_cons]
    rcases Nat.lt_or_ge n (10 * bitTime r) with hn | hn
    · -- a cycle inside the frame
      obtain ⟨hline, htaken, hidle⟩ := ih hjs (sending_next h hs hn hc) (by omega)
      exact ⟨by rw [hline]; rfl, htaken, hidle⟩
    · -- the last cycle: the client is free again
      have hend : n = 10 * bitTime r := by omega
      have hnil : js = [] := List.length_eq_zero_iff.mp (by omega)
      rw [hnil]
      exact ⟨rfl, rfl, sending_last h (hend ▸ hs) hc⟩

theorem idle_next (hs : Idle s) (hi : plain i = true) (hno : i.txStartI = false) :
    Idle (next r s i) := by
  obtain ⟨hp, hc⟩ := (plain_iff i).mp hi
  have hfsm : fsm s i = { s with tx := true } := by
    simp [fsm, hs.state, hs.pausing, hp, hno]
  rw [next_state hc, hfsm]
  exact ⟨hs.state, rfl, hs.pausing⟩

/-- At rest the line stays high, as long as the client has no byte and nobody wants a pause. -/
theorem idle_run {js : List Input} (hj : ∀ j ∈ js, plain j = true ∧ j.txStartI = false)
    (hs : Idle s) : emitted (next r) line s js = List.replicate js.length true ∧
      emitted (next r) taken s js = [] ∧ Idle (run (next r) s js) := by
  induction js generalizing s with
  | nil => exact ⟨rfl, rfl, hs⟩
  | cons j js ih =>
    obtain ⟨hj0, hno⟩ := hj j (List.mem_cons_self ..)
    obtain ⟨hline, htaken, hidle⟩ := ih (fun a ha => hj a (List.mem_cons_of_mem j ha))
      (idle_next (r := r) hs hj0 hno)
    have h0 : taken s j = [] := by simp [taken, takes, hno]
    refine ⟨?_, ?_, hidle⟩
    · rw [emitted_cons, hline, line_eq hj0, hs.tx]
      rfl
    · rw [emitted_cons, htaken, h0]
      rfl

/-- A byte that is taken, with the cycles until the transmitter can take the next one.  The line lags behind
    the registers by two cycles, which is why the two ones stand at different ends of the equation. -/
theorem frame_run (h : Workable r) {js : List Input} (hi : plain i = true)
    (hj : ∀ j ∈ js, plain j = true) (hs : Idle s) (hstart : i.txStartI = true)
    (hlen : js.length = 10 * bitTime r + 1) :
    emitted (next r) line s (i :: js) ++ [true, true]
        = [true, true] ++ frameLine (bitTime r) i.dataI ∧
      emitted (next r) taken s (i :: js) = [i.dataI] ∧ Idle (run (next r) s (i :: js)) := by
  obtain ⟨hp, hc⟩ := (plain_iff i).mp hi
  have hstarted := sending_start h hs.state hs.pausing hp hc hstart
  obtain ⟨hline, htaken, hidle⟩ := sending_run h hj hstarted (by rw [hlen, Nat.zero_add])
  have h0 : taken s i = [i.dataI] := by simp [taken, takes, hs.state, hs.pausing, hp, hstart]
  refine ⟨?_, by rw [emitted_cons, htaken, h0]; rfl, hidle⟩
  have hshift : (List.range' 1 (10 * bitTime r)).map
        (fun m => if m = 0 then true else level (bitTime r) i.dataI (m - 1))
      = (List.range (10 * bitTime r)).map (level (bitTime r) i.dataI) := by
    rw [List.range'_eq_map_range, List.map_map]
    refine List.map_congr_left fun m _ => ?_
    rw [Function.comp_apply, if_neg (by omega), Nat.add_sub_cancel_left]
  have hratio := h.ratio
  rw [emitted_cons, hline, line_eq hi, hs.tx, hlen, List.range'_succ, List.map_cons, Nat.zero_add,
    hshift, frameLine_eq (by omega)]
  rfl

/-- The run ends at rest, and its line is the frames of the bytes taken in it, two cycles later: one for the
    register of the line, one for the load. -/
def FramesTaken (r : Rates) (s : State) (is : List Input) : Prop :=
  ∃ l, Framed (bitTime r) (emitted (next r) taken s is) l ∧
    emitted (next r) line s is ++ [true, true] = [true, true] ++ l ∧ Idle (run (next r) s is)

theorem framesTaken_quiet {js : List Input} (hj : ∀ j ∈ js, plain j = true ∧ j.txStartI = false)
    (hs : Idle s) : FramesTaken r s js := by
  obtain ⟨hline, htaken, hidle⟩ := idle_run (r := r) hj hs
  refine ⟨List.replicate js.length true, ?_, ?_, hidle⟩
  · rw [htaken]
    exact framed_idle _ _
  · have htwo : [true, true] = List.replicate 2 true := rfl
    rw [hline, htwo, List.replicate_append_replicate, List.replicate_append_replicate,
      Nat.add_comm]

theorem framesTaken_idle {is : List Input} (hs : Idle s) (hi : plain i = true)
    (hno : i.txStartI = false) (h : FramesTaken r (next r s i) is) :
    FramesTaken r s (i :: is) := by
  obtain ⟨l, hl, hline, hidle⟩ := h
  refine ⟨true :: l, ?_, ?_, hidle⟩
  · rw [emitted_cons, show taken s i = [] by simp [taken, takes, hno]]
    exact .idle hl
  · rw [emitted_cons, line_eq hi, hs.tx, List.append_assoc, hline]
    rfl

theorem framesTaken_frame (h : Workable r) {fs is : List Input} (hi : plain i = true)
    (hf : ∀ j ∈ fs, plain j = true) (hs : Idle s) (hstart : i.txStartI = true)
    (hlen : fs.length = 10 * bitTime r + 1)
    (hrest : Idle (run (next r) s (i :: fs)) → FramesTaken r (run (next r) s (i :: fs)) is) :
    FramesTaken r s (i :: (fs ++ is)) := by
  obtain ⟨hline, htaken, hidle⟩ := frame_run h hi hf hs hstart hlen
  obtain ⟨l, hl, hline', hidle'⟩ := hrest hidle
  refine ⟨frameLine (bitTime r) i.dataI ++ l, ?_, ?_, ?_⟩
  · rw [← List.cons_append, emitted_append, htaken]
    exact .frame hl
  · rw [← List.cons_append, emitted_append, List.append_assoc, hline', ← List.append_assoc, hline,
      List.append_assoc]
  · rw [← List.cons_append, run_append]
    exact hidle'

/-- **The line of a run** that ends with a quiet frame time: the frames of the bytes taken, in order, with
    idle line between them.  The induction is on the length of the run, and cuts off a frame at a time. -/
theorem framesTaken_run (h : Workable r) {is js : List Input} (hi : ∀ i ∈ is, plain i = true)
    (hj : ∀ j ∈ js, plain j = true ∧ j.txStartI = false) (hs : Idle s)
    (hlen : 10 * bitTime r + 1 ≤ js.length) : FramesTaken r s (is ++ js) := by
  induction hn : is.length using Nat.strong_induction_on generalizing s is with
  | _ n ih =>
    cases is with
    | nil => exact framesTaken_quiet hj hs
    | cons i is =>
      have hi0 := hi i (List.mem_cons_self ..)
      have hrest : ∀ a ∈ is, plain a = true := fun a ha => hi a (List.mem_cons_of_mem i ha)
      rw [List.length_cons] at hn
      cases hstart : i.txStartI
      · exact framesTaken_idle hs hi0 hstart
          (ih is.length (by omega) hrest (idle_next hs hi0 hstart) rfl)
      -- the cycles of the frame, and what comes behind it
      have hcut : is ++ js = (is ++ js).take (10 * bitTime r + 1)
          ++ (is.drop (10 * bitTime r + 1) ++ js.drop (10 * bitTime r + 1 - is.length)) := by
        rw [← List.drop_append, List.take_append_drop]
      have hplain : ∀ a ∈ (is ++ js).take (10 * bitTime r + 1), plain a = true := by
        intro a ha
        rcases List.mem_append.mp (List.mem_of_mem_take ha) with ha | ha
        · exact hrest a ha
        · exact (hj a ha).1
      rw [List.cons_append, hcut]
      refine framesTaken_frame h hi0 hplain hs hstart (by simp; omega) fun hidle => ?_
      rcases Nat.lt_or_ge is.length (10 * bitTime r + 1) with hshort | hlong
      · rw [List.drop_eq_nil_of_le hshort.le, List.nil_append]
        exact framesTaken_quiet (fun a ha => hj a (List.mem_of_mem_drop ha)) hidle
      · rw [Nat.sub_eq_zero_of_le hlong, List.drop_zero]
        exact ih _ (by rw [List.length_drop]; omega)
          (fun a ha => hrest a (List.mem_of_mem_drop ha)) hidle rfl

end RiscDbgUart.UartTx
