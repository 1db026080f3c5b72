/-
  `uart_rx.sv`: the UART receiver.

  `STABILIZE_RX` moves the line through `rx_buf` and `rx`, four cycles in all; everything else of the
  module looks at `rx` only, and at `rx_prev`, which is `rx` one cycle later.  So the receiver is a
  delay line of four cells with a `Core` behind it (`emitted_core`), and what is said about it is said
  about the core first.

  The core waits for a falling edge, then lets its baud generator run and shifts `rx` into
  `uart_frame` at each of ten ticks, the first half a bit after the edge.  One cycle after the tenth
  it looks at the start and the stop bit: if they are in order the byte is announced and the core
  waits for the next edge, otherwise it keeps sampling and reports the other channel.

  `Phase` follows a frame through the core, from the edge to the cycle behind the byte, and `phase_next` is
  one cycle of it.  The rates come in by `Paced` only: the generator counts `S` cycles per bit, half of them
  before the first tick.  A tick then drifts by at most a cycle for each tick before it
  (`tickTime_bounds`), and the samples stay inside their bits (`sample_level`).
-/
import RiscDbgUart.BaudGen
import RiscDbgUart.Clocked.Machine
import RiscDbgUart.UartFrame

set_option linter.unusedVariables false

namespace RiscDbgUart.UartRx

open Clocked

/-! ## The module -/

/-- The registers of `BAUD_GEN` and `CAPTURE_FRAME`, and `rx_prev`: everything but the delay line. -/
structure Core where
  rxPrev : Bool
  baud : BaudGen.State
  uartFrame : BitVec 10
  keepSampling : Bool
  bitCount : Nat
  rxDoneO : Bool
  channel : Bool
  rxFinished : Bool
  dataO : Byte
deriving DecidableEq, Repr, Inhabited

/-- The two stages of the line (`rx_buf`, `rx`) and the core behind them. -/
structure State where
  rxBuf : BitVec 3
  rx : Bool
  core : Core
deriving DecidableEq, Repr, Inhabited

/-- `SAMPLE_INTERVAL`, `REMAINDER_INTERVAL = (CLK_RATE % BAUD_RATE)*10 / BAUD_RATE`, and half a
    sample interval before the first tick. -/
def baudParams (r : Rates) : BaudGen.Params :=
  { sampleInterval := r.sampleInterval
    remainderInterval := integerUnsigned
      (Int.tdiv (integer (Int.tmod (integer r.clkRate) (integer r.baudRate) * 10))
        (integer r.baudRate))
    firstInterval := r.sampleInterval / 2 }

/-- The part of `CAPTURE_FRAME` before `if (rx_finished)`: a falling edge starts the sampling, and every tick
    takes a bit, the tenth of which ends the window. -/
def sample (s : Core) (rx : Bool) : Core :=
  let n := { s with rxDoneO := false }
  if !s.keepSampling then
    if s.rxPrev && !rx then { n with keepSampling := true } else n
  else if s.baud.baudtick then
    let n := { n with uartFrame := BitVec.ofBool rx ++ s.uartFrame.extractLsb' 1 9 }
    if s.bitCount > 0 then { n with bitCount := s.bitCount - 1 }
    else { n with bitCount := 9, rxFinished := true }
  else n

/-- `CAPTURE_FRAME`; `n` is what `sample` has scheduled.  A window that looks like a frame gives its byte and
    ends the sampling; any other one is taken for the other channel, and the next window begins. -/
def capture (s n : Core) : Core :=
  if s.rxFinished then
    let n := { n with rxFinished := false }
    if !s.uartFrame.getLsbD 0 && s.uartFrame.getLsbD 9 then
      { n with
        channel := false
        keepSampling := false
        dataO := s.uartFrame.extractLsb' 1 8
        rxDoneO := true }
    else { n with keepSampling := true, channel := true }
  else n

/-- Everything behind `rx`.  The generator is held while the core is not sampling, so its first interval
    starts with the falling edge. -/
def Core.next (r : Rates) (s : Core) (rx : Bool) : Core :=
  { capture s (sample s rx) with
    rxPrev := rx
    baud := BaudGen.next (baudParams r) s.baud (!s.keepSampling) }

/-- The edge with `RST_NI` low.  The delay line is high then, as if the line had been idle. -/
def reset (r : Rates) : State :=
  { rxBuf := BitVec.allOnes 3
    rx := true
    core :=
      { rxPrev := true, baud := BaudGen.held (baudParams r), uartFrame := BitVec.allOnes 10
        keepSampling := false, bitCount := 9, rxDoneO := false, channel := false
        rxFinished := false, dataO := 0 } }

/-- The edge with `RST_NI` high: the line moves up by one register, and the core sees the last one. -/
def next (r : Rates) (s : State) (rx0I : Bool) : State :=
  { rxBuf := BitVec.ofBool rx0I ++ s.rxBuf.extractLsb' 1 2
    rx := s.rxBuf.getLsbD 0
    core := s.core.next r s.rx }

/-- `CHANNEL_O` -/
def channelO (s : State) : Bool := s.core.channel

/-- `RX1_O` with `RST_NI` high. -/
def rx1O (s : State) : Bool := s.core.channel && s.core.uartFrame.getLsbD 0

/-- The byte announced by `RX_DONE_O`. -/
def Core.received (s : Core) : List Byte := if s.rxDoneO then [s.dataO] else []

/-! ## The delay line -/

variable {r : Rates} {b : Byte}

/-- What is on its way to the core. -/
def pipe (s : State) : List Bool :=
  [s.rx, s.rxBuf.getLsbD 0, s.rxBuf.getLsbD 1, s.rxBuf.getLsbD 2]

theorem pipe_next (s : State) (i : Bool) : pipe (next r s i) = (pipe s).tail ++ [i] := by
  have h : ∀ k, (BitVec.ofBool i ++ s.rxBuf.extractLsb' 1 2).getLsbD k
      = if k < 2 then s.rxBuf.getLsbD (1 + k) else (BitVec.ofBool i).getLsbD (k - 2) := by
    intro k
    rw [BitVec.getLsbD_append, BitVec.getLsbD_extractLsb']
    split_ifs with hk <;> simp [hk]
  simp only [pipe, next, h]
  cases i <;> rfl

/-- The core sees the line after what is in the delay line, and four cycles of the line are still under way
    to it at the end. -/
theorem emitted_core {β : Type} (out : Core → List β) (s : State) (ls : List Bool) :
    emitted (next r) (fun s _ => out s.core) s ls
      = emitted (Core.next r) (fun c _ => out c) s.core ((pipe s ++ ls).take ls.length) := by
  induction ls generalizing s with
  | nil => rfl
  | cons i ls ih =>
    rw [emitted_cons, ih, pipe_next, List.append_assoc]
    rfl

theorem always_core (P : Core → Prop) (s : State) (ls : List Bool) :
    Always (next r) (fun s _ => P s.core) s ls
      ↔ Always (Core.next r) (fun c _ => P c) s.core ((pipe s ++ ls).take ls.length) := by
  induction ls generalizing s with
  | nil => exact Iff.rfl
  | cons i ls ih =>
    rw [Always, ih, pipe_next, List.append_assoc]
    exact Iff.rfl

/-! ## One frame -/

/-- The core waits for a falling edge, and nothing is being announced. -/
structure Armed (s : Core) : Prop where
  keepSampling : s.keepSampling = false
  rxFinished : s.rxFinished = false
  rxDoneO : s.rxDoneO = false
  channel : s.channel = false
  bitCount : s.bitCount = 9

/-- `x` cycles after the falling edge, with the bits below `k` sampled and at the top of the frame register. -/
structure Sampling (r : Rates) (b : Byte) (x k : Nat) (s : Core) : Prop where
  keepSampling : s.keepSampling = true
  rxFinished : s.rxFinished = false
  rxDoneO : s.rxDoneO = false
  channel : s.channel = false
  bitCount : s.bitCount = 9 - k
  last : k ≤ 9
  started : 0 < x
  ticks : BaudGen.At (baudParams r) s.baud (x - 1) (if s.baud.baudtick then k + 1 else k)
  before : s.baud.baudtick = false → x ≤ BaudGen.tickTime (baudParams r) k
  tick : s.baud.baudtick = true → x = BaudGen.tickTime (baudParams r) k + 1
  sampled : ∀ m < k, s.uartFrame.getLsbD (10 - k + m) = (frameOf b).getLsbD m

/-- All ten bits have been sampled, and the core will look at them in this cycle. -/
structure Finished (r : Rates) (b : Byte) (x : Nat) (s : Core) : Prop where
  keepSampling : s.keepSampling = true
  rxFinished : s.rxFinished = true
  rxDoneO : s.rxDoneO = false
  channel : s.channel = false
  bitCount : s.bitCount = 9
  time : x = BaudGen.tickTime (baudParams r) 9 + 2
  tick : s.baud.baudtick = false
  sampled : ∀ m < 10, s.uartFrame.getLsbD m = (frameOf b).getLsbD m

/-- The byte is being announced.  It takes one cycle, in which the core waits for an edge already. -/
structure Announcing (r : Rates) (b : Byte) (x : Nat) (s : Core) : Prop where
  keepSampling : s.keepSampling = false
  rxFinished : s.rxFinished = false
  rxDoneO : s.rxDoneO = true
  channel : s.channel = false
  bitCount : s.bitCount = 9
  time : x = BaudGen.tickTime (baudParams r) 9 + 3
  dataO : s.dataO = b

/-- **The life of a frame**: what the core can be like `x` cycles after the falling edge, and what it
    has announced of the frame before. -/
inductive Phase (r : Rates) (b : Byte) : Nat → List Byte → Core → Prop
  | armed {s} : Armed s → s.rxPrev = true → Phase r b 0 [] s
  | sampling {x k s} : Sampling r b x k s → Phase r b x [] s
  | finished {x s} : Finished r b x s → Phase r b x [] s
  | announcing {x s} : Announcing r b x s → Phase r b x [] s
  | rest {x s} : Armed s → BaudGen.tickTime (baudParams r) 9 + 4 ≤ x → Phase r b x [b] s

variable {S x k : Nat} {s : Core}

/-- The generator is set up for `S` cycles per bit and half of them to the first sample. -/
structure Paced (r : Rates) (S : Nat) : Prop where
  valid : BaudGen.Valid (baudParams r)
  sample : (baudParams r).sampleInterval = S
  first : (baudParams r).firstInterval = S / 2

/-- Half a bit after its start, and at most one cycle later for each tick so far. -/
theorem tickTime_bounds (h : Paced r S) (k : Nat) :
    k * S + S / 2 ≤ BaudGen.tickTime (baudParams r) k ∧
    BaudGen.tickTime (baudParams r) k ≤ k * S + S / 2 + (k + 1) := by
  have hle : (k + 1) / BaudGen.period (baudParams r) ≤ k + 1 := Nat.div_le_self _ _
  rw [BaudGen.tickTime, h.sample, h.first]
  generalize (k + 1) / BaudGen.period (baudParams r) = u at hle ⊢
  omega

/-- Bit `k` is sampled in its own cell, as the drift over a frame is less than half a bit for `24 ≤ S`. -/
theorem sample_level (h : Paced r S) (hS : 24 ≤ S) (hk : k ≤ 9) :
    level S b (BaudGen.tickTime (baudParams r) k + 1) = (frameOf b).getLsbD k := by
  obtain ⟨hlo, hhi⟩ := tickTime_bounds h k
  have hmul := Nat.succ_mul k S
  exact level_bit b hk (by omega) (by rw [Nat.succ_eq_add_one] at hmul; omega)

theorem shift_bit (F : BitVec 10) (rx : Bool) (m : Nat) (hm : m < 10) :
    (BitVec.ofBool rx ++ F.extractLsb' 1 9).getLsbD m
      = if m < 9 then F.getLsbD (1 + m) else rx := by
  rw [BitVec.getLsbD_append, BitVec.getLsbD_extractLsb']
  split_ifs with h
  · simp [h]
  · have h9 : m = 9 := by omega
    rw [h9]
    cases rx <;> rfl

/-- A cycle of sampling without a tick: the generator counts, and the rest waits. -/
theorem next_count (hk : s.keepSampling = true) (hf : s.rxFinished = false)
    (ht : s.baud.baudtick = false) (rx : Bool) : s.next r rx = { s with
      rxDoneO := false, rxPrev := rx, baud := BaudGen.next (baudParams r) s.baud false } := by
  simp [Core.next, capture, sample, hk, hf, ht]

/-- A tick takes a sample: it is shifted in at the top, and the tenth one finishes the frame. -/
theorem next_tick (hk : s.keepSampling = true) (hf : s.rxFinished = false)
    (ht : s.baud.baudtick = true) (rx : Bool) : s.next r rx = { s with
      rxDoneO := false
      uartFrame := BitVec.ofBool rx ++ s.uartFrame.extractLsb' 1 9
      bitCount := if s.bitCount = 0 then 9 else s.bitCount - 1
      rxFinished := decide (s.bitCount = 0)
      rxPrev := rx
      baud := BaudGen.next (baudParams r) s.baud false } := by
  rcases Nat.eq_zero_or_pos s.bitCount with hb | hb
  · simp [Core.next, capture, sample, hk, hf, ht, hb]
  · simp [Core.next, capture, sample, hk, hf, ht, hb, Nat.ne_of_gt hb]

/-- A falling edge starts the sampling, and lets the generator go from its first interval. -/
theorem next_edge (hk : s.keepSampling = false) (hf : s.rxFinished = false)
    (hp : s.rxPrev = true) : s.next r false = { s with
      rxPrev := false, rxDoneO := false, keepSampling := true
      baud := BaudGen.held (baudParams r) } := by
  simp [Core.next, capture, sample, hk, hf, hp, BaudGen.next]

/-- The generator counts towards tick `j`, or ticks, and then counts towards the next one. -/
theorem next_counted {j : Nat} (h : Paced r S) (hx : 0 < x)
    (hat : BaudGen.At (baudParams r) s.baud (x - 1) j) :
    BaudGen.At (baudParams r) (BaudGen.next (baudParams r) s.baud false) (x + 1 - 1)
      (if (BaudGen.next (baudParams r) s.baud false).baudtick then j + 1 else j) ∧
    ((BaudGen.next (baudParams r) s.baud false).baudtick = false →
      x + 1 ≤ BaudGen.tickTime (baudParams r) j) ∧
    ((BaudGen.next (baudParams r) s.baud false).baudtick = true →
      x = BaudGen.tickTime (baudParams r) j) := by
  have hx1 : x - 1 + 1 = x := by omega
  rcases BaudGen.at_next h.valid hat with ⟨hlt, hno, hat⟩ | ⟨hdue, hyes, hat⟩
  · rw [hx1] at hlt hat
    rw [hno, if_neg Bool.false_ne_true, Nat.add_sub_cancel]
    refine ⟨hat, fun _ => hlt, ?_⟩
    intro hyes
    cases hyes
  · rw [hx1] at hdue hat
    rw [hyes, if_pos rfl, Nat.add_sub_cancel]
    refine ⟨hat, ?_, fun _ => hdue⟩
    intro hno
    cases hno

/-- The cycle after a tick is not a tick, and counts towards the next one. -/
theorem next_ticked {j : Nat} (h : Paced r S)
    (hat : BaudGen.At (baudParams r) s.baud (x - 1) (j + 1))
    (hx : x = BaudGen.tickTime (baudParams r) j + 1) :
    (BaudGen.next (baudParams r) s.baud false).baudtick = false ∧
    BaudGen.At (baudParams r) (BaudGen.next (baudParams r) s.baud false) x (j + 1) ∧
    x + 1 ≤ BaudGen.tickTime (baudParams r) (j + 1) := by
  have hpos := h.valid.first_pos
  rw [h.first] at hpos
  have hgap := BaudGen.tickTime_succ (p := baudParams r) j
  rw [h.sample] at hgap
  have hx1 : x - 1 + 1 = x := by omega
  rcases BaudGen.at_next h.valid hat with ⟨hlt, hno, hat⟩ | ⟨hdue, hyes, hat⟩
  · rw [hx1] at hat
    exact ⟨hno, hat, by omega⟩
  · exfalso
    omega

/-- The falling edge: the core is one cycle into the frame, with no bit sampled. -/
theorem phase_edge (h : Paced r S) (hs : Armed s) (hp : s.rxPrev = true) :
    Sampling r b 1 0 (s.next r false) := by
  obtain ⟨hk, hf, hd, hc, hb⟩ := hs
  have hlo := (tickTime_bounds h 0).1
  have hpos := h.valid.first_pos
  rw [h.first] at hpos
  rw [next_edge hk hf hp]
  refine ⟨rfl, hf, rfl, hc, hb, by omega, by omega, BaudGen.at_held h.valid, fun _ => ?_, ?_, ?_⟩
  · omega
  · intro ht
    cases ht
  · intro m hm
    omega

/-- A cycle between two samples, in which the line does not matter. -/
theorem phase_count (h : Paced r S) (hs : Sampling r b x k s) (ht : s.baud.baudtick = false)
    (rx : Bool) : Sampling r b (x + 1) k (s.next r rx) := by
  obtain ⟨hk, hf, hd, hc, hb, hlast, hstart, hticks, hbefore, -, hsampled⟩ := hs
  rw [ht, if_neg Bool.false_ne_true] at hticks
  obtain ⟨hat, hnext, htick⟩ := next_counted h hstart hticks
  rw [next_count hk hf ht]
  refine ⟨hk, hf, rfl, hc, hb, hlast, by omega, hat, hnext, fun hyes => ?_, hsampled⟩
  rw [← htick hyes]

/-- A sample that is not the last one: it is the level of the bit that is due. -/
theorem phase_sample (h : Paced r S) (hS : 24 ≤ S) (hs : Sampling r b x k s)
    (ht : s.baud.baudtick = true) (hk9 : k < 9) :
    Sampling r b (x + 1) (k + 1) (s.next r (level S b x)) := by
  have hx := hs.tick ht
  have hticks := hs.ticks
  rw [ht, if_pos rfl] at hticks
  obtain ⟨hno, hat, hbefore⟩ := next_ticked h hticks hx
  have hb : s.bitCount ≠ 0 := by
    have := hs.bitCount
    omega
  rw [next_tick hs.keepSampling hs.rxFinished ht, if_neg hb]
  refine ⟨hs.keepSampling, by simp [hb], rfl, hs.channel, ?_, hk9, by omega, ?_, fun _ => hbefore,
    ?_, ?_⟩
  · have := hs.bitCount
    simp only
    omega
  · simpa only [hno, Nat.add_sub_cancel, Bool.false_eq_true, if_false] using hat
  · intro htick
    rw [show _ = false from hno] at htick
    cases htick
  · intro m hm
    -- the sample goes in at the top and the others move down by one
    rw [shift_bit _ _ _ (by omega)]
    rcases Nat.lt_or_ge m k with hmk | hmk
    · rw [if_pos (by omega), ← hs.sampled m hmk]
      congr 1
      omega
    · have hmk : m = k := by omega
      rw [if_neg (by omega), hmk, hx, sample_level h hS hk9.le]

/-- The stop bit is the tenth sample, and with it the frame register is complete. -/
theorem phase_finish (h : Paced r S) (hS : 24 ≤ S) (hs : Sampling r b x 9 s)
    (ht : s.baud.baudtick = true) : Finished r b (x + 1) (s.next r (level S b x)) := by
  have hx := hs.tick ht
  have hticks := hs.ticks
  rw [ht, if_pos rfl] at hticks
  obtain ⟨hno, -, -⟩ := next_ticked h hticks hx
  have hb : s.bitCount = 0 := hs.bitCount
  rw [next_tick hs.keepSampling hs.rxFinished ht, if_pos hb]
  refine ⟨hs.keepSampling, by simp [hb], rfl, hs.channel, rfl, by omega, hno, ?_⟩
  intro m hm
  rw [shift_bit _ _ _ hm]
  rcases Nat.lt_or_ge m 9 with hm9 | hm9
  · rw [if_pos hm9, ← hs.sampled m hm9]
  · have hm9 : m = 9 := by omega
    rw [if_neg (by omega), hm9, hx, sample_level h hS le_rfl]

/-- The two framing bits are in order, so the byte between them is announced. -/
theorem phase_announce (hs : Finished r b x s) (rx : Bool) :
    Announcing r b (x + 1) (s.next r rx) := by
  have hstart : s.uartFrame.getLsbD 0 = false := (hs.sampled 0 (by omega)).trans (frameOf_start b)
  have hstop : s.uartFrame.getLsbD 9 = true := (hs.sampled 9 (by omega)).trans (frameOf_stop b)
  have hdata : s.uartFrame.extractLsb' 1 8 = b := by
    apply BitVec.eq_of_getLsbD_eq
    intro m hm
    rw [BitVec.getLsbD_extractLsb', hs.sampled (1 + m) (by omega), Nat.add_comm, frameOf_data b hm]
    simp [hm]
  have hnext : s.next r rx = { s with
      rxDoneO := true, keepSampling := false, rxFinished := false, channel := false, dataO := b
      rxPrev := rx, baud := BaudGen.next (baudParams r) s.baud false } := by
    simp only [Core.next, capture, sample, hs.keepSampling, hs.rxFinished, hs.tick, hstart, hstop,
      hdata]
    rfl
  have htime := hs.time
  rw [hnext]
  exact ⟨rfl, rfl, rfl, rfl, hs.bitCount, by omega, rfl⟩

/-- A high line starts nothing, and an announcement ends. -/
theorem next_high (hk : s.keepSampling = false) (hf : s.rxFinished = false) :
    s.next r true = { s with
      rxDoneO := false, rxPrev := true, baud := BaudGen.next (baudParams r) s.baud true } := by
  simp [Core.next, capture, sample, hk, hf]

theorem phase_rest (hs : Announcing r b x s) : Armed (s.next r true) := by
  rw [next_high hs.keepSampling hs.rxFinished]
  exact ⟨hs.keepSampling, hs.rxFinished, rfl, hs.channel, hs.bitCount⟩

theorem armed_next (hs : Armed s) : Armed (s.next r true) := by
  rw [next_high hs.keepSampling hs.rxFinished]
  exact ⟨hs.keepSampling, hs.rxFinished, rfl, hs.channel, hs.bitCount⟩

/-- **One cycle of a frame.**  The list `out` is what the core has announced so far, so that the lemma carries
    the bytes along with the phase. -/
theorem phase_next (h : Paced r S) (hS : 24 ≤ S) {out : List Byte} (hs : Phase r b x out s) :
    Phase r b (x + 1) (out ++ s.received) (s.next r (level S b x)) := by
  have hstop := (tickTime_bounds h 9).1
  cases hs with
  -- the first low level starts the sampling
  | armed ha hp =>
    rw [Core.received, ha.rxDoneO, level_zero]
    exact .sampling (phase_edge h ha hp)
  | sampling hs =>
    rename_i k
    rw [Core.received, hs.rxDoneO]
    cases ht : s.baud.baudtick
    · exact .sampling (phase_count h hs ht _)
    · -- one of the first nine samples, or the stop bit
      rcases Nat.lt_or_ge k 9 with hk | hk
      · exact .sampling (phase_sample h hS hs ht hk)
      · have hk9 : k = 9 := le_antisymm hs.last hk
        exact .finished (phase_finish h hS (hk9 ▸ hs) ht)
  | finished hs =>
    rw [Core.received, hs.rxDoneO]
    exact .announcing (phase_announce hs _)
  -- the byte is given out in this cycle
  | announcing hs =>
    have htime := hs.time
    rw [Core.received, hs.rxDoneO, hs.dataO, level_stop b (by omega) (by omega)]
    exact .rest (phase_rest hs) (by omega)
  | rest ha hx =>
    rw [Core.received, ha.rxDoneO, level_stop b (by omega) (by omega)]
    exact .rest (armed_next ha) (by omega)

theorem phase_channel {out : List Byte} (hs : Phase r b x out s) : s.channel = false := by
  cases hs with
  | armed ha _ => exact ha.channel
  | sampling hs => exact hs.channel
  | finished hs => exact hs.channel
  | announcing hs => exact hs.channel
  | rest ha _ => exact ha.channel

/-! ## A line of frames -/

/-- The core waits for a falling edge, and the line has been high. -/
structure Ready (s : Core) : Prop extends Armed s where
  rxPrev : s.rxPrev = true

/-- The core receives exactly the bytes `bs` from the line `l`, never reports the other channel, and waits
    for the next frame at the end. -/
structure Receives (r : Rates) (s : Core) (l : List Bool) (bs : List Byte) : Prop where
  bytes : emitted (Core.next r) (fun c _ => c.received) s l = bs
  channel : Always (Core.next r) (fun c _ => c.channel = false) s l
  ready : Ready (run (Core.next r) s l)

theorem receives_append {l₁ l₂ : List Bool} {bs₁ bs₂ : List Byte} (h₁ : Receives r s l₁ bs₁)
    (h₂ : Receives r (run (Core.next r) s l₁) l₂ bs₂) : Receives r s (l₁ ++ l₂) (bs₁ ++ bs₂) where
  bytes := by rw [emitted_append, h₁.bytes, h₂.bytes]
  channel := (always_append _ _ _ _ _).mpr ⟨h₁.channel, h₂.channel⟩
  ready := by
    rw [run_append]
    exact h₂.ready

theorem receives_high (hs : Ready s) : Receives r s [true] [] where
  bytes := by rw [emitted_cons, Core.received, hs.rxDoneO]; rfl
  channel := ⟨hs.channel, trivial⟩
  ready := ⟨armed_next hs.toArmed, rfl⟩

/-- What a frame has done to the core after its first `x` cycles. -/
theorem phase_run (h : Paced r S) (hS : 24 ≤ S) (hs : Ready s) (x : Nat) :
    Phase r b x (emitted (Core.next r) (fun c _ => c.received) s ((List.range x).map (level S b)))
      (run (Core.next r) s ((List.range x).map (level S b))) ∧
    Always (Core.next r) (fun c _ => c.channel = false) s ((List.range x).map (level S b)) := by
  induction x with
  | zero => exact ⟨.armed hs.toArmed hs.rxPrev, trivial⟩
  | succ x ih =>
    obtain ⟨hphase, halways⟩ := ih
    rw [List.range_succ, List.map_append, List.map_cons, List.map_nil, emitted_append, run_append,
      always_append]
    refine ⟨?_, halways, phase_channel hphase, trivial⟩
    have hnext := phase_next h hS hphase
    rw [emitted_cons, emitted_nil, List.append_nil]
    exact hnext

/-- **A frame is received**, well before the next one can begin: the core waits again before the stop bit
    is over. -/
theorem receives_frame (h : Paced r S) (hS : 24 ≤ S) (b : Byte) (hs : Ready s) :
    Receives r s (frameLine S b) [b] := by
  obtain ⟨hphase, halways⟩ := phase_run (b := b) h hS hs (10 * S + 2)
  have hbound := (tickTime_bounds h 9).2
  have hprev : (run (Core.next r) s (frameLine S b)).rxPrev = true := by
    rw [frameLine_eq (by omega), run_append]
    rfl
  rw [← frameLine] at hphase halways
  generalize hout : emitted (Core.next r) (fun c _ => c.received) s (frameLine S b) = out at hphase
  generalize hrun : run (Core.next r) s (frameLine S b) = t at hphase hprev
  generalize hx : 10 * S + 2 = x at hphase
  cases hphase with
  -- at the end of the frame the phase is the last one: the other four are over before it
  | armed _ _ => omega
  | sampling hs =>
    exfalso
    rename_i k
    have hmono : BaudGen.tickTime (baudParams r) k ≤ k * S + S / 2 + (k + 1) :=
      (tickTime_bounds h k).2
    have hk : k * S ≤ 9 * S := Nat.mul_le_mul_right _ hs.last
    have hlast := hs.last
    cases ht : t.baud.baudtick
    · have := hs.before ht
      omega
    · have := hs.tick ht
      omega
  | finished hs =>
    have := hs.time
    omega
  | announcing hs =>
    have := hs.time
    omega
  | rest ha _ => exact ⟨hout, halways, hrun ▸ ⟨ha, hprev⟩⟩

/-- **A line of frames is received**, byte for byte.  The induction is on the line: a frame, or a cycle of
    idle time between two of them. -/
theorem receives_framed (h : Paced r S) (hS : 24 ≤ S) {bs : List Byte} {l : List Bool}
    (hl : Framed S bs l) (hs : Ready s) : Receives r s l bs := by
  induction hl generalizing s with
  | nil => exact ⟨rfl, trivial, hs⟩
  | idle _ ih =>
    have hone := receives_high (r := r) hs
    exact receives_append hone (ih hone.ready)
  | frame _ ih =>
    rename_i b _ _ _
    have hone := receives_frame h hS b hs
    exact receives_append hone (ih hone.ready)

end RiscDbgUart.UartRx
