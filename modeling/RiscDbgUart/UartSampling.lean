/-
  `uart_rx.sv` on any line.

  Once an edge has started the baud generator, the core takes its samples on a grid of its own:
  sample `j`, counted from 0, is taken `sampleTime r j` cycles after the edge.  Ten samples in a row
  are a window, and what the core does at the end of window `q` depends on its first and its last
  sample only: either they frame a byte, which the core then announces and after which it waits for
  the next edge, or the core goes on with window `q + 1` of the same grid.

  So on any line the receiver's history is a sequence of samplings, each begun by an edge
  (`SamplingSince`) and ended, if ever, by the first of its windows that looks like a frame
  (`Delivered`), and a byte is announced in a cycle exactly when a window is delivered in it
  (`done_iff`).  Two deliveries do not overlap (`delivered_disjoint`).

  The core is described in three layers:

  * `Waiting`, `Running`, `Full` — its registers, with one lemma for each kind of cycle;
  * `Grid`, `Mode` — which sampling and which window of it the core is in, in cycle `t`;
  * `Turn` — what the cycle does to that: it waits, starts a sampling, goes on with one, or delivers.

  `turn_at` gives the turn of every cycle of every line, and the rest is read off it.  A byte is announced
  exactly when a window is delivered (`done_iff`), and two windows that are delivered do not overlap
  (`delivered_disjoint`).
-/
import RiscDbgUart.Clocked.Stream
import RiscDbgUart.UartRx

set_option linter.unusedVariables false

namespace RiscDbgUart.UartRx

open Clocked

/-! ## The sampling grid -/

variable {r : Rates} {S x q k i j : Nat} {c : Core} {ℓ : Nat → Bool}

/-- The cycle, counted from the falling edge, in which sample `j` is taken. -/
def sampleTime (r : Rates) (j : Nat) : Nat := BaudGen.tickTime (baudParams r) j + 1

theorem Paced.two_le (h : Paced r S) : 2 ≤ S := by
  have hpos := h.valid.first_pos
  rw [h.first] at hpos
  omega

theorem sampleTime_zero (h : Paced r S) :
    S / 2 + 1 ≤ sampleTime r 0 ∧ sampleTime r 0 ≤ S / 2 + 2 := by
  have hbounds := tickTime_bounds h 0
  rw [sampleTime]
  omega

/-- From one sample to the next it is a bit time, and at most one cycle more: the generator makes up
    for the remainder of the division by a wait cycle now and then. -/
theorem sampleTime_succ (h : Paced r S) (j : Nat) :
    sampleTime r j + S ≤ sampleTime r (j + 1) ∧
    sampleTime r (j + 1) ≤ sampleTime r j + S + 1 := by
  have hgap := BaudGen.tickTime_succ (p := baudParams r) j
  rw [h.sample] at hgap
  rw [sampleTime, sampleTime]
  split_ifs at hgap <;> omega

/-- The same over `i` bits.  The wait cycles add up, which is why the lower bound and the upper bound
    move apart. -/
theorem sampleTime_add (h : Paced r S) (j i : Nat) :
    sampleTime r j + i * S ≤ sampleTime r (j + i) ∧
    sampleTime r (j + i) ≤ sampleTime r j + i * S + i := by
  induction i with
  | zero =>
    rw [Nat.zero_mul, Nat.add_zero, Nat.add_zero]
    exact ⟨le_rfl, le_rfl⟩
  | succ i ih =>
    have hstep := sampleTime_succ h (j + i)
    rw [← Nat.add_assoc, Nat.succ_mul]
    omega

/-- Between two samples there is room for one cycle. -/
theorem sampleTime_room (h : Paced r S) (hij : i < j) : sampleTime r i + 1 < sampleTime r j := by
  have hS := h.two_le
  obtain ⟨d, rfl⟩ : ∃ d, j = i + (d + 1) := ⟨j - i - 1, by omega⟩
  have hadd := (sampleTime_add h i (d + 1)).1
  rw [Nat.succ_mul] at hadd
  omega

theorem sampleTime_mono (h : Paced r S) (hij : i ≤ j) : sampleTime r i ≤ sampleTime r j := by
  rcases Nat.eq_or_lt_of_le hij with rfl | hlt
  · exact le_rfl
  · have := sampleTime_room h hlt
    omega

/-! ## The rates -/

/-- `CLK_RATE` and `BAUD_RATE` are positive values of type `integer`, and a bit takes at least 16
    cycles. -/
structure Supported (r : Rates) : Prop where
  ratio : 16 * r.baudRate ≤ r.clkRate
  baud_pos : 0 < r.baudRate
  clk_lt : r.clkRate < 2 ^ 31

theorem Supported.sample_eq (h : Supported r) : r.sampleInterval = r.clkRate / r.baudRate := by
  have hratio := h.ratio
  have hclk := h.clk_lt
  have hle : r.clkRate / r.baudRate ≤ r.clkRate := Nat.div_le_self _ _
  rw [Rates.sampleInterval, integer_eq (by omega), integer_eq (by omega), ← Int.ofNat_tdiv,
    integerUnsigned_eq (by omega)]

theorem Supported.sample_le (h : Supported r) : 16 ≤ r.sampleInterval := by
  rw [h.sample_eq]
  exact (Nat.le_div_iff_mul_le h.baud_pos).mpr h.ratio

theorem Supported.sample_lt (h : Supported r) : r.sampleInterval < 2 ^ 31 := by
  rw [h.sample_eq]
  exact lt_of_le_of_lt (Nat.div_le_self _ _) h.clk_lt

/-- Nothing overflows in `REMAINDER_INTERVAL`, so it is what its formula says over the natural
    numbers. -/
theorem Supported.remainder_eq (h : Supported r) : (baudParams r).remainderInterval
    = r.clkRate % r.baudRate * 10 / r.baudRate := by
  have hratio := h.ratio
  have hclk := h.clk_lt
  have hmod : r.clkRate % r.baudRate < r.baudRate := Nat.mod_lt _ h.baud_pos
  have hdiv : r.clkRate % r.baudRate * 10 / r.baudRate ≤ r.clkRate % r.baudRate * 10 :=
    Nat.div_le_self _ _
  have hlt : r.clkRate % r.baudRate * 10 < 2 ^ 31 := by omega
  have hprod : integer (Int.tmod (r.clkRate : Int) (r.baudRate : Int) * 10)
      = ((r.clkRate % r.baudRate * 10 : Nat) : Int) := by
    rw [← Int.ofNat_tmod, ← integer_eq hlt]
    push_cast
    rfl
  simp only [baudParams]
  rw [integer_eq (by omega), integer_eq (by omega), hprod, ← Int.ofNat_tdiv,
    integerUnsigned_eq (by omega)]

theorem Supported.paced (h : Supported r) : Paced r r.sampleInterval where
  valid := by
    have hle := h.sample_le
    have hlt := h.sample_lt
    constructor <;> simp only [baudParams] <;> omega
  sample := by simp only [baudParams]
  first := by simp only [baudParams]

/-! ## One cycle of the core -/

/-- The core waits for a falling edge; it may be announcing a byte. -/
structure Waiting (c : Core) : Prop where
  keepSampling : c.keepSampling = false
  rxFinished : c.rxFinished = false
  bitCount : c.bitCount = 9

/-- `x` cycles after the falling edge, sample `k` of window `q` is the next one.  `ℓ` is the line,
    counted from the edge. -/
structure Running (r : Rates) (ℓ : Nat → Bool) (x q k : Nat) (c : Core) : Prop where
  keepSampling : c.keepSampling = true
  rxFinished : c.rxFinished = false
  rxDoneO : c.rxDoneO = false
  bitCount : c.bitCount = 9 - k
  last : k ≤ 9
  started : 0 < x
  ticks : BaudGen.At (baudParams r) c.baud (x - 1)
    (if c.baud.baudtick then 10 * q + k + 1 else 10 * q + k)
  before : c.baud.baudtick = false → x < sampleTime r (10 * q + k)
  tick : c.baud.baudtick = true → x = sampleTime r (10 * q + k)
  past : ∀ j < 10 * q + k, sampleTime r j < x
  sampled : ∀ m < k, c.uartFrame.getLsbD (10 - k + m) = ℓ (sampleTime r (10 * q + m))

/-- Window `q` is complete, and the core is about to look at it: its ten bits are the levels of the
    line at its ten sampling times, the start bit first. -/
structure Full (r : Rates) (ℓ : Nat → Bool) (x q : Nat) (c : Core) : Prop where
  keepSampling : c.keepSampling = true
  rxFinished : c.rxFinished = true
  rxDoneO : c.rxDoneO = false
  bitCount : c.bitCount = 9
  time : x = sampleTime r (10 * q + 9) + 1
  tick : c.baud.baudtick = false
  ticks : BaudGen.At (baudParams r) c.baud (x - 1) (10 * q + 10)
  sampled : ∀ m < 10, c.uartFrame.getLsbD m = ℓ (sampleTime r (10 * q + m))

theorem waiting_of_armed (hc : Armed c) : Waiting c := ⟨hc.keepSampling, hc.rxFinished, hc.bitCount⟩

/-- The edge that starts the sampling: one cycle behind it the core runs in window 0 with no sample
    taken. -/
theorem running_edge (h : Paced r S) (hc : Waiting c) (hp : c.rxPrev = true) :
    Running r ℓ 1 0 0 (c.next r false) := by
  obtain ⟨hk, hf, hb⟩ := hc
  have hfirst := (sampleTime_zero h).1
  have hS := h.two_le
  rw [next_edge hk hf hp]
  refine ⟨rfl, hf, rfl, hb, by omega, by omega, BaudGen.at_held h.valid, fun _ => ?_, ?_, ?_, ?_⟩
  · show 1 < sampleTime r 0
    omega
  · intro ht
    cases ht
  · intro j hj
    omega
  · intro m hm
    omega

/-- Without an edge the core goes on waiting, and announces nothing: what it announced in this cycle
    it announces for one cycle only. -/
theorem waiting_next (hc : Waiting c) {rx : Bool} (hno : c.rxPrev = false ∨ rx = true) :
    Waiting (c.next r rx) ∧ (c.next r rx).rxDoneO = false := by
  obtain ⟨hk, hf, hb⟩ := hc
  have hedge : (c.rxPrev && !rx) = false := by
    rcases hno with hp | rfl
    · rw [hp, Bool.false_and]
    · rw [Bool.not_true, Bool.and_false]
  have hnext : c.next r rx = { c with
      rxDoneO := false, rxPrev := rx, baud := BaudGen.next (baudParams r) c.baud true } := by
    simp [Core.next, capture, sample, hk, hf, hedge]
  rw [hnext]
  exact ⟨⟨hk, hf, hb⟩, rfl⟩

/-- A cycle between two samples.  The baud generator counts on, and the line does not matter. -/
theorem running_count (h : Paced r S) (hc : Running r ℓ x q k c) (ht : c.baud.baudtick = false)
    (rx : Bool) : Running r ℓ (x + 1) q k (c.next r rx) := by
  have hticks := hc.ticks
  rw [ht, if_neg Bool.false_ne_true] at hticks
  obtain ⟨hat, hbefore, htick⟩ := next_counted h hc.started hticks
  rw [next_count hc.keepSampling hc.rxFinished ht]
  refine ⟨hc.keepSampling, hc.rxFinished, rfl, hc.bitCount, hc.last, by omega, hat, ?_, ?_, ?_,
    hc.sampled⟩
  · intro hno
    have := hbefore hno
    rw [sampleTime]
    omega
  · intro hyes
    rw [htick hyes, sampleTime]
  · intro j hj
    have := hc.past j hj
    omega

/-- A sample that is not the last one of its window.  The level of the line is shifted in at the top
    of `uart_frame`, so the samples before it move down by one. -/
theorem running_sample (h : Paced r S) (hc : Running r ℓ x q k c) (ht : c.baud.baudtick = true)
    (hk9 : k < 9) : Running r ℓ (x + 1) q (k + 1) (c.next r (ℓ x)) := by
  have hx := hc.tick ht
  have hticks := hc.ticks
  rw [ht, if_pos rfl] at hticks
  obtain ⟨hno, hat, hbefore⟩ := next_ticked h hticks hx
  have hb : c.bitCount ≠ 0 := by
    have := hc.bitCount
    omega
  rw [next_tick hc.keepSampling hc.rxFinished ht, if_neg hb]
  refine ⟨hc.keepSampling, by simp [hb], rfl, ?_, hk9, by omega, ?_, fun _ => ?_, ?_, ?_, ?_⟩
  · -- the counter still counts the samples that are missing
    have := hc.bitCount
    show c.bitCount - 1 = 9 - (k + 1)
    omega
  · simpa only [hno, Nat.add_sub_cancel, Bool.false_eq_true, if_false, ← Nat.add_assoc] using hat
  · rw [← Nat.add_assoc, sampleTime]
    omega
  · intro htick
    rw [show _ = false from hno] at htick
    cases htick
  · intro j hj
    have := sampleTime_mono h (show j ≤ 10 * q + k by omega)
    omega
  · intro m hm
    -- the sample goes in at the top and the others move down by one
    rw [shift_bit _ _ _ (by omega)]
    rcases Nat.lt_or_ge m k with hmk | hmk
    · rw [if_pos (by omega), ← hc.sampled m hmk]
      congr 1
      omega
    · have hmk : m = k := by omega
      rw [if_neg (by omega), hmk, hx]

/-- The last sample of a window.  The counter stays at nine, and `rx_finished` says that the ten bits
    are complete. -/
theorem running_full (h : Paced r S) (hc : Running r ℓ x q 9 c) (ht : c.baud.baudtick = true) :
    Full r ℓ (x + 1) q (c.next r (ℓ x)) := by
  have hx := hc.tick ht
  have hticks := hc.ticks
  rw [ht, if_pos rfl] at hticks
  obtain ⟨hno, hat, -⟩ := next_ticked h hticks hx
  have hb : c.bitCount = 0 := hc.bitCount
  rw [next_tick hc.keepSampling hc.rxFinished ht, if_pos hb]
  refine ⟨hc.keepSampling, by simp [hb], rfl, rfl, by omega, hno, hat, ?_⟩
  intro m hm
  rw [shift_bit _ _ _ hm]
  rcases Nat.lt_or_ge m 9 with hm9 | hm9
  · rw [if_pos hm9, ← hc.sampled m hm9]
  · have hm9 : m = 9 := by omega
    rw [if_neg (by omega), hm9, hx]

/-- The window looks like a frame: its byte is announced, with the eight levels between the start bit
    and the stop bit, and the core waits for the next edge. -/
theorem full_valid (hc : Full r ℓ x q c) (hstart : ℓ (sampleTime r (10 * q)) = false)
    (hstop : ℓ (sampleTime r (10 * q + 9)) = true) (rx : Bool) :
    Waiting (c.next r rx) ∧ (c.next r rx).rxDoneO = true ∧
      ∀ m < 8, (c.next r rx).dataO.getLsbD m = ℓ (sampleTime r (10 * q + (m + 1))) := by
  have h0 : c.uartFrame.getLsbD 0 = false := (hc.sampled 0 (by omega)).trans hstart
  have h9 : c.uartFrame.getLsbD 9 = true := (hc.sampled 9 (by omega)).trans hstop
  have hnext : c.next r rx = { c with
      rxDoneO := true, keepSampling := false, rxFinished := false, channel := false
      dataO := c.uartFrame.extractLsb' 1 8, rxPrev := rx
      baud := BaudGen.next (baudParams r) c.baud false } := by
    simp only [Core.next, capture, sample, hc.keepSampling, hc.rxFinished, hc.tick, h0, h9]
    rfl
  rw [hnext]
  refine ⟨⟨rfl, rfl, hc.bitCount⟩, rfl, fun m hm => ?_⟩
  rw [BitVec.getLsbD_extractLsb', Nat.add_comm 1 m, hc.sampled (m + 1) (by omega)]
  simp [hm]

/-- The window does not look like a frame: the next one begins, without an edge and on the same grid.
    It is the branch with `keep_sampling`. -/
theorem full_invalid (h : Paced r S) (hc : Full r ℓ x q c)
    (hbad : ¬ (ℓ (sampleTime r (10 * q)) = false ∧ ℓ (sampleTime r (10 * q + 9)) = true))
    (rx : Bool) : Running r ℓ (x + 1) (q + 1) 0 (c.next r rx) := by
  have hx := hc.time
  obtain ⟨hat, hbefore, htick⟩ := next_counted h (by omega) hc.ticks
  -- the start bit is not low or the stop bit is not high, so nothing is captured
  have hframe : (!c.uartFrame.getLsbD 0 && c.uartFrame.getLsbD 9) = false := by
    rw [hc.sampled 0 (by omega), hc.sampled 9 (by omega), Bool.eq_false_iff]
    intro hgood
    rw [Bool.and_eq_true, Bool.not_eq_true', Nat.add_zero] at hgood
    exact hbad hgood
  have hnext : c.next r rx = { c with
      rxDoneO := false, keepSampling := true, rxFinished := false, channel := true
      rxPrev := rx, baud := BaudGen.next (baudParams r) c.baud false } := by
    simp only [Core.next, capture, sample, hc.keepSampling, hc.rxFinished, hc.tick, hframe]
    rfl
  rw [hnext]
  refine ⟨rfl, rfl, rfl, hc.bitCount, by omega, by omega, hat, ?_, ?_, ?_, ?_⟩
  · intro hno
    have := hbefore hno
    show x + 1 < sampleTime r (10 * q + 10)
    rw [sampleTime]
    omega
  · intro hyes
    show x + 1 = sampleTime r (10 * q + 10)
    rw [htick hyes, sampleTime]
  · intro j hj
    have := sampleTime_mono h (show j ≤ 10 * q + 9 by omega)
    omega
  · intro m hm
    omega

/-! ## The registers in cycle `t` -/

section History

variable {s : State} {w : Nat → Bool} {a e e' q' t u : Nat}

/-- The core in cycle `t` of the line `w`. -/
def coreAt (r : Rates) (s : State) (w : Nat → Bool) (t : Nat) : Core := (stateAt (next r) s w t).core

/-- What the core sees in cycle `t`. -/
def rxAt (r : Rates) (s : State) (w : Nat → Bool) (t : Nat) : Bool := (stateAt (next r) s w t).rx

theorem coreAt_succ : coreAt r s w (t + 1) = (coreAt r s w t).next r (rxAt r s w t) := rfl

theorem pipe_succ (t : Nat) : pipe (stateAt (next r) s w (t + 1))
    = (pipe (stateAt (next r) s w t)).tail ++ [w t] := pipe_next _ _

/-- The delay line holds what the core will see in the next four cycles, so a statement about the line
    as the core sees it also covers what is under way to it. -/
theorem pipe_stateAt : pipe (stateAt (next r) s w a)
    = [rxAt r s w a, rxAt r s w (a + 1), rxAt r s w (a + 2), rxAt r s w (a + 3)] := by
  have h1 := pipe_succ (r := r) (s := s) (w := w) a
  have h2 := pipe_succ (r := r) (s := s) (w := w) (a + 1)
  have h3 := pipe_succ (r := r) (s := s) (w := w) (a + 2)
  simp only [pipe, List.tail_cons, List.cons_append, List.nil_append, List.cons.injEq] at h1 h2 h3
  rw [pipe, rxAt, rxAt, rxAt, rxAt, h3.1, h2.2.1, h2.1, h1.2.2.1, h1.2.1, h1.1]

/-- The core sees the line four cycles late. -/
theorem rxAt_add_four (t : Nat) : rxAt r s w (t + 4) = w t := by
  have h := pipe_succ (r := r) (s := s) (w := w) t
  rw [pipe_stateAt, pipe_stateAt] at h
  simp only [List.tail_cons, List.cons_append, List.nil_append, List.cons.injEq] at h
  exact h.2.2.2.1

/-- The line has been high and the core waits for a start bit. -/
structure Resting (s : State) : Prop where
  high : pipe s = List.replicate 4 true
  ready : Ready s.core

theorem resting_reset (r : Rates) : Resting (reset r) where
  high := by simp [pipe, reset, List.replicate]
  ready := ⟨⟨rfl, rfl, rfl, rfl, rfl⟩, rfl⟩

theorem Resting.waiting (h : Resting s) : Waiting s.core := waiting_of_armed h.ready.toArmed

theorem waiting_reset (r : Rates) : Waiting (reset r).core := (resting_reset r).waiting

/-- Behind a resting receiver the delay line is high, whatever comes behind it. -/
theorem Resting.rx_high (h : Resting (stateAt (next r) s w a)) (ha : a ≤ t) (ht : t < a + 4) :
    rxAt r s w t = true := by
  have hpipe := pipe_stateAt (r := r) (s := s) (w := w) (a := a)
  rw [h.high] at hpipe
  simp only [List.replicate, List.cons.injEq] at hpipe
  obtain ⟨h0, h1, h2, h3, -⟩ := hpipe
  rcases (by omega : t = a ∨ t = a + 1 ∨ t = a + 2 ∨ t = a + 3) with rfl | rfl | rfl | rfl
  · exact h0.symm
  · exact h1.symm
  · exact h2.symm
  · exact h3.symm

/-- While the line stays high a core that is ready stays so, since there is no edge. -/
theorem ready_stays (h : Ready (coreAt r s w a)) (hat : a ≤ t)
    (hhigh : ∀ u, a ≤ u → u < t → rxAt r s w u = true) : Ready (coreAt r s w t) := by
  induction t, hat using Nat.le_induction with
  | base => exact h
  | succ t hat ih =>
    have ht := ih fun u hau hut => hhigh u hau (by omega)
    rw [coreAt_succ, hhigh t hat (by omega)]
    exact ⟨armed_next ht.toArmed, rfl⟩

/-! ## One sampling after the other -/

/-- In cycle `t` the core is sampling, on the grid of the edge it saw in cycle `e`. -/
structure SamplingSince (r : Rates) (s : State) (w : Nat → Bool) (e t : Nat) : Prop where
  before : e < t
  idle : (coreAt r s w e).keepSampling = false
  sampling : ∀ u, e < u → u ≤ t → (coreAt r s w u).keepSampling = true

theorem SamplingSince.shorten (h : SamplingSince r s w e t) (he : e < u) (hu : u ≤ t) :
    SamplingSince r s w e u :=
  ⟨he, h.idle, fun v hev hvu => h.sampling v hev (by omega)⟩

/-- A core that does not sample is not within a sampling. -/
theorem SamplingSince.outside (h : SamplingSince r s w e t)
    (hu : (coreAt r s w u).keepSampling = false) : u ≤ e ∨ t < u := by
  by_contra hin
  have hon := h.sampling u (by omega) (by omega)
  rw [hu] at hon
  cases hon

theorem since_unique (h : SamplingSince r s w e t) (h' : SamplingSince r s w e' t) : e = e' := by
  have h₁ := h.outside h'.idle
  have h₂ := h'.outside h.idle
  have hbefore := h.before
  have hbefore' := h'.before
  omega

theorem SamplingSince.grow (h : SamplingSince r s w e t)
    (hon : (coreAt r s w (t + 1)).keepSampling = true) : SamplingSince r s w e (t + 1) := by
  have hbefore := h.before
  refine ⟨by omega, h.idle, fun u heu hut => ?_⟩
  rcases Nat.lt_or_ge t u with htu | htu
  · rw [show u = t + 1 by omega]
    exact hon
  · exact h.sampling u heu htu

/-- What the core has in its registers while it samples. -/
inductive Grid (r : Rates) (ℓ : Nat → Bool) (x : Nat) (c : Core) : Prop
  | running (q k : Nat) : Running r ℓ x q k c → Grid r ℓ x c
  | full (q : Nat) : Full r ℓ x q c → Grid r ℓ x c

/-- The line as it is seen from the edge in cycle `e` on. -/
def rxFrom (r : Rates) (s : State) (w : Nat → Bool) (e x : Nat) : Bool := rxAt r s w (e + x)

/-- Window `q` of the sampling since `e` begins low and ends high. -/
structure LooksValid (r : Rates) (s : State) (w : Nat → Bool) (e q : Nat) : Prop where
  start : rxFrom r s w e (sampleTime r (10 * q)) = false
  stop : rxFrom r s w e (sampleTime r (10 * q + 9)) = true

/-- The cycle in which window `q` of the sampling since `e` is announced, if it is. -/
def doneTime (r : Rates) (e q : Nat) : Nat := e + sampleTime r (10 * q + 9) + 2

/-- Window `q` of the sampling since `e` is announced. -/
structure Delivered (r : Rates) (s : State) (w : Nat → Bool) (e q : Nat) : Prop where
  since : SamplingSince r s w e (e + sampleTime r (10 * q + 9) + 1)
  valid : LooksValid r s w e q

/-- What the core is doing in cycle `t`: it waits for an edge, or it is in the sampling that began with the
    edge in cycle `e`, somewhere on the grid of that edge. -/
inductive Mode (r : Rates) (s : State) (w : Nat → Bool) (t : Nat) : Prop
  | waiting : Waiting (coreAt r s w t) → Mode r s w t
  | sampling (e : Nat) : SamplingSince r s w e t → rxAt r s w e = false →
      Grid r (rxFrom r s w e) (t - e) (coreAt r s w t) → Mode r s w t

/-- How the mode changes in one cycle, and what is announced in the next.  A delivery is the only turn
    that announces anything, and it ends the sampling. -/
inductive Turn (r : Rates) (s : State) (w : Nat → Bool) (t : Nat) : Prop
  | waits : Waiting (coreAt r s w t) → Waiting (coreAt r s w (t + 1)) →
      (coreAt r s w (t + 1)).rxDoneO = false → Turn r s w t
  | starts : Waiting (coreAt r s w t) → SamplingSince r s w t (t + 1) → rxAt r s w t = false →
      Grid r (rxFrom r s w t) 1 (coreAt r s w (t + 1)) → Turn r s w t
  | samples (e : Nat) : SamplingSince r s w e t → SamplingSince r s w e (t + 1) →
      Grid r (rxFrom r s w e) (t + 1 - e) (coreAt r s w (t + 1)) → Turn r s w t
  | delivers (e q : Nat) : t + 1 = doneTime r e q → Delivered r s w e q →
      Waiting (coreAt r s w (t + 1)) → (coreAt r s w (t + 1)).rxDoneO = true →
      (∀ m < 8, (coreAt r s w (t + 1)).dataO.getLsbD m
        = rxFrom r s w e (sampleTime r (10 * q + (m + 1)))) → Turn r s w t

/-- A window that is complete is judged in this cycle: it is delivered, or the sampling goes on with
    the next one. -/
theorem turn_of_full {e q : Nat} (h : Paced r S) (hsince : SamplingSince r s w e t)
    (hc : Full r (rxFrom r s w e) (t - e) q (coreAt r s w t)) : Turn r s w t := by
  have hbefore := hsince.before
  have htime := hc.time
  by_cases hv : LooksValid r s w e q
  · obtain ⟨hwait, hdone, hdata⟩ := full_valid hc hv.start hv.stop (rxAt r s w t)
    have hend : t = e + sampleTime r (10 * q + 9) + 1 := by omega
    exact .delivers e q (by rw [doneTime]; omega) ⟨hend ▸ hsince, hv⟩ hwait hdone hdata
  · have hnext := full_invalid h hc (fun hbad => hv ⟨hbad.1, hbad.2⟩) (rxAt r s w t)
    have hx : t - e + 1 = t + 1 - e := by omega
    rw [hx] at hnext
    exact .samples e hsince (hsince.grow hnext.keepSampling) (.running _ _ hnext)

/-- Within a window the cycle either takes a sample or counts, and the sampling goes on. -/
theorem turn_of_running {e q k : Nat} (h : Paced r S) (hsince : SamplingSince r s w e t)
    (hc : Running r (rxFrom r s w e) (t - e) q k (coreAt r s w t)) : Turn r s w t := by
  have hbefore := hsince.before
  have hx : t - e + 1 = t + 1 - e := by omega
  have hrx : rxFrom r s w e (t - e) = rxAt r s w t := by
    rw [rxFrom, show e + (t - e) = t by omega]
  cases ht : (coreAt r s w t).baud.baudtick
  · have hnext := running_count h hc ht (rxAt r s w t)
    rw [hx] at hnext
    exact .samples e hsince (hsince.grow hnext.keepSampling) (.running _ _ hnext)
  · rcases Nat.lt_or_ge k 9 with hk | hk
    · have hnext := running_sample h hc ht hk
      rw [hrx, hx] at hnext
      exact .samples e hsince (hsince.grow hnext.keepSampling) (.running _ _ hnext)
    · have hk9 : k = 9 := le_antisymm hc.last hk
      have hnext := running_full h (hk9 ▸ hc) ht
      rw [hrx, hx] at hnext
      exact .samples e hsince (hsince.grow hnext.keepSampling) (.full _ hnext)

/-- An edge starts a sampling, and the cycle of the edge is the one that the grid counts from. -/
theorem since_edge (h : Paced r S) (hc : Waiting (coreAt r s w t))
    (hprev : (coreAt r s w t).rxPrev = true) (hlow : rxAt r s w t = false) :
    SamplingSince r s w t (t + 1) ∧ Grid r (rxFrom r s w t) 1 (coreAt r s w (t + 1)) := by
  have hnext := running_edge (ℓ := rxFrom r s w t) h hc hprev
  rw [← hlow] at hnext
  refine ⟨⟨by omega, hc.keepSampling, fun u htu hut => ?_⟩, .running _ _ hnext⟩
  rw [show u = t + 1 by omega]
  exact hnext.keepSampling

/-- A core that waits either sees an edge, or waits on. -/
theorem turn_of_waiting (h : Paced r S) (hc : Waiting (coreAt r s w t)) : Turn r s w t := by
  by_cases hedge : (coreAt r s w t).rxPrev = true ∧ rxAt r s w t = false
  · obtain ⟨hprev, hlow⟩ := hedge
    obtain ⟨hsince, hgrid⟩ := since_edge h hc hprev hlow
    exact .starts hc hsince hlow hgrid
  · have hno : (coreAt r s w t).rxPrev = false ∨ rxAt r s w t = true := by
      by_contra hcon
      rw [not_or, Bool.not_eq_false, Bool.not_eq_true] at hcon
      exact hedge hcon
    obtain ⟨hwait, hdone⟩ := waiting_next (r := r) hc hno
    exact .waits hc hwait hdone

/-- One cycle of the receiver's history: every mode has its turn. -/
theorem turn_of_mode (h : Paced r S) (hmode : Mode r s w t) : Turn r s w t := by
  cases hmode with
  | waiting hc => exact turn_of_waiting h hc
  | sampling e hsince _ hgrid =>
    cases hgrid with
    | running q k hc => exact turn_of_running h hsince hc
    | full q hc => exact turn_of_full h hsince hc

/-- The core is in one of its modes in every cycle, by induction on the cycles: each turn leads from
    a mode to a mode. -/
theorem mode_at (h : Paced r S) (hs : Waiting s.core) (t : Nat) : Mode r s w t := by
  induction t with
  | zero => exact .waiting hs
  | succ t ih =>
    cases turn_of_mode h ih with
    | waits _ hc _ => exact .waiting hc
    | delivers e q _ _ hc _ _ => exact .waiting hc
    | starts _ hsince hlow hgrid =>
      exact .sampling t hsince hlow (by rw [Nat.add_sub_cancel_left]; exact hgrid)
    | samples e hsince hsince' hgrid =>
      cases ih with
      | waiting hc =>
        exfalso
        have hon := hsince.sampling t hsince.before le_rfl
        rw [hc.keepSampling] at hon
        cases hon
      | sampling e' hold hlow _ =>
        have heq := since_unique hold hsince
        exact .sampling e hsince' (heq ▸ hlow) hgrid

/-- **One cycle of any run.** -/
theorem turn_at (h : Paced r S) (hs : Waiting s.core) (t : Nat) : Turn r s w t :=
  turn_of_mode h (mode_at h hs t)

/-! ## Deliveries -/

theorem Waiting.not_since (hc : Waiting (coreAt r s w t)) (h : SamplingSince r s w e t) : False := by
  have hon := h.sampling t h.before le_rfl
  rw [hc.keepSampling] at hon
  cases hon

/-- What is known of a sampling: its edge was low, and the core is on its grid.  No other edge can have
    started it, as the core has not waited since. -/
theorem SamplingSince.grid (h : SamplingSince r s w e t) (hp : Paced r S) (hs : Waiting s.core) :
    rxAt r s w e = false ∧ Grid r (rxFrom r s w e) (t - e) (coreAt r s w t) := by
  cases mode_at hp hs t with
  | waiting hc => exact (hc.not_since h).elim
  | sampling e' h' hlow hgrid =>
    rw [since_unique h h']
    exact ⟨hlow, hgrid⟩

/-- One cycle after its last sample a window is complete.  Of the places on the grid this is the only
    one that the time allows. -/
theorem full_at {q : Nat} (hp : Paced r S) (hs : Waiting s.core)
    (h : SamplingSince r s w e (e + sampleTime r (10 * q + 9) + 1)) :
    Full r (rxFrom r s w e) (sampleTime r (10 * q + 9) + 1) q
      (coreAt r s w (e + sampleTime r (10 * q + 9) + 1)) := by
  have hpos := (sampleTime_zero hp).1
  have hmono := sampleTime_mono hp (Nat.zero_le (10 * q + 9))
  have hbefore := h.shorten (u := e + sampleTime r (10 * q + 9)) (by omega) (by omega)
  have hgrid := (hbefore.grid hp hs).2
  rw [Nat.add_sub_cancel_left] at hgrid
  cases hgrid with
  | running q' k hc =>
    have hlast := hc.last
    -- the core is at the last sample of window `q`: it is past all samples before it, and not past it
    have hnext : sampleTime r (10 * q + 9) ≤ sampleTime r (10 * q' + k) := by
      cases ht : (coreAt r s w (e + sampleTime r (10 * q + 9))).baud.baudtick
      · exact (hc.before ht).le
      · exact (hc.tick ht).le
    have hge : ¬ 10 * q' + k < 10 * q + 9 := by
      intro hlt
      have := sampleTime_room hp hlt
      omega
    have hle : ¬ 10 * q + 9 < 10 * q' + k := by
      intro hlt
      exact lt_irrefl _ (hc.past _ hlt)
    obtain ⟨rfl, rfl⟩ : q' = q ∧ k = 9 := by omega
    cases ht : (coreAt r s w (e + sampleTime r (10 * q' + 9))).baud.baudtick
    · exact absurd (hc.before ht) (lt_irrefl _)
    · rw [coreAt_succ]
      exact running_full hp hc ht
  | full q' hc =>
    exfalso
    have htime := hc.time
    rcases Nat.lt_or_ge (10 * q' + 9) (10 * q + 9) with hlt | hge
    · have := sampleTime_room hp hlt
      omega
    · have := sampleTime_mono hp hge
      omega

/-- **What a delivery does**: the byte of the window is announced, and the sampling is over. -/
theorem Delivered.done {q : Nat} (h : Delivered r s w e q) (hp : Paced r S) (hs : Waiting s.core) :
    Waiting (coreAt r s w (doneTime r e q)) ∧ (coreAt r s w (doneTime r e q)).rxDoneO = true ∧
      ∀ m < 8, (coreAt r s w (doneTime r e q)).dataO.getLsbD m
        = rxFrom r s w e (sampleTime r (10 * q + (m + 1))) := by
  rw [show doneTime r e q = e + sampleTime r (10 * q + 9) + 1 + 1 from rfl, coreAt_succ]
  exact full_valid (full_at hp hs h.since) h.valid.start h.valid.stop _

/-- **A byte is announced exactly when a window is delivered.**  In the cycle of the announcement the
    turn before it was a delivery, and the other way round a delivery fixes its cycle. -/
theorem done_iff (hp : Paced r S) (hs : Ready s.core) :
    (coreAt r s w t).rxDoneO = true ↔ ∃ e q, t = doneTime r e q ∧ Delivered r s w e q := by
  have hwait := waiting_of_armed hs.toArmed
  constructor
  · intro hdone
    cases t with
    | zero =>
      rw [show coreAt r s w 0 = s.core from rfl, hs.rxDoneO] at hdone
      cases hdone
    | succ t =>
      -- of the four turns only a delivery raises the flag
      cases turn_at (w := w) hp hwait t with
      | waits _ _ hno =>
        rw [hno] at hdone
        cases hdone
      | starts _ _ _ hgrid =>
        cases hgrid with
        | running _ _ hc => rw [hc.rxDoneO] at hdone; cases hdone
        | full _ hc => rw [hc.rxDoneO] at hdone; cases hdone
      | samples _ _ _ hgrid =>
        cases hgrid with
        | running _ _ hc => rw [hc.rxDoneO] at hdone; cases hdone
        | full _ hc => rw [hc.rxDoneO] at hdone; cases hdone
      | delivers e q ht hd _ _ _ => exact ⟨e, q, ht, hd⟩
  · rintro ⟨e, q, rfl, hd⟩
    exact (hd.done hp hwait).2.1

/-- Two deliveries do not overlap: one sampling ends before the edge of the other, as an edge starts
    a sampling only where the core waits. -/
theorem delivered_disjoint {q q' : Nat} (hp : Paced r S) (hs : Waiting s.core)
    (h : Delivered r s w e q) (h' : Delivered r s w e' q') :
    (e = e' ∧ q = q') ∨ doneTime r e' q' ≤ e ∨ doneTime r e q ≤ e' := by
  have h₁ := h.since.outside h'.since.idle
  have h₂ := h'.since.outside h.since.idle
  have h₃ := h.since.outside (h'.done hp hs).1.keepSampling
  have h₄ := h'.since.outside (h.done hp hs).1.keepSampling
  simp only [doneTime] at h₃ h₄ ⊢
  rcases Nat.lt_trichotomy e e' with hlt | rfl | hlt
  · omega
  · rcases Nat.lt_trichotomy (10 * q + 9) (10 * q' + 9) with hlt | heq | hlt
    · have := sampleTime_room hp hlt
      omega
    · omega
    · have := sampleTime_room hp hlt
      omega
  · omega

/-- A sampling goes on until one of its windows is delivered.  There is no other way out of it, not
    even a line that stays low. -/
theorem since_or_delivered (hp : Paced r S) (hs : Waiting s.core) (h : SamplingSince r s w e t)
    (htu : t ≤ u) : SamplingSince r s w e u ∨
      ∃ q, Delivered r s w e q ∧ t < doneTime r e q ∧ doneTime r e q ≤ u := by
  induction u, htu using Nat.le_induction with
  -- the induction is on the time since `t`, one turn for each cycle
  | base => exact Or.inl h
  | succ u htu ih =>
    rcases ih with hu | ⟨q, hd, hlo, hhi⟩
    · cases turn_at (w := w) hp hs u with
      -- a core that waits is in no sampling
      | waits hc _ _ => exact (hc.not_since hu).elim
      | starts hc _ _ _ => exact (hc.not_since hu).elim
      -- the sampling goes on, and it is the same one
      | samples e' hold hnew _ =>
        rw [since_unique hu hold]
        exact Or.inl hnew
      -- its window is delivered
      | delivers e' q ht hd _ _ _ =>
        have hlast : u = e' + sampleTime r (10 * q + 9) + 1 := by
          rw [doneTime] at ht
          omega
        have heq : e = e' := since_unique hu (hlast ▸ hd.since)
        rw [heq]
        exact Or.inr ⟨q, hd, by omega, by omega⟩
    · exact Or.inr ⟨q, hd, hlo, by omega⟩

/-- A window takes nine bit times and a little more. -/
theorem doneTime_bounds (hp : Paced r S) (e q : Nat) :
    e + sampleTime r (10 * q) + 9 * S + 2 ≤ doneTime r e q ∧
    doneTime r e q ≤ e + sampleTime r (10 * q) + 9 * S + 11 := by
  have hadd := sampleTime_add hp (10 * q) 9
  rw [doneTime]
  omega

theorem received_ne_nil {c : Core} : c.received ≠ [] ↔ c.rxDoneO = true := by
  rw [Core.received]
  split_ifs with h <;> simp [h]

theorem received_done {c : Core} (h : c.rxDoneO = true) : c.received = [c.dataO] := by
  rw [Core.received, if_pos h]

/-- When one cycle of a stretch announces a byte and no other does, that byte is what the stretch
    delivers. -/
theorem eventsFrom_done {n : Nat} (ha : a ≤ u) (hn : u < a + n)
    (hdone : (coreAt r s w u).rxDoneO = true)
    (honly : ∀ t, a ≤ t → t < a + n → (coreAt r s w t).rxDoneO = true → t = u) :
    eventsFrom (next r) (fun s _ => s.core.received) s w a n = [(coreAt r s w u).dataO] := by
  rw [← received_done hdone]
  exact eventsFrom_single ha hn fun t hat htn ht => honly t hat htn (received_ne_nil.mp ht)

/-- When no two cycles of a stretch announce a byte, the stretch delivers none or one.  It turns what
    is known about single cycles into a statement about the list of events. -/
theorem eventsFrom_once {n : Nat}
    (h : ∀ t u, a ≤ t → t < u → u < a + n → (coreAt r s w t).rxDoneO = true →
      (coreAt r s w u).rxDoneO = false) :
    eventsFrom (next r) (fun s _ => s.core.received) s w a n = [] ∨
      ∃ u, a ≤ u ∧ u < a + n ∧ (coreAt r s w u).rxDoneO = true ∧
        eventsFrom (next r) (fun s _ => s.core.received) s w a n = [(coreAt r s w u).dataO] := by
  have hunique : ∀ t u, a ≤ t → t < u → u < a + n → (coreAt r s w t).received ≠ [] →
      (coreAt r s w u).received = [] := by
    intro t u hat htu hu ht
    rw [Core.received, h t u hat htu hu (received_ne_nil.mp ht)]
    rfl
  rcases (show eventsFrom (next r) (fun s _ => s.core.received) s w a n = [] ∨ _ from
    eventsFrom_unique hunique) with hnone | ⟨u, hau, hun, hsome, hone⟩
  · exact Or.inl hnone
  · have hdone := received_ne_nil.mp hsome
    exact Or.inr ⟨u, hau, hun, hdone, hone.trans (received_done hdone)⟩

/-- A byte of a stretch was announced in one of its cycles, and is the one on `data_o` there. -/
theorem mem_announced {n : Nat} {c : Byte}
    (h : c ∈ eventsFrom (next r) (fun s _ => s.core.received) s w a n) :
    ∃ t, a ≤ t ∧ t < a + n ∧ (coreAt r s w t).rxDoneO = true ∧ (coreAt r s w t).dataO = c := by
  obtain ⟨t, hat, htn, hc⟩ := mem_eventsFrom h
  have hdone : (coreAt r s w t).rxDoneO = true :=
    received_ne_nil.mp fun hnil => List.ne_nil_of_mem hc hnil
  have hone : c ∈ (coreAt r s w t).received := hc
  rw [received_done hdone, List.mem_singleton] at hone
  exact ⟨t, hat, htn, hdone, hone.symm⟩

end History

end RiscDbgUart.UartRx
