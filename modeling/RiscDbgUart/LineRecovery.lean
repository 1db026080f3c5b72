/-
  The receiver after a line error.

  The core looks for a falling edge only while it waits.  Once a window of ten samples does not look
  like a frame it goes on with the next window of the same grid (and hands the samples to the other
  channel), for as long as none of them does.  So what a frame meets after an idle line depends on
  what the line did before: a core that waits takes its samples from the edge of the frame; a core
  that still samples since an old edge takes them where the grid of that edge happens to lie.

  `recovers_iff` says exactly when a frame after an idle time of 30 bits is received: when the core
  waits, or a window of its grid is in step with the frame.  What is announced during the idle time
  is at most the byte that was under way at its start, whatever the line did before (`idle_announced`).

  Both directions of `recovers_iff` compare the window of the grid with the frame, since what the core does
  with the line is settled by `UartSampling`: `byte_of_in_step` takes a window in step to the byte,
  `in_step_of_byte` shows with a byte of zeros that no other window would do, and a window that begins in
  the idle time is never delivered (`window_not_idle`).
-/
import RiscDbgUart.UartSampling

set_option linter.unusedVariables false

namespace RiscDbgUart.LineRecovery

open Clocked UartRx

/-! ## The line -/

/-- A frame with `SAMPLE_INTERVAL` cycles per bit, `x` cycles after its start, and the line high
    behind it. -/
def frameLevel (r : Rates) (b : Byte) (x : Nat) : Bool :=
  (frameOf b).getLsbD (min 9 (x / r.sampleInterval))

/-- Any waveform up to cycle `a`, and the line high from there on. -/
def highFrom (w : Nat → Bool) (a t : Nat) : Bool := if t < a then w t else true

/-- Any waveform up to cycle `a`, the line high for `n` cycles, and a frame. -/
def line (r : Rates) (w : Nat → Bool) (a n : Nat) (b : Byte) (t : Nat) : Bool :=
  if t < a + n then highFrom w a t else frameLevel r b (t - (a + n))

/-- The bytes announced in the `m` cycles from cycle `t` on, in a run from reset. -/
def announced (r : Rates) (l : Nat → Bool) (t m : Nat) : List Byte :=
  eventsFrom (next r) (fun s _ => s.core.received) (reset r) l t m

/-- **Recovery**: the byte of the frame is announced once and with nothing else, and in the idle time
    before it at most one byte is, which was then under way when the idle time began. -/
structure Recovers (r : Rates) (w : Nat → Bool) (a n : Nat) : Prop where
  byte : ∀ b m, r.sampleInterval ≤ m →
    announced r (line r w a n b) (a + n) (10 * r.sampleInterval + m) = [b]
  idle : ∀ b, announced r (line r w a n b) a n = [] ∨
    (¬ Resting (stateAt (next r) (reset r) w a) ∧ ∃ c, announced r (line r w a n b) a n = [c])

/-- A window of the sampling since the edge in cycle `e` has its samples in the bits of a frame that
    reaches the core in cycle `f`: the first is not before the start bit, the ninth before the stop
    bit. -/
def InStep (r : Rates) (e f : Nat) : Prop :=
  ∃ q, f ≤ e + sampleTime r (10 * q) ∧ e + sampleTime r (10 * q + 8) < f + 9 * r.sampleInterval

variable {r : Rates} {w : Nat → Bool} {a n m t u e q k : Nat} {b : Byte}

theorem line_before (ht : t < a) : line r w a n b t = w t := by
  rw [line, if_pos (by omega), highFrom, if_pos ht]

theorem line_high (ha : a ≤ t) (ht : t < a + n) : line r w a n b t = true := by
  rw [line, if_pos ht, highFrom, if_neg (by omega)]

theorem line_frame (x : Nat) : line r w a n b (a + n + x) = frameLevel r b x := by
  rw [line, if_neg (by omega), Nat.add_sub_cancel_left]

/-! ## What the core sees -/

/-- What the core sees of the line in cycle `t` of a run from reset. -/
def seen (r : Rates) (w : Nat → Bool) (a n : Nat) (b : Byte) (t : Nat) : Bool :=
  rxAt r (reset r) (line r w a n b) t

/-- In the idle time it sees a high line. -/
theorem seen_idle (ha : a + 4 ≤ t) (ht : t < a + n + 4) : seen r w a n b t = true := by
  obtain ⟨x, rfl⟩ : ∃ x, t = x + 4 := ⟨t - 4, by omega⟩
  rw [seen, rxAt_add_four, line_high (by omega) (by omega)]

/-- Bit `k` of the frame reaches it `k` bit times after the frame does. -/
theorem seen_bit (hk : k ≤ 9) (hlo : a + n + 4 + k * r.sampleInterval ≤ t)
    (hhi : t < a + n + 4 + (k + 1) * r.sampleInterval) :
    seen r w a n b t = (frameOf b).getLsbD k := by
  obtain ⟨x, rfl⟩ : ∃ x, t = a + n + x + 4 := ⟨t - (a + n) - 4, by omega⟩
  rw [seen, rxAt_add_four, line_frame, frameLevel,
    Nat.div_eq_of_lt_le (show k * r.sampleInterval ≤ x by omega) (by omega), Nat.min_eq_right hk]

/-- From the stop bit on it sees a high line. -/
theorem seen_end (hS : 0 < r.sampleInterval) (ht : a + n + 4 + 9 * r.sampleInterval ≤ t) :
    seen r w a n b t = true := by
  obtain ⟨x, rfl⟩ : ∃ x, t = a + n + x + 4 := ⟨t - (a + n) - 4, by omega⟩
  have hdiv : 9 ≤ x / r.sampleInterval := (Nat.le_div_iff_mul_le hS).mpr (by omega)
  rw [seen, rxAt_add_four, line_frame, frameLevel, Nat.min_eq_left hdiv, frameOf_stop]

/-- The past of the frame does not depend on it: what the core has sampled by then is decided by the
    line before, which is the same with the frame and without it. -/
theorem since_line : SamplingSince r (reset r) (highFrom w a) e (a + n)
    ↔ SamplingSince r (reset r) (line r w a n b) e (a + n) := by
  have hsame : ∀ t ≤ a + n, coreAt r (reset r) (highFrom w a) t
      = coreAt r (reset r) (line r w a n b) t := by
    intro t ht
    rw [coreAt, coreAt, stateAt_congr fun u hu => ?_]
    rw [line, if_pos (by omega)]
  constructor
  · rintro ⟨hbefore, hidle, hon⟩
    refine ⟨hbefore, ?_, fun u heu hut => ?_⟩
    · rw [← hsame e (by omega)]
      exact hidle
    · rw [← hsame u hut]
      exact hon u heu hut
  · rintro ⟨hbefore, hidle, hon⟩
    refine ⟨hbefore, ?_, fun u heu hut => ?_⟩
    · rw [hsame e (by omega)]
      exact hidle
    · rw [hsame u hut]
      exact hon u heu hut

/-! ## Windows in the idle time -/

/-- A sampling is not begun in the idle time, where there is no edge, nor after the last data bit, as
    the line is high from the stop bit on. -/
theorem since_edges (h : Supported r) (hsince : SamplingSince r (reset r) (line r w a n b) e t) :
    (e < a + 4 ∨ a + n + 4 ≤ e) ∧ e < a + n + 4 + 9 * r.sampleInterval := by
  have hsample := h.sample_le
  have hlow : seen r w a n b e = false := (hsince.grid h.paced (waiting_reset r)).1
  constructor
  · by_contra hin
    rw [seen_idle (by omega) (by omega)] at hlow
    cases hlow
  · by_contra hin
    rw [seen_end (by omega) (by omega)] at hlow
    cases hlow

/-- A window that begins in the idle time is not delivered. -/
theorem window_not_idle (hv : LooksValid r (reset r) (line r w a n b) e q) :
    e + sampleTime r (10 * q) < a + 4 ∨ a + n + 4 ≤ e + sampleTime r (10 * q) := by
  have hlow : seen r w a n b (e + sampleTime r (10 * q)) = false := hv.start
  by_contra hin
  rw [seen_idle (by omega) (by omega)] at hlow
  cases hlow

/-- A cycle of such a run announces a byte exactly when a window is delivered in it. -/
theorem done_line (h : Supported r) :
    (coreAt r (reset r) (line r w a n b) t).rxDoneO = true
      ↔ ∃ e q, t = doneTime r e q ∧ Delivered r (reset r) (line r w a n b) e q :=
  done_iff h.paced (resting_reset r).ready

theorem disjoint_line {e' q' : Nat} (h : Supported r)
    (hd : Delivered r (reset r) (line r w a n b) e q)
    (hd' : Delivered r (reset r) (line r w a n b) e' q') :
    (e = e' ∧ q = q') ∨ doneTime r e' q' ≤ e ∨ doneTime r e q ≤ e' :=
  delivered_disjoint h.paced (waiting_reset r) hd hd'

/-! ## The idle time -/

/-- Two bytes are not announced in the idle time: the second would be of a window that begins in
    it. -/
theorem idle_once (h : Supported r) (hS : 24 ≤ r.sampleInterval) (hat : a ≤ t) (htu : t < u)
    (hu : u < a + n) (hdone : (coreAt r (reset r) (line r w a n b) t).rxDoneO = true) :
    (coreAt r (reset r) (line r w a n b) u).rxDoneO = false := by
  rw [← Bool.not_eq_true, done_line h]
  rintro ⟨e', q', rfl, hd'⟩
  obtain ⟨e, q, rfl, hd⟩ := (done_line h).mp hdone
  have hp := h.paced
  have hbounds := (doneTime_bounds hp e q).1
  have hbounds' := (doneTime_bounds hp e' q').1
  have hfirst := (sampleTime_zero hp).1
  have hmono := sampleTime_mono hp (Nat.zero_le (10 * q'))
  have hwindow := window_not_idle hd'.valid
  rcases disjoint_line h hd hd' with ⟨rfl, rfl⟩ | hbefore | hafter <;> omega

/-- A receiver at rest announces nothing in the idle time, since nothing starts a sampling. -/
theorem idle_resting (h : Supported r)
    (hrest : Resting (stateAt (next r) (reset r) w a)) (hat : a ≤ t) (ht : t < a + n) :
    (coreAt r (reset r) (line r w a n b) t).rxDoneO = false := by
  have hsame : stateAt (next r) (reset r) w a = stateAt (next r) (reset r) (line r w a n b) a :=
    stateAt_congr fun u hu => (line_before hu).symm
  rw [hsame] at hrest
  rw [← Bool.not_eq_true, done_line h]
  rintro ⟨e, q, rfl, hd⟩
  have hbounds := (doneTime_bounds h.paced e q).1
  have hedge := since_edges h hd.since
  have hlow : rxAt r (reset r) (line r w a n b) e = false :=
    (hd.since.grid h.paced (waiting_reset r)).1
  rcases Nat.lt_or_ge e a with hea | hea
  · -- begun before the idle time: the receiver would not be at rest
    have hout := hd.since.outside hrest.ready.keepSampling
    have hnow : doneTime r e q = a := by
      rw [doneTime] at hat ⊢
      omega
    have hdone := (done_line h).mpr ⟨e, q, rfl, hd⟩
    rw [hnow, coreAt, hrest.ready.rxDoneO] at hdone
    cases hdone
  · rw [hrest.rx_high hea (by omega)] at hlow
    cases hlow

/-- **The idle time**: at most the byte under way at its start is announced.  A second one would need
    an edge behind the first. -/
theorem idle_announced (h : Supported r) (hS : 24 ≤ r.sampleInterval) (b : Byte) :
    announced r (line r w a n b) a n = [] ∨
      (¬ Resting (stateAt (next r) (reset r) w a) ∧
        ∃ c, announced r (line r w a n b) a n = [c]) := by
  rcases eventsFrom_once fun t u hat htu hu => idle_once h hS hat htu hu with
    hnone | ⟨u, hau, hun, hdone, hone⟩
  · exact Or.inl hnone
  · refine Or.inr ⟨fun hrest => ?_, _, hone⟩
    rw [idle_resting h hrest hau hun] at hdone
    cases hdone

/-! ## The frame -/

/-- The samples of a window that is in step are the bits of the frame.  As they are a bit time apart,
    or one cycle more, each of them falls into a bit of its own. -/
theorem in_step_bit (h : Supported r) (hk : k ≤ 8) (hlo : a + n + 4 ≤ e + sampleTime r (10 * q))
    (hhi : e + sampleTime r (10 * q + 8) < a + n + 4 + 9 * r.sampleInterval) :
    seen r w a n b (e + sampleTime r (10 * q + k)) = (frameOf b).getLsbD k := by
  have hfrom := (sampleTime_add h.paced (10 * q) k).1
  have hto := (sampleTime_add h.paced (10 * q + k) (8 - k)).1
  have hsum : (k + 1) * r.sampleInterval + (8 - k) * r.sampleInterval = 9 * r.sampleInterval := by
    rw [← Nat.add_mul]
    congr 1
    omega
  rw [show 10 * q + k + (8 - k) = 10 * q + 8 by omega] at hto
  exact seen_bit (by omega) (by omega) (by omega)

/-- The last sample of a window that is in step finds the stop bit. -/
theorem in_step_stop (h : Supported r) (hlo : a + n + 4 ≤ e + sampleTime r (10 * q)) :
    seen r w a n b (e + sampleTime r (10 * q + 9)) = true := by
  have hfrom := (sampleTime_add h.paced (10 * q) 9).1
  have hsample := h.sample_le
  exact seen_end (by omega) (by omega)

/-- When the frame reaches the core, the core is in a sampling with a window that is in step: the one
    it was in, or one that the frame's own edge starts. -/
theorem sampling_in_step (h : Supported r) (hS : 24 ≤ r.sampleInterval)
    (hn : 30 * r.sampleInterval ≤ n)
    (hstep : ∀ e, SamplingSince r (reset r) (highFrom w a) e (a + n) → InStep r e (a + n + 4)) :
    ∃ e q t, SamplingSince r (reset r) (line r w a n b) e t ∧
      a + n + 4 ≤ t ∧ t ≤ a + n + 5 ∧ (e < a + 4 ∨ e = a + n + 4 ∧ q = 0) ∧
      a + n + 4 ≤ e + sampleTime r (10 * q) ∧
      e + sampleTime r (10 * q + 8) < a + n + 4 + 9 * r.sampleInterval := by
  have hp := h.paced
  have hwait := waiting_reset r
  cases mode_at (w := line r w a n b) hp hwait (a + n + 4) with
  -- the core waits: the edge of the frame starts its own sampling
  | waiting hc =>
    have hhigh : seen r w a n b (a + n + 3) = true := seen_idle (by omega) (by omega)
    have hlow : seen r w a n b (a + n + 4) = false :=
      (seen_bit (k := 0) (by omega) (by omega) (by omega)).trans (frameOf_start b)
    have hstart := (since_edge hp hc hhigh hlow).1
    have hfirst := (sampleTime_zero hp).2
    have hadd := (sampleTime_add hp 0 8).2
    rw [Nat.zero_add] at hadd
    refine ⟨a + n + 4, 0, a + n + 5, hstart, by omega, le_rfl, Or.inr ⟨rfl, rfl⟩, by omega, ?_⟩
    rw [Nat.mul_zero, Nat.zero_add]
    omega
  -- the core is in a sampling of before, and the hypothesis speaks of it
  | sampling e hsince _ _ =>
    have hbefore := hsince.before
    have hedges := since_edges h hsince
    have hold := hsince.shorten (u := a + n) (by omega) (by omega)
    obtain ⟨q, hlo, hhi⟩ := hstep e (since_line.mpr hold)
    exact ⟨e, q, a + n + 4, hsince, le_rfl, by omega, Or.inl (by omega), hlo, hhi⟩

/-- A window that is in step is delivered: those before it in the sampling begin in the idle time, so
    their start bit is high and none of them ends the sampling. -/
theorem in_step_delivered (h : Supported r) (hS : 24 ≤ r.sampleInterval)
    (hn : 30 * r.sampleInterval ≤ n)
    (hsince : SamplingSince r (reset r) (line r w a n b) e t) (ht : a + n + 4 ≤ t)
    (ht' : t ≤ a + n + 5) (he : e < a + 4 ∨ e = a + n + 4 ∧ q = 0)
    (hlo : a + n + 4 ≤ e + sampleTime r (10 * q))
    (hhi : e + sampleTime r (10 * q + 8) < a + n + 4 + 9 * r.sampleInterval) :
    Delivered r (reset r) (line r w a n b) e q := by
  have hp := h.paced
  have hwait := waiting_reset r
  have hroom := sampleTime_mono hp (show 10 * q ≤ 10 * q + 9 by omega)
  have hvalid : LooksValid r (reset r) (line r w a n b) e q :=
    ⟨(in_step_bit h (k := 0) (by omega) hlo hhi).trans (frameOf_start b), in_step_stop h hlo⟩
  refine ⟨?_, hvalid⟩
  rcases since_or_delivered hp hwait hsince
    (show t ≤ e + sampleTime r (10 * q + 9) + 1 by omega) with hgoes | ⟨q', hd, hfrom, hto⟩
  · exact hgoes
  · exfalso
    -- an earlier window would have ended after the frame began
    have hlt : q' < q := by
      by_contra hge
      have hmono := sampleTime_mono hp (show 10 * q + 9 ≤ 10 * q' + 9 by omega)
      rw [doneTime] at hto
      omega
    have hwindow := window_not_idle hd.valid
    have hbounds := doneTime_bounds hp e q'
    have hnext := (sampleTime_add hp (10 * q') 10).1
    have hmono := sampleTime_mono hp (show 10 * q' + 10 ≤ 10 * q by omega)
    have hninth := (sampleTime_add hp (10 * q) 8).1
    omega

/-- **A frame in step is received**, and nothing else is announced with it.  It is the half of
    `recovers_iff` that says the condition is enough. -/
theorem byte_of_in_step (h : Supported r) (hS : 24 ≤ r.sampleInterval)
    (hn : 30 * r.sampleInterval ≤ n)
    (hstep : ∀ e, SamplingSince r (reset r) (highFrom w a) e (a + n) → InStep r e (a + n + 4))
    (hm : r.sampleInterval ≤ m) :
    announced r (line r w a n b) (a + n) (10 * r.sampleInterval + m) = [b] := by
  have hp := h.paced
  have hwait := waiting_reset r
  obtain ⟨e, q, t, hsince, ht, ht', he, hlo, hhi⟩ := sampling_in_step (b := b) h hS hn hstep
  have hdel := in_step_delivered h hS hn hsince ht ht' he hlo hhi
  obtain ⟨-, hdone, hdata⟩ := hdel.done hp hwait
  have hbounds := (doneTime_bounds hp e q).1
  have hlast := (sampleTime_succ hp (10 * q + 8)).2
  have hend : doneTime r e q < a + n + (10 * r.sampleInterval + m) := by
    rw [doneTime, show 10 * q + 9 = 10 * q + 8 + 1 from rfl]
    omega
  -- a window delivered in that time overlaps this one or looks like the idle line
  have honly : ∀ u, a + n ≤ u → u < a + n + (10 * r.sampleInterval + m) →
      (coreAt r (reset r) (line r w a n b) u).rxDoneO = true → u = doneTime r e q := by
    intro u hu _ hyes
    obtain ⟨e', q', rfl, hd⟩ := (done_line h).mp hyes
    have hedges := since_edges h hd.since
    have hwindow := window_not_idle hd.valid
    have hbounds' := (doneTime_bounds hp e' q').2
    have hafter := (doneTime_bounds hp e' q').1
    rcases disjoint_line h hdel hd with ⟨rfl, rfl⟩ | hbefore | hlate
    · rfl
    · omega
    · omega
  have hbyte : (coreAt r (reset r) (line r w a n b) (doneTime r e q)).dataO = b := by
    apply BitVec.eq_of_getLsbD_eq
    intro i hi
    rw [hdata i hi, ← frameOf_data b hi]
    exact in_step_bit h (by omega) hlo hhi
  rw [announced, eventsFrom_done (by omega) hend hdone honly, hbyte]

/-- **A frame out of step is not received**: a window that reads the byte 0 as such has its ninth
    sample before the stop bit. -/
theorem in_step_of_byte (h : Supported r) (hS : 24 ≤ r.sampleInterval)
    (hn : 30 * r.sampleInterval ≤ n)
    (hbyte : announced r (line r w a n 0) (a + n) (10 * r.sampleInterval + r.sampleInterval) = [0])
    (hsince : SamplingSince r (reset r) (highFrom w a) e (a + n)) : InStep r e (a + n + 4) := by
  have hp := h.paced
  have hwait := waiting_reset r
  obtain ⟨t, hat, -, hdone, hdata⟩ := mem_announced
    (show (0 : Byte) ∈ announced r (line r w a n 0) _ _ by rw [hbyte]; exact List.mem_cons_self ..)
  obtain ⟨e', q, rfl, hd⟩ := (done_line h).mp hdone
  have hold : SamplingSince r (reset r) (line r w a n 0) e (a + n) := since_line.mp hsince
  have hbefore := hold.before
  have hedge := since_edges h hold
  have hedge' := since_edges h hd.since
  have hwindow := window_not_idle hd.valid
  have hbounds := doneTime_bounds hp e' q
  -- the byte is of the sampling that the frame found
  obtain rfl : e' = e := by
    have hout := hold.outside hd.since.idle
    have hout' := hd.since.outside hold.idle
    have hlast : doneTime r e' q = e' + sampleTime r (10 * q + 9) + 1 + 1 := rfl
    by_contra hne
    have hlater : a + n < e' := by omega
    rcases since_or_delivered hp hwait hold hlater.le with hgoes | ⟨q', hd', hfrom, hto⟩
    · have := hgoes.outside hd.since.idle
      omega
    · have hwindow' := window_not_idle hd'.valid
      have hbounds' := doneTime_bounds hp e q'
      omega
  refine ⟨q, by omega, ?_⟩
  by_contra hlate
  have hstop : seen r w a n 0 (e' + sampleTime r (10 * q + 8)) = true :=
    seen_end (by omega) (by omega)
  have hbit := (hd.done hp hwait).2.2 7 (by omega)
  rw [hdata, rxFrom, show 10 * q + (7 + 1) = 10 * q + 8 from rfl,
    show rxAt r (reset r) (line r w a n 0) _ = true from hstop] at hbit
  cases hbit

/-- **When the receiver recovers**: exactly when, at the end of the idle time, it waits or is in a
    sampling with a window that is in step with the frame.  What is announced in the idle time is in
    every case at most the byte that was under way at its start. -/
theorem recovers_iff (h : Supported r) (hS : 24 ≤ r.sampleInterval) (w : Nat → Bool) (a : Nat)
    (hn : 30 * r.sampleInterval ≤ n) :
    (Recovers r w a n ↔
      ∀ e, SamplingSince r (reset r) (highFrom w a) e (a + n) → InStep r e (a + n + 4)) ∧
    ∀ b, announced r (line r w a n b) a n = [] ∨
      (¬ Resting (stateAt (next r) (reset r) w a) ∧ ∃ c, announced r (line r w a n b) a n = [c]) := by
  refine ⟨⟨?_, ?_⟩, fun b => idle_announced h hS b⟩
  · intro hrec e hsince
    exact in_step_of_byte h hS hn (hrec.byte 0 r.sampleInterval le_rfl) hsince
  · intro hstep
    exact ⟨fun b m hm => byte_of_in_step h hS hn hstep hm, fun b => idle_announced h hS b⟩

/-! ## A line error -/

/-- 48 MHz and 2 Mbaud: 24 cycles per bit. -/
def rates24 : Rates := ⟨48000000, 2000000⟩

/-- The line is low for one cycle. -/
def glitch (t : Nat) : Bool := decide (t ≠ 0)

/-- The only edge of such a line is seen in cycle 4. -/
theorem glitch_edge (hr : Supported r) (hsince : SamplingSince r (reset r) (highFrom glitch 1) e t) :
    e = 4 := by
  have hrest : Resting (stateAt (next r) (reset r) (highFrom glitch 1) 0) := resting_reset r
  have hlow := (hsince.grid hr.paced (waiting_reset r)).1
  rcases Nat.lt_or_ge e 4 with he | he
  · rw [hrest.rx_high (Nat.zero_le e) (by omega)] at hlow
    cases hlow
  · obtain ⟨x, rfl⟩ : ∃ x, e = x + 4 := ⟨e - 4, by omega⟩
    rw [rxAt_add_four, highFrom] at hlow
    by_contra hne
    rw [if_neg (by omega)] at hlow
    cases hlow

/-- After 30 bit times, window 3 of the grid is in step. -/
theorem recovers_glitch : Recovers rates24 glitch 1 720 :=
  (recovers_iff ⟨by decide, by decide, by decide⟩ (by decide) glitch 1 (by decide)).1.mpr
    fun e hsince => by
      rw [glitch_edge ⟨by decide, by decide, by decide⟩ hsince]
      exact ⟨3, by decide, by decide⟩

/-- Forty cycles later a frame is lost: no byte is announced at all.  The sampling that the glitch has
    started is still going on, and it is out of step with the frame. -/
theorem not_recovers_glitch : ¬ Recovers rates24 glitch 1 760 := by
  intro hrec
  have hbyte := hrec.byte 0 24 (by decide)
  have hnone : emitted (next rates24) (fun s _ => s.core.received) (reset rates24)
      ((List.range (761 + 264)).map (line rates24 glitch 1 760 0)) = [] := by
    decide +kernel
  rw [emitted_range, eventsFrom_add, List.append_eq_nil_iff, Nat.zero_add] at hnone
  exact absurd (hnone.2.symm.trans hbyte) (by decide)

end RiscDbgUart.LineRecovery
