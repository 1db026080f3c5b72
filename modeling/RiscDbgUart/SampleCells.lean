/-
  Where the receiver's samples fall in the bits of an ideal transmitter.

  A bit of the transmitter is `CLK_RATE / BAUD_RATE` cycles long, as a fraction; the receiver counts
  whole cycles, and delays a tick once in a period "to deal with phase deviations introduced by
  integer division".  The period is `REMAINDER_INTERVAL` ticks, that is ten times the fraction that
  is lost per bit, where one delay in `10 / REMAINDER_INTERVAL` ticks is what the fraction asks for.
  So the smaller the fraction, the more delays there are: with a remainder interval of 1 every tick
  is delayed, and the grid runs ahead of the bits by almost a cycle each.

  A sample starts out in the middle of its bit, which absorbs the ten cycles of a frame when a bit
  has more than 18 cycles.  Below that the sample of the last data bit can fall into the stop bit,
  and with 16 cycles that of the bit before it into the last data bit (`LastLate`, `NextLate`).  No
  other sample leaves its bit (`level_own`), so a byte is received exactly when it does not mind
  (`delivers_iff`).

  Everything is scaled by the baud rate, so that the bits of the transmitter end at whole numbers
  (`sample_scaled`, `cell_scaled`).  No sample comes before its bit (`not_early`).  None comes
  after it where not every tick is delayed (`not_late`), and where every tick is, none that has a cycle
  to spare (`not_late_delayed`, `spare_delayed`).
-/
import RiscDbgUart.UartSampling

set_option linter.unusedVariables false

namespace RiscDbgUart.SampleCells

open Clocked UartRx

/-! ## The line and the condition -/

/-- The line `x` cycles after the start edge: bit `k` of the frame is on it in the cycles from
    `k * CLK_RATE / BAUD_RATE` up to `(k + 1) * CLK_RATE / BAUD_RATE`, and then it stays high. -/
def idealLevel (r : Rates) (b : Byte) (x : Nat) : Bool :=
  (frameOf b).getLsbD (min 9 (x * r.baudRate / r.clkRate))

/-- Every tick is delayed, and a bit is so short that the sample of the last data bit is taken in the
    stop bit. -/
def LastLate (r : Rates) : Prop :=
  r.clkRate % r.baudRate * 10 / r.baudRate = 1 ∧
    (r.clkRate / r.baudRate = 16 ∨
      r.clkRate / r.baudRate ≤ 18 ∧ 9 * (r.clkRate % r.baudRate) ≤ r.baudRate)

/-- The sample before it is late as well, and taken in the last data bit. -/
def NextLate (r : Rates) : Prop :=
  r.clkRate % r.baudRate * 10 / r.baudRate = 1 ∧ r.clkRate / r.baudRate = 16 ∧
    8 * (r.clkRate % r.baudRate) ≤ r.baudRate

instance (r : Rates) : Decidable (LastLate r) := inferInstanceAs (Decidable (_ ∧ (_ ∨ _)))
instance (r : Rates) : Decidable (NextLate r) := inferInstanceAs (Decidable (_ ∧ _))

/-- A late sample finds what it would have found in its own bit: the stop bit is high, so the bits
    sampled late have to be. -/
def Tolerant (r : Rates) (b : Byte) : Prop :=
  (LastLate r → b.getLsbD 7 = true) ∧ (NextLate r → b.getLsbD 6 = true)

instance (r : Rates) (b : Byte) : Decidable (Tolerant r b) := inferInstanceAs (Decidable (_ ∧ _))

/-! ## The grid against the bits -/

variable {r : Rates} {b : Byte} {k x n : Nat} {s : State}

theorem level_cell (hk : k ≤ 9) (hlo : k * r.clkRate ≤ x * r.baudRate)
    (hhi : x * r.baudRate < (k + 1) * r.clkRate) :
    idealLevel r b x = (frameOf b).getLsbD k := by
  rw [idealLevel, Nat.div_eq_of_lt_le hlo hhi, Nat.min_eq_right hk]

/-- From the stop bit on the line is high. -/
theorem level_high (hc : 0 < r.clkRate) (hx : 9 * r.clkRate ≤ x * r.baudRate) :
    idealLevel r b x = true := by
  have hdiv : 9 ≤ x * r.baudRate / r.clkRate := (Nat.le_div_iff_mul_le hc).mpr hx
  rw [idealLevel, Nat.min_eq_left hdiv, frameOf_stop]

/-- A remainder interval of 0 is loaded as 3, so only an interval of 1 delays every tick. -/
theorem period_cases (h : Supported r) :
    (r.clkRate % r.baudRate * 10 / r.baudRate = 1 ∧ BaudGen.period (baudParams r) = 1) ∨
    (r.clkRate % r.baudRate * 10 / r.baudRate ≠ 1 ∧ 2 ≤ BaudGen.period (baudParams r)) := by
  have hratio := h.ratio
  have hclk := h.clk_lt
  have hmod : r.clkRate % r.baudRate < r.baudRate := Nat.mod_lt _ h.baud_pos
  have hle : r.clkRate % r.baudRate * 10 / r.baudRate < 10 :=
    (Nat.div_lt_iff_lt_mul h.baud_pos).mpr (by omega)
  rw [BaudGen.period, BaudGen.loadRemainder, h.remainder_eq]
  generalize r.clkRate % r.baudRate * 10 / r.baudRate = R at hle
  rcases Nat.eq_zero_or_pos R with rfl | hpos
  · right
    decide
  · rw [BaudGen.load_eq hpos le_rfl (by omega)]
    omega

theorem period_one (h : Supported r) (hr : r.clkRate % r.baudRate * 10 / r.baudRate = 1) :
    BaudGen.period (baudParams r) = 1 := by
  rcases period_cases h with ⟨-, hp⟩ | ⟨hno, -⟩
  · exact hp
  · exact absurd hr hno

/-- Half a bit after the start of its bit, and later by the delays so far. -/
theorem sampleTime_eq (h : Supported r) (k : Nat) : sampleTime r k
    = r.sampleInterval / 2 + k * r.sampleInterval + (k + 1) / BaudGen.period (baudParams r) + 1 := by
  rw [sampleTime, BaudGen.tickTime, h.paced.sample, h.paced.first]

/-- The clock rate is `SAMPLE_INTERVAL` times the baud rate, and a rest. -/
theorem clk_eq (h : Supported r) :
    r.clkRate = r.sampleInterval * r.baudRate + r.clkRate % r.baudRate := by
  rw [h.sample_eq]
  exact (Nat.div_add_mod' _ _).symm

/-- `n` cycles fit between the middle of a bit and its end. -/
theorem half_bit (n : Nat) (hn : n + r.sampleInterval / 2 ≤ r.sampleInterval) :
    n * r.baudRate + r.sampleInterval / 2 * r.baudRate ≤ r.sampleInterval * r.baudRate := by
  rw [← Nat.add_mul]
  exact Nat.mul_le_mul_right _ hn

theorem eight_le_half (h : Supported r) :
    8 * r.baudRate ≤ r.sampleInterval / 2 * r.baudRate := by
  have hle := h.sample_le
  exact Nat.mul_le_mul_right _ (by omega)

/-- The position of sample `k`, as a fraction of the clock rate. -/
theorem sample_scaled (h : Supported r) (k : Nat) : sampleTime r k * r.baudRate
    = r.sampleInterval / 2 * r.baudRate + k * (r.sampleInterval * r.baudRate)
      + ((k + 1) / BaudGen.period (baudParams r) + 1) * r.baudRate := by
  rw [sampleTime_eq h]
  ring

/-- The start of bit `k`. -/
theorem cell_scaled (h : Supported r) (k : Nat) : k * r.clkRate
    = k * (r.sampleInterval * r.baudRate) + k * (r.clkRate % r.baudRate) := by
  rw [← Nat.mul_add, ← clk_eq h]

/-- No sample is taken before its bit. -/
theorem not_early (h : Supported r) (hk : k ≤ 9) : k * r.clkRate ≤ sampleTime r k * r.baudRate := by
  have hrest : r.clkRate % r.baudRate < r.baudRate := Nat.mod_lt _ h.baud_pos
  have hmul : k * (r.clkRate % r.baudRate) ≤ 9 * r.baudRate := Nat.mul_le_mul hk hrest.le
  have hhalf := eight_le_half h
  rw [sample_scaled h, cell_scaled h, Nat.add_mul, Nat.one_mul]
  omega

/-- When not every tick is delayed, no sample up to the last data bit is taken after its bit.  Then at most
    four delays fall into a frame, and half a bit has room for them. -/
theorem not_late (h : Supported r) (hk : k ≤ 8) (hp : 2 ≤ BaudGen.period (baudParams r)) :
    sampleTime r k * r.baudRate < (k + 1) * r.clkRate := by
  have hbaud := h.baud_pos
  have hhalf := eight_le_half h
  have hbit := half_bit (r := r) (r.sampleInterval / 2) (by omega)
  have hdelays : (k + 1) / BaudGen.period (baudParams r) ≤ 4 :=
    (Nat.div_le_div_left hp (by omega)).trans (by omega)
  have hmul := Nat.mul_le_mul_right r.baudRate hdelays
  rw [sample_scaled h, cell_scaled h, Nat.add_mul, Nat.add_mul k 1, Nat.one_mul, Nat.one_mul]
  omega

/-- When every tick is delayed, the samples that are not late are those with a cycle to spare. -/
theorem not_late_delayed (h : Supported r) (hp : BaudGen.period (baudParams r) = 1)
    (hspare : (k + 2) * r.baudRate + r.sampleInterval / 2 * r.baudRate
      < r.sampleInterval * r.baudRate + (k + 1) * (r.clkRate % r.baudRate)) :
    sampleTime r k * r.baudRate < (k + 1) * r.clkRate := by
  rw [sample_scaled h, cell_scaled h, hp, Nat.div_one, show k + 1 + 1 = k + 2 from rfl,
    Nat.add_mul k 1 (_ * _), Nat.one_mul]
  omega

/-- The rest when every tick is delayed: between a tenth and a fifth of the baud rate. -/
theorem rest_bounds (h : Supported r) (hr : r.clkRate % r.baudRate * 10 / r.baudRate = 1) :
    r.baudRate ≤ 10 * (r.clkRate % r.baudRate) ∧ 10 * (r.clkRate % r.baudRate) < 2 * r.baudRate := by
  have hlo := (Nat.le_div_iff_mul_le h.baud_pos).mp hr.ge
  have hhi := (Nat.div_lt_iff_lt_mul h.baud_pos).mp (show _ < 2 by rw [hr]; omega)
  omega

/-- When every tick is delayed there is a cycle to spare up to bit 6, and beyond it unless the sample
    is late. -/
theorem spare_delayed (h : Supported r) (hk : k ≤ 8)
    (hr : r.clkRate % r.baudRate * 10 / r.baudRate = 1) (h7 : k = 7 → ¬ NextLate r)
    (h8 : k = 8 → ¬ LastLate r) :
    (k + 2) * r.baudRate + r.sampleInterval / 2 * r.baudRate
      < r.sampleInterval * r.baudRate + (k + 1) * (r.clkRate % r.baudRate) := by
  have hbaud := h.baud_pos
  obtain ⟨hlo, hhi⟩ := rest_bounds h hr
  have hS := h.sample_le
  have heq := h.sample_eq
  rcases (by omega : k ≤ 6 ∨ k = 7 ∨ k = 8) with hk6 | rfl | rfl
  · -- up to bit 6 half a bit time is enough
    have hbit := half_bit (r := r) 8 (by omega)
    have hmul := Nat.mul_le_mul_right r.baudRate (show k + 2 ≤ 8 by omega)
    have hpos : 0 < (k + 1) * (r.clkRate % r.baudRate) := Nat.mul_pos (by omega) (by omega)
    omega
  · -- bit 7: the sample is late with 16 samples a bit and a small rest
    have hlate := h7 rfl
    rcases Nat.eq_or_lt_of_le hS with h16 | h17
    · have hbit := half_bit (r := r) 8 (by omega)
      have hnot : ¬ 8 * (r.clkRate % r.baudRate) ≤ r.baudRate :=
        fun hle => hlate ⟨hr, by omega, hle⟩
      omega
    · have hbit := half_bit (r := r) 9 (by omega)
      omega
  · -- the stop bit: the same with one sample more
    have hlate := h8 rfl
    have h16 : r.clkRate / r.baudRate ≠ 16 := fun h16 => hlate ⟨hr, Or.inl h16⟩
    rcases Nat.lt_or_ge 18 r.sampleInterval with h18 | h18
    · have hbit := half_bit (r := r) 10 (by omega)
      omega
    · have hbit := half_bit (r := r) 9 (by omega)
      have hnot : ¬ 9 * (r.clkRate % r.baudRate) ≤ r.baudRate :=
        fun hle => hlate ⟨hr, Or.inr ⟨by omega, hle⟩⟩
      omega

/-- **A sample stays in its bit**, those of the last two data bits unless they are late.  The drift of
    the samples grows with the bits, so the earlier ones have room to spare. -/
theorem level_own (h : Supported r) (hk : k ≤ 9) (h7 : k = 7 → ¬ NextLate r)
    (h8 : k = 8 → ¬ LastLate r) : idealLevel r b (sampleTime r k) = (frameOf b).getLsbD k := by
  have hbaud := h.baud_pos
  have hratio := h.ratio
  have hearly := not_early h hk
  rcases Nat.lt_or_ge k 9 with hk9 | hk9
  · refine level_cell hk hearly ?_
    rcases period_cases h with ⟨hr, hp⟩ | ⟨-, hp⟩
    · exact not_late_delayed h hp (spare_delayed h (by omega) hr h7 h8)
    · exact not_late h (by omega) hp
  · have hk9 : k = 9 := by omega
    rw [hk9] at hearly ⊢
    rw [level_high (by omega) hearly, frameOf_stop]

/-- A late sample of the last data bit finds the stop bit, so bit 7 is received as a one whatever was
    sent. -/
theorem level_last (h : Supported r) (hlate : LastLate r) :
    idealLevel r b (sampleTime r 8) = true := by
  have hbaud := h.baud_pos
  have hratio := h.ratio
  obtain ⟨hr, hshort⟩ := hlate
  obtain ⟨hlo, hhi⟩ := rest_bounds h hr
  have heq := h.sample_eq
  have hp := period_one h hr
  refine level_high (by omega) ?_
  rw [sample_scaled h, cell_scaled h, hp]
  rcases hshort with h16 | ⟨h18, hrest⟩
  · rw [heq, h16]
    omega
  · have hbit : r.sampleInterval * r.baudRate
        ≤ 9 * r.baudRate + r.sampleInterval / 2 * r.baudRate := by
      rw [← Nat.add_mul]
      exact Nat.mul_le_mul_right _ (by omega)
    omega

/-- A late sample of the bit before it finds the last data bit, so bit 6 is received as bit 7 was
    sent. -/
theorem level_before (h : Supported r) (hlate : NextLate r) :
    idealLevel r b (sampleTime r 7) = (frameOf b).getLsbD 8 := by
  have hbaud := h.baud_pos
  obtain ⟨hr, h16, hrest⟩ := hlate
  obtain ⟨hlo, hhi⟩ := rest_bounds h hr
  have heq := h.sample_eq
  have hp := period_one h hr
  have hscaled := sample_scaled h 7
  have hcell := cell_scaled h
  rw [heq, h16, hp] at hscaled
  refine level_cell (by omega) ?_ ?_
  · rw [hcell, heq, h16]
    omega
  · rw [hcell, heq, h16]
    omega

/-! ## What is delivered -/

/-- The frame arrives at the core in cycle 4, and the sampling that it starts goes on to its stop
    bit. -/
theorem frame_delivered (h : Supported r) (hs : Resting s) :
    Delivered r s (idealLevel r b) 4 0 := by
  have hp := h.paced
  have hwait := hs.waiting
  have hrest : Resting (stateAt (next r) s (idealLevel r b) 0) := hs
  have hready : ∀ t ≤ 4, Ready (coreAt r s (idealLevel r b) t) := fun t ht =>
    ready_stays hrest.ready (Nat.zero_le t) fun u h0 hu => hrest.rx_high h0 (by omega)
  have hzero : idealLevel r b 0 = false := by
    rw [idealLevel, Nat.zero_mul, Nat.zero_div, Nat.min_zero, frameOf_start]
  -- four cycles from the line to the core
  have hlow : rxAt r s (idealLevel r b) 4 = false := (rxAt_add_four 0).trans hzero
  have hat := waiting_of_armed (hready 4 le_rfl).toArmed
  have hstart := (since_edge hp hat (hready 4 le_rfl).rxPrev hlow).1
  have hwindow : ∀ x, rxFrom r s (idealLevel r b) 4 x = idealLevel r b x := by
    intro x
    rw [rxFrom, Nat.add_comm 4, rxAt_add_four]
  have hpos := (sampleTime_zero hp).1
  refine ⟨?_, ?_, ?_⟩
  · -- the sampling goes on to its stop bit: no window of it is over before
    rcases since_or_delivered hp hwait hstart (show 5 ≤ 4 + sampleTime r (10 * 0 + 9) + 1 by omega)
      with hsince | ⟨q, -, -, hq⟩
    · exact hsince
    · have hmono := sampleTime_mono hp (show 10 * 0 + 9 ≤ 10 * q + 9 by omega)
      rw [doneTime] at hq
      omega
  · rw [hwindow]
    exact (level_own h (by omega) (by omega) (by omega)).trans (frameOf_start b)
  · rw [hwindow]
    exact (level_own h (by omega) (by omega) (by omega)).trans (frameOf_stop b)

/-- The frame is announced before the line has been watched for eleven bits: its last sample is that
    of the stop bit, and the announcement comes a few cycles behind it. -/
theorem done_lt (h : Supported r) (hn : 11 * r.clkRate ≤ n * r.baudRate) : doneTime r 4 0 < n := by
  have hbaud := h.baud_pos
  have hhalf := eight_le_half h
  have hbit := half_bit (r := r) (r.sampleInterval / 2) (by omega)
  have hdelays : (9 + 1) / BaudGen.period (baudParams r) ≤ 10 := Nat.div_le_self _ _
  have hmul := Nat.mul_le_mul_right r.baudRate hdelays
  have hscaled := sample_scaled h 9
  have hcell := cell_scaled h 11
  rw [Nat.add_mul, Nat.one_mul] at hscaled
  refine Nat.lt_of_mul_lt_mul_right (a := r.baudRate) ?_
  rw [doneTime, Nat.mul_zero, Nat.zero_add, Nat.add_mul, Nat.add_mul]
  omega

/-- No other byte is announced: before the frame the line was high, and after its stop bit it stays
    so. -/
theorem only_delivery (h : Supported r) (hs : Resting s) {e q : Nat}
    (hd : Delivered r s (idealLevel r b) e q) : e = 4 ∧ q = 0 := by
  have hp := h.paced
  have hwait := hs.waiting
  have hbaud := h.baud_pos
  have hratio := h.ratio
  have hlow := (hd.since.grid hp hwait).1
  rcases delivered_disjoint hp hwait (frame_delivered h hs) hd with ⟨rfl, rfl⟩ | hbefore | hafter
  · exact ⟨rfl, rfl⟩
  · have hrest : Resting (stateAt (next r) s (idealLevel r b) 0) := hs
    have hbounds := (doneTime_bounds hp e q).1
    rw [hrest.rx_high (Nat.zero_le e) (by omega)] at hlow
    cases hlow
  · rw [doneTime, Nat.mul_zero, Nat.zero_add] at hafter
    obtain ⟨x, rfl⟩ : ∃ x, e = x + 4 := ⟨e - 4, by omega⟩
    have hmul := Nat.mul_le_mul_right r.baudRate (show sampleTime r 9 ≤ x by omega)
    have hstop := not_early h (k := 9) le_rfl
    rw [rxAt_add_four, level_high (by omega) (hstop.trans hmul)] at hlow
    cases hlow

/-- One byte is announced, whose bits are the samples of the frame's data bits. -/
theorem frame_received (h : Supported r) (hs : Resting s) (hn : 11 * r.clkRate ≤ n * r.baudRate) :
    ∃ c : Byte, emitted (next r) (fun s _ => s.core.received) s
        ((List.range n).map (idealLevel r b)) = [c] ∧
      ∀ m < 8, c.getLsbD m = idealLevel r b (sampleTime r (m + 1)) := by
  have hp := h.paced
  have hdel := frame_delivered (b := b) h hs
  obtain ⟨-, hdone, hdata⟩ := hdel.done hp hs.waiting
  have hend := done_lt h hn
  have honly : ∀ t, 0 ≤ t → t < 0 + n → (coreAt r s (idealLevel r b) t).rxDoneO = true →
      t = doneTime r 4 0 := by
    intro t _ _ ht
    obtain ⟨e, q, rfl, hd⟩ := (done_iff hp hs.ready).mp ht
    obtain ⟨rfl, rfl⟩ := only_delivery h hs hd
    rfl
  refine ⟨(coreAt r s (idealLevel r b) (doneTime r 4 0)).dataO, ?_, fun m hm => ?_⟩
  · rw [emitted_range]
    exact eventsFrom_done (Nat.zero_le _) (by omega) hdone honly
  · rw [hdata m hm, rxFrom, Nat.add_comm 4, rxAt_add_four, Nat.mul_zero, Nat.zero_add]

/-- The bits as they are sampled are those of the byte exactly when the byte tolerates it: a late
    sample does no harm where the two bits it confuses are equal. -/
theorem tolerant_iff (h : Supported r) :
    (∀ m < 8, idealLevel r b (sampleTime r (m + 1)) = b.getLsbD m) ↔ Tolerant r b := by
  constructor
  · intro hbits
    refine ⟨fun hlast => ?_, fun hnext => ?_⟩
    · rw [← hbits 7 (by omega), level_last h hlast]
    · have hlast : LastLate r := ⟨hnext.1, Or.inl hnext.2.1⟩
      rw [← hbits 6 (by omega), level_before h hnext, frameOf_data b (by omega),
        ← hbits 7 (by omega), level_last h hlast]
  · rintro ⟨hlast, hnext⟩ m hm
    by_cases hlast' : m = 7 ∧ LastLate r
    · obtain ⟨rfl, hlate⟩ := hlast'
      rw [level_last h hlate, hlast hlate]
    · by_cases hnext' : m = 6 ∧ NextLate r
      · obtain ⟨rfl, hlate⟩ := hnext'
        have hlate' : LastLate r := ⟨hlate.1, Or.inl hlate.2.1⟩
        rw [level_before h hlate, frameOf_data b (by omega), hlast hlate', hnext hlate]
      · rw [level_own h (by omega) (fun h7 hl => hnext' ⟨by omega, hl⟩)
          fun h8 hl => hlast' ⟨by omega, hl⟩, frameOf_data b hm]

/-- **When the byte of an ideal frame is received**: `RX_DONE_O` announces it, once and with nothing
    else, exactly when it tolerates the late samples. -/
theorem delivers_iff (h : Supported r) (hs : Resting s) (b : Byte)
    (hn : 11 * r.clkRate ≤ n * r.baudRate) :
    emitted (next r) (fun s _ => s.core.received) s ((List.range n).map (idealLevel r b)) = [b]
      ↔ Tolerant r b := by
  obtain ⟨c, hc, hbits⟩ := frame_received (b := b) h hs hn
  rw [hc, ← tolerant_iff h]
  constructor
  · intro heq m hm
    rw [← hbits m hm, (List.cons.inj heq).1]
  · intro hsame
    have heq : c = b := by
      apply BitVec.eq_of_getLsbD_eq
      intro m hm
      rw [hbits m hm, hsame m hm]
    rw [heq]

/-- At 50 MHz and 3 Mbaud, as `UART_DTM_TOP` is shipped, a byte is received. -/
theorem delivers_shipped : emitted (next ⟨50000000, 3000000⟩) (fun s _ => s.core.received)
    (reset ⟨50000000, 3000000⟩) ((List.range 184).map (idealLevel ⟨50000000, 3000000⟩ 0x5a))
      = [0x5a] :=
  (delivers_iff ⟨by decide, by decide, by decide⟩ (resting_reset _) 0x5a (by decide)).mpr (by decide)

/-- At 3.1 Mbaud the stop bit is taken for the last data bit. -/
theorem not_delivers_zero : emitted (next ⟨50000000, 3100000⟩) (fun s _ => s.core.received)
    (reset ⟨50000000, 3100000⟩) ((List.range 178).map (idealLevel ⟨50000000, 3100000⟩ 0)) ≠ [0] := by
  decide +kernel

end RiscDbgUart.SampleCells
