/-
  `BAUD_GEN`, the fractional baud-rate generator that `uart_tx.sv` and `uart_rx.sv` each contain.

  The block is the same in both but for the condition that holds it in its initial state and for
  three numbers, which are the fields of `Params`: the interval between two ticks, the number of
  ticks after which one tick is delayed by a cycle, and the interval before the first tick.

  The two counters are declared `bit [$clog2(N)-1:0]`.  For `N ≤ 1` that range is `[-1:0]`, which is
  two bits; and the value loaded is `N - 1` in 32-bit unsigned arithmetic cut to the range, so a
  remainder interval of 0 loads 3 and delays every fourth tick.

  `At n j s` says that the generator has run for `n` cycles and ticked `j` times.  Tick `j`, counted
  from 0, is seen in cycle `first + j * sample + (j + 1) / period`, whatever the three numbers are
  (`at_next`).
-/
import RiscDbgUart.UartPkg

set_option linter.unusedVariables false

namespace RiscDbgUart.BaudGen

/-! ## The block -/

/-- The parameters `SAMPLE_INTERVAL` and `REMAINDER_INTERVAL` of the module, and the interval the
    block is held at, `SAMPLE_INTERVAL` or half of it. -/
structure Params where
  sampleInterval : Nat
  remainderInterval : Nat
  firstInterval : Nat
deriving DecidableEq, Repr

/-- The tick, the flag of the wait cycle, and the two counters: cycles to the next tick, and ticks to the
    next delay. -/
structure State where
  baudtick : Bool
  waitCycle : Bool
  baudCount : Nat
  sampleCount : Nat
deriving DecidableEq, Repr, Inhabited

/-- The number of bits of `bit [$clog2(n)-1:0]`. -/
def rangeBits (n : Nat) : Nat := if clog2 n = 0 then 2 else clog2 n

/-- `x - 1` as it arrives in a `bit [$clog2(n)-1:0]`. -/
def load (n x : Nat) : Nat := (x + (2 ^ 32 - 1)) % 2 ^ 32 % 2 ^ rangeBits n

variable (p : Params) (s : State)

def loadFirst : Nat := load p.sampleInterval p.firstInterval
def loadSample : Nat := load p.sampleInterval p.sampleInterval
def loadRemainder : Nat := load p.remainderInterval p.remainderInterval

/-- The state the block is held in. -/
def held : State :=
  { baudtick := false, waitCycle := false, baudCount := loadFirst p, sampleCount := loadRemainder p }

/-- `BAUD_GEN`; `hold` is the condition of its first branch.  When the cycles of an interval are over it
    ticks, or waits for one cycle first if the ticks of a period are over too. -/
def next (hold : Bool) : State :=
  if hold then held p
  else if !s.waitCycle then
    if s.baudCount > 0 then { s with baudtick := false, baudCount := s.baudCount - 1 }
    else if s.sampleCount > 0 then
      { s with baudtick := true, baudCount := loadSample p, sampleCount := s.sampleCount - 1 }
    else { s with baudtick := false, waitCycle := true }
  else
    { baudtick := true
      waitCycle := false
      sampleCount := loadRemainder p
      baudCount := loadSample p }

/-! ## The loaded values -/

theorem le_two_pow_rangeBits (n : Nat) : n ≤ 2 ^ rangeBits n := by
  unfold rangeBits clog2
  rcases Nat.lt_or_ge 1 n with h | h
  · have hlog := Nat.lt_log2_self (n := n - 1)
    rw [if_neg (Nat.not_le.mpr h), if_neg (Nat.succ_ne_zero _)]
    exact Nat.le_of_pred_lt hlog
  · rw [if_pos h, if_pos rfl]
    omega

/-- A value of the range is loaded as it is. -/
theorem load_eq {n x : Nat} (hx : 0 < x) (hn : x ≤ n) (h32 : x < 2 ^ 32) : load n x = x - 1 := by
  have hrange := le_two_pow_rangeBits n
  have h : (x + (2 ^ 32 - 1)) % 2 ^ 32 = x - 1 := by omega
  rw [load, h]
  exact Nat.mod_eq_of_lt (by omega)

/-! ## When it ticks -/

/-- A tick is delayed by a cycle once in so many ticks. -/
def period : Nat := loadRemainder p + 1

/-- The cycle in which tick `j` is seen, counted from the first cycle out of `held`. -/
def tickTime (j : Nat) : Nat := p.firstInterval + j * p.sampleInterval + (j + 1) / period p

/-- The cycles from here to the next tick. -/
def toTick : Nat :=
  if s.waitCycle then 1 else s.baudCount + 1 + (if s.sampleCount = 0 then 1 else 0)

/-- After `n` cycles the block has ticked `j` times, and it will tick in time.  This is the invariant of the
    generator, and the only thing that transmitter and receiver know of it. -/
structure At (n j : Nat) : Prop where
  waits : s.waitCycle = true → s.sampleCount = 0 ∧ s.baudtick = false
  count : s.sampleCount + j % period p + 1 = period p
  time : n + toTick s = tickTime p j

/-- The intervals are not empty and fit the counters. -/
structure Valid : Prop where
  first_pos : 0 < p.firstInterval
  first_le : p.firstInterval ≤ p.sampleInterval
  sample_lt : p.sampleInterval < 2 ^ 32

variable {p s} {n j : Nat}

theorem loadFirst_eq (h : Valid p) : loadFirst p + 1 = p.firstInterval := by
  have := h.first_pos
  rw [loadFirst, load_eq h.first_pos h.first_le (lt_of_le_of_lt h.first_le h.sample_lt)]
  omega

theorem loadSample_eq (h : Valid p) : loadSample p + 1 = p.sampleInterval := by
  have hpos := lt_of_lt_of_le h.first_pos h.first_le
  rw [loadSample, load_eq hpos le_rfl h.sample_lt]
  omega

theorem period_pos : 0 < period p := Nat.succ_pos _

theorem succ_mod_period (j : Nat) :
    (j + 1) % period p = if j % period p + 1 = period p then 0 else j % period p + 1 := by
  have hlt : j % period p < period p := Nat.mod_lt _ period_pos
  rw [← Nat.mod_add_mod]
  split_ifs with h
  · rw [h, Nat.mod_self]
  · exact Nat.mod_eq_of_lt (by omega)

theorem succ_div_period (j : Nat) :
    (j + 1) / period p = j / period p + (if j % period p + 1 = period p then 1 else 0) := by
  have hdiv : (j + 1) / period p = _ := Nat.succ_div
  have hiff : period p ∣ j + 1 ↔ j % period p + 1 = period p := by
    rw [Nat.dvd_iff_mod_eq_zero, succ_mod_period]
    split_ifs with h <;> simp [h]
  rw [hdiv]
  simp only [hiff]

/-- From one tick to the next it is a sample interval, and one cycle more at the end of a period. -/
theorem tickTime_succ (j : Nat) : tickTime p (j + 1)
    = tickTime p j + p.sampleInterval + (if (j + 1) % period p + 1 = period p then 1 else 0) := by
  rw [tickTime, tickTime, succ_div_period (j + 1), Nat.succ_mul]
  omega

theorem at_held (h : Valid p) : At p (held p) 0 0 where
  waits hw := nomatch hw
  count := by simp [held, period]
  time := by
    have hfirst := loadFirst_eq h
    have hdiv := succ_div_period (p := p) 0
    rw [Nat.zero_div, Nat.zero_mod, Nat.zero_add, Nat.zero_add] at hdiv
    rw [tickTime, Nat.zero_mul, Nat.zero_add, hdiv, ← hfirst]
    simp [toTick, held, period, eq_comm]

/-- It counts down to the next tick. -/
theorem next_counting (hw : s.waitCycle = false) (hb : 0 < s.baudCount) :
    next p s false = { s with baudtick := false, baudCount := s.baudCount - 1 } := by
  simp [next, hw, hb]

/-- The tick is due. -/
theorem next_due (hw : s.waitCycle = false) (hb : s.baudCount = 0) (hc : 0 < s.sampleCount) :
    next p s false = { s with
      baudtick := true, baudCount := loadSample p, sampleCount := s.sampleCount - 1 } := by
  simp [next, hw, hb, hc]

/-- The tick is due, but it is the last of a period. -/
theorem next_delays (hw : s.waitCycle = false) (hb : s.baudCount = 0) (hc : s.sampleCount = 0) :
    next p s false = { s with baudtick := false, waitCycle := true } := by
  simp [next, hw, hb, hc]

/-- The delayed tick. -/
theorem next_delayed (hw : s.waitCycle = true) :
    next p s false = { baudtick := true, waitCycle := false
                       sampleCount := loadRemainder p, baudCount := loadSample p } := by
  simp [next, hw]

theorem At.wait (hs : At p s n j) (hw : s.waitCycle = true) : n + 1 = tickTime p j := by
  have htime := hs.time
  rwa [toTick, hw, if_pos rfl] at htime

theorem At.running (hs : At p s n j) (hw : s.waitCycle = false) :
    n + (s.baudCount + 1 + (if s.sampleCount = 0 then 1 else 0)) = tickTime p j := by
  have htime := hs.time
  rwa [toTick, hw, if_neg Bool.false_ne_true] at htime

/-- A tick begins the interval to the next one. -/
theorem at_ticked (h : Valid p) {b : Bool} {c : Nat} (hn : n + 1 = tickTime p j)
    (hc : c + (j + 1) % period p + 1 = period p) :
    At p { baudtick := b, waitCycle := false, baudCount := loadSample p, sampleCount := c }
      (n + 1) (j + 1) where
  waits hw := nomatch hw
  count := hc
  time := by
    have hsample := loadSample_eq h
    have hlast : c = 0 ↔ (j + 1) % period p + 1 = period p := by omega
    rw [toTick, tickTime_succ, if_neg Bool.false_ne_true, if_congr hlast rfl rfl]
    simp only
    omega

/-- **One cycle of the generator**: the next tick comes exactly when it is due. -/
theorem at_next (h : Valid p) (hs : At p s n j) :
    (n + 1 < tickTime p j ∧ (next p s false).baudtick = false ∧ At p (next p s false) (n + 1) j) ∨
    (n + 1 = tickTime p j ∧ (next p s false).baudtick = true ∧
      At p (next p s false) (n + 1) (j + 1)) := by
  have hcount := hs.count
  have hmod := succ_mod_period (p := p) j
  cases hw : s.waitCycle
  · have htime := hs.running hw
    rcases Nat.eq_zero_or_pos s.baudCount with hb | hb
    · rcases Nat.eq_zero_or_pos s.sampleCount with hc | hc
      · -- the counters are at zero, and a wait cycle delays the tick
        left
        rw [if_pos hc] at htime
        rw [next_delays hw hb hc]
        exact ⟨by omega, rfl, fun _ => ⟨hc, rfl⟩, hcount, by rw [toTick, if_pos rfl]; omega⟩
      · -- the tick is due
        right
        rw [if_neg (by omega)] at htime hmod
        have hn : n + 1 = tickTime p j := by omega
        rw [next_due hw hb hc, hw]
        exact ⟨hn, rfl, at_ticked h hn (by omega)⟩
    · -- the counter goes down
      left
      rw [next_counting hw hb]
      refine ⟨by omega, rfl, fun hw' => ?_, hcount, ?_⟩
      · rw [show s.waitCycle = true from hw'] at hw
        cases hw
      · rw [toTick, if_neg (by simp [hw])]
        simp only
        omega
  · -- the wait cycle is over, and the delayed tick comes
    right
    obtain ⟨hc, -⟩ := hs.waits hw
    rw [if_pos (by omega)] at hmod
    have hperiod : loadRemainder p + 1 = period p := rfl
    rw [next_delayed hw]
    exact ⟨hs.wait hw, rfl, at_ticked h (hs.wait hw) (by omega)⟩

end RiscDbgUart.BaudGen
