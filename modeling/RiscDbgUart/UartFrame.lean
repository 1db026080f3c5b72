/-
  The clock and baud rates of `uart_tx.sv` and `uart_rx.sv`, and the frame between them: a start bit,
  the eight data bits from the least significant on, and a stop bit.

  `level S b x` is the line `x` cycles after the falling edge of a frame that a transmitter with `S`
  cycles per bit sends.  Its start bit is one cycle longer than the others, because the transmitter
  has the bit on the line one cycle before its baud generator starts to count.

  `Framed` is the line of a run as a whole: frames of the bytes in order, each right behind the one before
  or after any idle time.  The transmitter is proved to produce such lines and the receiver to
  understand them, so this is all the two have to agree on.
-/
import RiscDbgUart.UartPkg

set_option linter.unusedVariables false

namespace RiscDbgUart

/-- The parameters `CLK_RATE` and `BAUD_RATE`, both positive. -/
structure Rates where
  clkRate : Nat
  baudRate : Nat
deriving DecidableEq, Repr

/-- The value of an expression of type `integer`, which is 32 bits wide and signed. -/
def integer (x : Int) : Int := Int.bmod x (2 ^ 32)

/-- `integer unsigned` -/
def integerUnsigned (x : Int) : Nat := (x % 2 ^ 32).toNat

theorem integer_eq {n : Nat} (h : n < 2 ^ 31) : integer n = n := by
  rw [integer, Int.bmod_eq_of_le] <;> omega

theorem integerUnsigned_eq {n : Nat} (h : n < 2 ^ 32) : integerUnsigned n = n := by
  rw [integerUnsigned]
  omega

/-- `SAMPLE_INTERVAL`, the same in both modules. -/
def Rates.sampleInterval (r : Rates) : Nat :=
  integerUnsigned (Int.tdiv (integer r.clkRate) (integer r.baudRate))

/-- `{1'b1, b, 1'b0}` -/
def frameOf (b : Byte) : BitVec 10 := 1#1 ++ b ++ 0#1

theorem frameOf_start (b : Byte) : (frameOf b).getLsbD 0 = false := by
  simp only [frameOf, BitVec.getLsbD_append]
  rfl

theorem frameOf_stop (b : Byte) : (frameOf b).getLsbD 9 = true := by
  simp only [frameOf, BitVec.getLsbD_append]
  rfl

theorem frameOf_data (b : Byte) {k : Nat} (hk : k < 8) :
    (frameOf b).getLsbD (k + 1) = b.getLsbD k := by
  simp only [frameOf, BitVec.getLsbD_append]
  rw [if_neg (by omega), if_pos (by omega), Nat.add_sub_cancel]

/-- The line `x` cycles after the falling edge of the frame. -/
def level (S : Nat) (b : Byte) (x : Nat) : Bool := (frameOf b).getLsbD (min 9 ((x - 1) / S))

theorem level_zero (S : Nat) (b : Byte) : level S b 0 = false := by
  rw [level, Nat.zero_sub, Nat.zero_div, Nat.min_zero, frameOf_start]

/-- Bit `k` of the frame occupies the cycles `k * S + 1` to `(k + 1) * S`. -/
theorem level_bit {S k x : Nat} (b : Byte) (hk : k ≤ 9) (hlo : k * S < x)
    (hhi : x ≤ (k + 1) * S) : level S b x = (frameOf b).getLsbD k := by
  have hdiv : (x - 1) / S = k := Nat.div_eq_of_lt_le (by omega) (by omega)
  rw [level, hdiv, Nat.min_eq_right hk]

/-- From the stop bit on the line is high. -/
theorem level_stop {S x : Nat} (b : Byte) (hS : 0 < S) (hx : 9 * S < x) : level S b x = true := by
  have hdiv : 9 ≤ (x - 1) / S := (Nat.le_div_iff_mul_le hS).mpr (by omega)
  rw [level, Nat.min_eq_left hdiv, frameOf_stop]

/-- A frame from its falling edge to the first cycle in which the next one can fall. -/
def frameLine (S : Nat) (b : Byte) : List Bool := (List.range (10 * S + 2)).map (level S b)

/-- The line of a transmitter that sends the bytes, with any pauses between their frames. -/
inductive Framed (S : Nat) : List Byte → List Bool → Prop
  | nil : Framed S [] []
  | idle {bs l} : Framed S bs l → Framed S bs (true :: l)
  | frame {b bs l} : Framed S bs l → Framed S (b :: bs) (frameLine S b ++ l)

theorem framed_idle (S n : Nat) : Framed S [] (List.replicate n true) := by
  induction n with
  | zero => exact .nil
  | succ n ih => exact .idle ih

/-- The last two cycles of a frame belong to its stop bit. -/
theorem frameLine_eq {S : Nat} (hS : 2 ≤ S) (b : Byte) :
    frameLine S b = (List.range (10 * S)).map (level S b) ++ [true, true] := by
  rw [frameLine, List.range_succ, List.range_succ, List.map_append, List.map_append, List.append_assoc]
  simp [level_stop b (show 0 < S by omega) (show 9 * S < 10 * S by omega),
    level_stop b (show 0 < S by omega) (show 9 * S < 10 * S + 1 by omega)]

end RiscDbgUart
