/-
  `RX_DESERIALIZER.sv`: collects the bytes presented with `RUN_I` into a word, least significant byte
  first, and raises `DONE_O` one cycle after the last byte has been stored.

  `byte_count` and `LENGTH_I` are `$clog2(MAX_BITS)` bits wide; the counter is a natural number here
  and wraps explicitly where the source's would.

  `stores` is the condition under which a byte is stored: it is presented and the word has room.  The
  lemmas give each register after an edge, with the reset as the first case.
-/
import RiscDbgUart.UartPkg

set_option linter.unusedVariables false

namespace RiscDbgUart.RxDeserializer

/-- The counter, in bits although it is called `byte_count`, the two flags and the word so far. -/
structure State (maxBits : Nat) where
  byteCount : Nat
  doneO : Bool
  busyO : Bool
  dataO : BitVec maxBits
deriving DecidableEq, Repr, Inhabited

structure Input where
  rstI : Bool
  lengthI : Nat
  dataByteI : Byte
  runI : Bool

def reset {maxBits : Nat} : State maxBits :=
  { byteCount := 0, doneO := false, busyO := false, dataO := 0 }

/-- `DE_SERIALIZE`.  While bytes are missing, every cycle with `RUN_I` stores one; after the last one DONE
    stays up until the reset. -/
def next {maxBits : Nat} (s : State maxBits) (i : Input) : State maxBits :=
  if i.rstI then reset
  else if s.byteCount < i.lengthI then
    -- a byte is stored whole, also the last one of a length that is no multiple of 8
    if i.runI then
      { byteCount := (s.byteCount + 8) % 2 ^ clog2 maxBits
        doneO := false
        busyO := true
        dataO := setByte s.dataO s.byteCount i.dataByteI }
    else { s with doneO := false }
  else if s.busyO then { s with doneO := true }
  else s

/-- The bytes it stores: out of reset, running, and with room left. -/
def stores {maxBits : Nat} (s : State maxBits) (i : Input) : List Byte :=
  if !i.rstI && i.runI && s.byteCount < i.lengthI then [i.dataByteI] else []

/-! ## The edge, register by register -/

variable {maxBits : Nat} (s : State maxBits) (i : Input)

theorem next_doneO : (next s i).doneO
    = (!i.rstI && decide (i.lengthI ≤ s.byteCount) && (s.busyO || s.doneO)) := by
  simp only [next, reset, apply_ite State.doneO]
  grind

theorem next_busyO : (next s i).busyO
    = (!i.rstI && (s.busyO || (i.runI && decide (s.byteCount < i.lengthI)))) := by
  simp only [next, reset, apply_ite State.busyO, ite_self]
  grind

theorem next_byteCount : (next s i).byteCount
    = if i.rstI then 0
      else if i.runI && decide (s.byteCount < i.lengthI) then (s.byteCount + 8) % 2 ^ clog2 maxBits
      else s.byteCount := by
  simp only [next, reset, apply_ite State.byteCount, ite_self]
  grind

theorem next_dataO : (next s i).dataO
    = if i.rstI then 0
      else if i.runI && decide (s.byteCount < i.lengthI) then setByte s.dataO s.byteCount i.dataByteI
      else s.dataO := by
  simp only [next, reset, apply_ite State.dataO, ite_self]
  grind

end RiscDbgUart.RxDeserializer
