/-
  `TX_SERIALIZER.sv`: once started, offers the bytes of a word to the transmit side, least
  significant byte first.  `WRITE_O` goes up when the transmit side is ready and a byte counts as
  handed over in the cycle in which the transmit side has become busy under `WRITE_O`.

  The word and the length are sampled live: `DATA_BYTE_O` is reloaded from `DATA_I` in every cycle.
  Nonblocking assignments later in the block override earlier ones; the updates below are applied in
  the order of the source.

  `handsOver` lists the byte that is handed over in a cycle.  The lemmas give each register after an edge,
  with the reset as the first case.
-/
import RiscDbgUart.UartPkg

set_option linter.unusedVariables false

namespace RiscDbgUart.TxSerializer

/-- The bit counter, the two flags, and the byte on offer with its `WRITE_O`. -/
structure State where
  count : Nat
  busyO : Bool
  doneO : Bool
  dataByteO : Byte
  writeO : Bool
deriving DecidableEq, Repr, Inhabited

/-- Reset and start come from the read arbiter, the word and its length from the interconnect and the
    arbiter, and the ready from `TX_Escape`. -/
structure Input (maxBits : Nat) where
  rstI : Bool
  runI : Bool
  readyI : Bool
  dataI : BitVec maxBits
  lengthI : Nat

def reset : State := { count := 0, busyO := false, doneO := false, dataByteO := 0, writeO := false }

/-- The part of `SERIALIZE` under `if (BUSY_O)`; `s` is the state before the edge, `r` what the
    earlier assignments of the block have scheduled. -/
def serving {maxBits : Nat} (s : State) (i : Input maxBits) (r : State) : State :=
  if s.count < i.lengthI then
    let r := if i.readyI then { r with writeO := true } else r
    -- the transmit side has become busy under `WRITE_O`: the byte is its own now
    if s.writeO && !i.readyI then
      { r with writeO := false, count := (s.count + 8) % 2 ^ clog2 maxBits }
    else r
  else { r with doneO := true, busyO := false }

/-- `SERIALIZE`.  The byte on offer is loaded in every cycle, from the word as it is then and the counter as
    it was before the edge. -/
def next {maxBits : Nat} (s : State) (i : Input maxBits) : State :=
  if i.rstI then reset
  else
    let r := { s with writeO := false, dataByteO := serialByte i.dataI i.lengthI s.count }
    -- a start is possible once after each reset
    let r := if i.runI && !s.doneO then { r with busyO := true } else r
    if s.busyO then serving s i r else r

/-- The byte handed over in a cycle, if any. -/
def handsOver {maxBits : Nat} (s : State) (i : Input maxBits) : List Byte :=
  if s.writeO && !i.readyI then [s.dataByteO] else []

/-! ## The edge, register by register -/

variable {maxBits : Nat} (s : State) (i : Input maxBits)

/-- There are bytes left and the serializer is working on them. -/
def serves : Bool := s.busyO && decide (s.count < i.lengthI)

theorem next_busyO : (next s i).busyO
    = (!i.rstI && (serves s i || (!s.busyO && i.runI && !s.doneO))) := by
  simp only [next, serving, reset, apply_ite State.busyO, ite_self]
  grind [serves]

theorem next_doneO : (next s i).doneO
    = (!i.rstI && (s.doneO || (s.busyO && !serves s i))) := by
  simp only [next, serving, reset, apply_ite State.doneO, ite_self]
  grind [serves]

theorem next_writeO : (next s i).writeO = (!i.rstI && serves s i && i.readyI) := by
  simp only [next, serving, reset, apply_ite State.writeO, ite_self]
  grind [serves]

theorem next_count : (next s i).count
    = if i.rstI then 0
      else if serves s i && s.writeO && !i.readyI then (s.count + 8) % 2 ^ clog2 maxBits
      else s.count := by
  simp only [next, serving, reset, apply_ite State.count, ite_self]
  grind [serves]

theorem next_dataByteO : (next s i).dataByteO
    = if i.rstI then 0 else serialByte i.dataI i.lengthI s.count := by
  simp only [next, serving, reset, apply_ite State.dataByteO, ite_self]

end RiscDbgUart.TxSerializer
