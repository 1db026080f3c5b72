/-
  Scans over JTAG.

  A scan goes from the capture state of a path to its update state.  On the way the controller may
  shift, and leave the shift state for a pause and come back, any number of times.  What a register does
  on the way is one thing in all these states: it takes its captured value, it moves on by one bit, or it
  keeps what it holds (`value_next`).  So a cycle never loses a bit: what the register holds and the bit
  that comes in are the bit that goes out and what the register holds afterwards (`scan_law`), and the
  scan as a whole is the sum of its cycles.

  The five registers are `BYPASS`, `IDCODE` and `DTMCS` of the TAP, the DMI register behind it, and the
  shift register of the instruction register on the other path.

  `value_next` has one case for each register and each kind of state of the controller.  On it rest
  `scan_law`, the conservation of the bits in a cycle; `scan_conserved`, the same for a whole scan; and
  `scan_transparent`, which cuts the two streams at the width of the register: the bits that come out are
  the value captured, and the last bits that went in are the value left.
-/
import RiscDbgUart.DmiJtag

set_option linter.unusedVariables false

namespace RiscDbgUart.DmiJtag

open Clocked

/-! ## Bits of a shift register -/

/-- The bits of a register, the lowest first. -/
def bits {k : Nat} (q : BitVec k) : List Bool := (List.range k).map q.getLsbD

theorem shiftIn_bit {k : Nat} (td : Bool) (q : BitVec k) {j : Nat} (hj : j < k) :
    (JtagTap.shiftIn td q).getLsbD j = if j + 1 = k then td else q.getLsbD (j + 1) := by
  rw [JtagTap.shiftIn, BitVec.getLsbD_or, BitVec.getLsbD_ushiftRight, BitVec.getLsbD_shiftLeft,
    BitVec.getLsbD_setWidth, BitVec.getLsbD_ofBool, Nat.add_comm 1 j]
  by_cases hlast : j + 1 = k
  · -- the top bit: nothing comes down from above it
    have hj' : j - (k - 1) = 0 := by omega
    have hnot : ¬ j < k - 1 := by omega
    rw [if_pos hlast, BitVec.getLsbD_of_ge _ _ (by omega), hj']
    simp [hj, hnot]
    omega
  · have hlow : j < k - 1 := by omega
    rw [if_neg hlast]
    simp [hlow]

/-- A register of one bit takes over what comes in. -/
theorem shiftIn_one (td b : Bool) : JtagTap.shiftIn td (BitVec.ofBool b) = BitVec.ofBool td := by
  cases td <;> cases b <;> rfl

/-- **A shift loses no bit**: the old bits and the new one are the bit that leaves and the bits that are
    left. -/
theorem bits_shiftIn {k : Nat} (hk : 0 < k) (td : Bool) (q : BitVec k) :
    bits q ++ [td] = q.getLsbD 0 :: bits (JtagTap.shiftIn td q) := by
  apply List.ext_getElem
  · simp [bits]
  · intro j hleft hright
    have hj : j < k + 1 := by simpa [bits] using hleft
    cases j with
    | zero => simp [bits, hk]
    | succ j =>
      have hbit := shiftIn_bit td q (show j < k by omega)
      simp only [bits, List.getElem_append, List.length_map, List.length_range, List.getElem_map,
        List.getElem_range, List.getElem_cons_succ, hbit]
      by_cases hlast : j + 1 = k
      · simp [hlast]
      · have hin : j + 1 < k := by omega
        simp [hlast, hin]

/-! ## Paths and registers -/

/-- The two columns of the TAP controller. -/
inductive Path where
  | dr | ir
deriving DecidableEq, Repr

def Path.captures (p : Path) (t : JtagTap.TapState) : Bool :=
  match p with
  | .dr => t == .CaptureDr
  | .ir => t == .CaptureIr

def Path.shifts (p : Path) (t : JtagTap.TapState) : Bool :=
  match p with
  | .dr => t == .ShiftDr
  | .ir => t == .ShiftIr

def Path.updates (p : Path) (t : JtagTap.TapState) : Bool :=
  match p with
  | .dr => t == .UpdateDr
  | .ir => t == .UpdateIr

/-- The states of a scan before its update: capture, shift, and the detours.  A pause and a return to the
    shift state do not leave them. -/
def Path.scanning (p : Path) (t : JtagTap.TapState) : Bool :=
  match p, t with
  | .dr, .CaptureDr | .dr, .ShiftDr | .dr, .Exit1Dr | .dr, .PauseDr | .dr, .Exit2Dr => true
  | .ir, .CaptureIr | .ir, .ShiftIr | .ir, .Exit1Ir | .ir, .PauseIr | .ir, .Exit2Ir => true
  | _, _ => false

/-- The registers that a scan can go through. -/
inductive Reg where
  | bypass | idcode | dtmcs | dmi | ir
deriving DecidableEq, Repr

namespace Reg

def width : Reg → Nat
  | .bypass => 1
  | .idcode => 32
  | .dtmcs => 32
  | .dmi => WIDTH
  | .ir => 5

def path : Reg → Path
  | .bypass | .idcode | .dtmcs | .dmi => .dr
  | .ir => .ir

/-- The scan goes through the register.  A scan on the other path goes through the shift register of
    the instructions, whatever the instruction. -/
def selected (r : Reg) (t : JtagTap.State) : Bool :=
  match r with
  | .bypass => JtagTap.bypassSelect t
  | .idcode => JtagTap.idcodeSelect t
  | .dtmcs => JtagTap.dtmcsSelectO t
  | .dmi => JtagTap.dmiAccessO t
  | .ir => true

def value (r : Reg) (s : State) : BitVec r.width :=
  match r with
  | .bypass => BitVec.ofBool s.tap.bypass
  | .idcode => s.tap.idcode
  | .dtmcs => s.tap.dtmcs
  | .dmi => s.dr
  | .ir => s.tap.jtagIrShift

/-- What the register captures, as the source has it for each of the five. -/
def loads (r : Reg) (idcodeValue : BitVec 32) (s : State) : BitVec r.width :=
  match r with
  | .bypass => (0 : BitVec 1)
  | .idcode => idcodeValue
  | .dtmcs => JtagTap.capturedDtmcs s.error
  | .dmi => captured s
  | .ir => (0b00101 : BitVec 5)

end Reg

/-- What is on the `TDO` multiplexer; `dmi_tdo` is the lowest bit of the DMI register. -/
def tdo (s : State) : Bool := JtagTap.tdoMux s.tap (s.dr.getLsbD 0)

/-- `TDI` and the `TDO` multiplexer in a shift cycle. -/
def shifted (p : Path) (s : State) (i : Input) : List (Bool × Bool) :=
  if p.shifts s.tap.tapState then [(i.tdI, tdo s)] else []

/-! ## Where the controller is -/

section Controller

variable {p p' : Path} {t : JtagTap.TapState}

/-- The two phases of a scan exclude each other. -/
theorem shifts_of_captures (h : p.captures t = true) : p.shifts t = false := by
  cases p <;> cases t <;> first | rfl | cases h

/-- A scan that captures is not at its update. -/
theorem updates_of_captures (h : p.captures t = true) : p.updates t = false := by
  cases p <;> cases t <;> first | rfl | cases h

/-- On a scan the instruction stays. -/
theorem scanning_quiet (h : p.scanning t = true) :
    (t == .TestLogicReset) = false ∧ (t == .UpdateIr) = false := by
  cases p <;> cases t <;> first | exact ⟨rfl, rfl⟩ | cases h

/-- On a scan the other path is out of reach, so nothing of it is captured or shifted. -/
theorem scanning_other (h : p.scanning t = true) (hp : p' ≠ p) :
    p'.captures t = false ∧ p'.shifts t = false := by
  cases p <;> cases p' <;> cases t <;>
    first | exact absurd rfl hp | exact ⟨rfl, rfl⟩ | cases h

/-- Behind a capture comes a shift or the way out, never another capture. -/
theorem scanning_next (tms : Bool) (h : p.scanning t = true) :
    p.captures (JtagTap.tapStateD t tms) = false := by
  cases p <;> cases t <;> cases tms <;> first | rfl | cases h

end Controller

section Edge

variable {idcodeValue : BitVec 32} {s : State} {i : Input} {r q : Reg}

/-- The instruction stays during a scan, also one of the instruction register: it changes with the update. -/
theorem instruction_kept {p : Path} (h : p.scanning s.tap.tapState = true) :
    (next idcodeValue s i).tap.jtagIr = s.tap.jtagIr := by
  have hreset : JtagTap.testLogicResetO s.tap = false := (scanning_quiet h).1
  have hir : JtagTap.updateIr s.tap = false := (scanning_quiet h).2
  show JtagTap.jtagIrD s.tap = s.tap.jtagIr
  rw [JtagTap.jtagIrD, hreset, hir]
  rfl

/-- What is selected depends on the instruction only. -/
theorem selected_congr {t t' : JtagTap.State} (h : t'.jtagIr = t.jtagIr) :
    r.selected t' = r.selected t := by
  cases r <;>
    simp only [Reg.selected, JtagTap.bypassSelect, JtagTap.idcodeSelect, JtagTap.dtmcsSelectO,
      JtagTap.dmiAccessO, h]

/-- One instruction selects one data register, the others keep their values. -/
theorem unselected (hpath : q.path = r.path) (hr : r.selected s.tap = true) (hq : q ≠ r) :
    q.selected s.tap = false := by
  cases r <;> cases q <;>
    simp_all [Reg.path, Reg.selected, JtagTap.bypassSelect, JtagTap.idcodeSelect,
      JtagTap.dtmcsSelectO, JtagTap.dmiAccessO]

/-! ## One cycle of a register -/

/-- The order in which the source looks at the two phases does not matter. -/
theorem phase_order {α : Type} {capture shift : Bool} (h : capture = true → shift = false)
    (sel : Bool) (a b c : α) :
    (if shift && sel then b else if capture && sel then a else c)
      = if capture && sel then a else if shift && sel then b else c := by
  cases capture
  · rfl
  · rw [h rfl]
    rfl

/-- **What a register does in a cycle**: it captures, it moves on by one bit, or it keeps its value. -/
theorem value_next (r : Reg) (hlive : JtagTap.testLogicResetO s.tap = false) :
    r.value (next idcodeValue s i)
      = if r.path.captures s.tap.tapState && r.selected s.tap then r.loads idcodeValue s
        else if r.path.shifts s.tap.tapState && r.selected s.tap then
          JtagTap.shiftIn i.tdI (r.value s)
        else r.value s := by
  cases r
  · show BitVec.ofBool (JtagTap.bypassD s.tap (tapIn s i)) = _
    rw [← phase_order shifts_of_captures, JtagTap.bypassD, hlive, if_neg Bool.false_ne_true,
      apply_ite BitVec.ofBool, apply_ite BitVec.ofBool]
    congr 1
    exact (shiftIn_one _ _).symm
  · show JtagTap.idcodeD s.tap (tapIn s i) idcodeValue = _
    rw [← phase_order shifts_of_captures, JtagTap.idcodeD, hlive, if_neg Bool.false_ne_true]
    rfl
  · rw [← phase_order shifts_of_captures]
    rfl
  · show drD s i = _
    rw [← phase_order shifts_of_captures, drD, hlive, if_neg Bool.false_ne_true]
    rfl
  · -- the instruction register looks at the phases in the other order
    show JtagTap.jtagIrShiftD s.tap (tapIn s i) = _
    rw [JtagTap.jtagIrShiftD, hlive, if_neg Bool.false_ne_true]
    simp only [Reg.selected, Bool.and_true]
    rfl

/-- **A scan leaves the other registers alone**, in every cycle of it. -/
theorem value_kept (hscan : r.path.scanning s.tap.tapState = true) (hsel : r.selected s.tap = true)
    (hq : q ≠ r) : q.value (next idcodeValue s i) = q.value s := by
  rw [value_next q (scanning_quiet hscan).1]
  by_cases hpath : q.path = r.path
  · rw [unselected hpath hsel hq, Bool.and_false, Bool.and_false]
    rfl
  · obtain ⟨hcap, hshift⟩ := scanning_other hscan hpath
    rw [hcap, hshift]
    rfl

/-- In a shift cycle the multiplexer shows the lowest bit of the selected register. -/
theorem tdo_shift (hsel : r.selected s.tap = true) (hshift : r.path.shifts s.tap.tapState = true) :
    tdo s = (r.value s).getLsbD 0 := by
  -- only the instruction register shifts in the other path
  have hir : JtagTap.shiftIr s.tap = (r.path == .ir) := by
    cases r <;> rw [JtagTap.shiftIr, beq_iff_eq.mp hshift] <;> rfl
  -- one register of a path is selected, and the multiplexer asks for them in turn
  have hno : ∀ q : Reg, q.path = r.path → q ≠ r → q.selected s.tap = false :=
    fun q hpath => unselected hpath hsel
  rw [tdo, JtagTap.tdoMux, hir]
  cases r
  · have hidcode : JtagTap.idcodeSelect s.tap = false := hno .idcode rfl (by decide)
    have hdtmcs : JtagTap.dtmcsSelectO s.tap = false := hno .dtmcs rfl (by decide)
    have hdmi : JtagTap.dmiAccessO s.tap = false := hno .dmi rfl (by decide)
    rw [hidcode, hdtmcs, hdmi]
    show s.tap.bypass = (BitVec.ofBool s.tap.bypass).getLsbD 0
    cases s.tap.bypass <;> rfl
  · rw [show JtagTap.idcodeSelect s.tap = true from hsel]
    rfl
  · have hidcode : JtagTap.idcodeSelect s.tap = false := hno .idcode rfl (by decide)
    rw [hidcode, show JtagTap.dtmcsSelectO s.tap = true from hsel]
    rfl
  · have hidcode : JtagTap.idcodeSelect s.tap = false := hno .idcode rfl (by decide)
    have hdtmcs : JtagTap.dtmcsSelectO s.tap = false := hno .dtmcs rfl (by decide)
    rw [hidcode, hdtmcs, show JtagTap.dmiAccessO s.tap = true from hsel]
    rfl
  · rfl

/-- **A cycle of a scan loses no bit.**  In a shift state one bit comes in at the top and one goes out at the
    bottom; in the other states of the scan neither happens and the register keeps its value. -/
theorem scan_law (hscan : r.path.scanning s.tap.tapState = true) (hsel : r.selected s.tap = true)
    (hcap : r.path.captures s.tap.tapState = false) :
    bits (r.value s) ++ (shifted r.path s i).map Prod.fst
      = (shifted r.path s i).map Prod.snd ++ bits (r.value (next idcodeValue s i)) := by
  have hwidth : 0 < r.width := by cases r <;> decide
  rw [value_next r (scanning_quiet hscan).1, hcap, hsel, Bool.and_true, Bool.and_true,
    if_neg Bool.false_ne_true, shifted]
  cases hshift : r.path.shifts s.tap.tapState
  · exact List.append_nil _
  · show _ ++ [i.tdI] = tdo s :: _
    rw [tdo_shift hsel hshift]
    exact bits_shiftIn hwidth i.tdI (r.value s)

/-- The capture cycle: the register is loaded, whatever it held. -/
theorem captured_value (hscan : r.path.scanning s.tap.tapState = true)
    (hsel : r.selected s.tap = true) (hcap : r.path.captures s.tap.tapState = true) :
    r.value (next idcodeValue s i) = r.loads idcodeValue s := by
  rw [value_next r (scanning_quiet hscan).1, hcap, hsel]
  rfl

end Edge

/-! ## Whole scans -/

section Scan

variable {idcodeValue : BitVec 32} {r : Reg} {s : State} {is : List Input}

/-- A scan leaves the other registers and the instruction alone, however many cycles and detours it has. -/
theorem scan_kept (hsel : r.selected s.tap = true)
    (hscan : Always (next idcodeValue) (fun s _ => r.path.scanning s.tap.tapState = true) s is) :
    (∀ q, q ≠ r → q.value (run (next idcodeValue) s is) = q.value s) ∧
      (run (next idcodeValue) s is).tap.jtagIr = s.tap.jtagIr := by
  have hstep : ∀ x i, ((∀ q, q ≠ r → q.value x = q.value s) ∧ x.tap.jtagIr = s.tap.jtagIr) →
      r.path.scanning x.tap.tapState = true →
      (∀ q, q ≠ r → q.value (next idcodeValue x i) = q.value s) ∧
        (next idcodeValue x i).tap.jtagIr = s.tap.jtagIr := by
    rintro x i ⟨hothers, hir⟩ hx
    have hsel' : r.selected x.tap = true := (selected_congr hir).trans hsel
    constructor
    · intro q hq
      rw [value_kept hx hsel' hq, hothers q hq]
    · rw [instruction_kept hx, hir]
  exact run_of_step (C := fun x _ => r.path.scanning x.tap.tapState = true) hstep is s
    ⟨fun q _ => rfl, rfl⟩ hscan

/-- Behind the capture, what the register holds and what comes in is what goes out and what it holds
    in the end, by summing the law of a cycle over the scan. -/
theorem scan_conserved (hsel : r.selected s.tap = true)
    (hcap : r.path.captures s.tap.tapState = false)
    (hscan : Always (next idcodeValue) (fun s _ => r.path.scanning s.tap.tapState = true) s is) :
    bits (r.value s) ++ (emitted (next idcodeValue) (shifted r.path) s is).map Prod.fst
      = (emitted (next idcodeValue) (shifted r.path) s is).map Prod.snd
        ++ bits (r.value (run (next idcodeValue) s is)) := by
  rw [← emitted_map, ← emitted_map]
  refine emitted_conserved
    (fun x => r.selected x.tap = true ∧ r.path.captures x.tap.tapState = false)
    _ _ (fun x => bits (r.value x)) ?_ ?_ is s ⟨hsel, hcap⟩ hscan
  · rintro x i ⟨hx, -⟩ hon
    exact ⟨(selected_congr (instruction_kept hon)).trans hx, scanning_next i.tmsI hon⟩
  · rintro x i ⟨hx, hno⟩ hon
    exact scan_law hon hx hno

end Scan

/-- What goes out are the first bits of the stream, and what is left are the others. -/
theorem take_drop_of_append {α : Type} {stream out rest : List α} {k : Nat}
    (h : stream = out ++ rest) (hk : out.length = k) : out = stream.take k ∧ rest = stream.drop k := by
  rw [h, ← hk, List.take_left, List.drop_left]
  exact ⟨rfl, rfl⟩

/-- **Scans are transparent to pauses.**  On a path of the controller from the capture state to the
    update state, with any detours and `k` cycles in the shift state, the bits on the `TDO` multiplexer in
    these cycles are the first `k` bits of the captured value, lowest first, followed by the `TDI` bits;
    the register holds the rest at the update; and no other register, nor the instruction, has
    changed. -/
theorem scan_transparent (idcodeValue : BitVec 32) (r : Reg) (s : State) (is : List Input)
    (hsel : r.selected s.tap = true) (hcap : r.path.captures s.tap.tapState = true)
    (hscan : Always (next idcodeValue) (fun s _ => r.path.scanning s.tap.tapState = true) s is)
    (hup : r.path.updates (run (next idcodeValue) s is).tap.tapState = true) :
    let cycles := emitted (next idcodeValue) (shifted r.path) s is
    let stream := bits (r.loads idcodeValue s) ++ cycles.map Prod.fst
    let s' := run (next idcodeValue) s is
    cycles.map Prod.snd = stream.take cycles.length ∧
      bits (r.value s') = stream.drop cycles.length ∧
      (∀ q, q ≠ r → q.value s' = q.value s) ∧ s'.tap.jtagIr = s.tap.jtagIr := by
  cases is with
  | nil =>
    -- the capture state is not the update state
    rw [run_nil, updates_of_captures hcap] at hup
    cases hup
  | cons i is =>
    obtain ⟨hon, hrest⟩ := hscan
    intro cycles stream s'
    have hsel' : r.selected (next idcodeValue s i).tap = true :=
      (selected_congr (instruction_kept hon)).trans hsel
    have hcycles : cycles = emitted (next idcodeValue) (shifted r.path) (next idcodeValue s i) is := by
      show shifted r.path s i ++ _ = _
      rw [shifted, shifts_of_captures hcap]
      rfl
    have hsum := scan_conserved hsel' (scanning_next i.tmsI hon) hrest
    rw [captured_value hon hsel hcap, ← hcycles] at hsum
    obtain ⟨hout, hheld⟩ := take_drop_of_append hsum (List.length_map _)
    exact ⟨hout, hheld, scan_kept hsel ⟨hon, hrest⟩⟩

/-- After reset, the two cycles to the capture state of the data path. -/
def atCapture : State := run (next 0x1b) (reset 0x1b) [{ tmsI := true }, { tmsI := false }]

/-- Two bits shifted, a pause, and one more bit. -/
def pausedScan : List Input :=
  [{ tmsI := false }, { tmsI := false, tdI := true }, { tmsI := true }, { tmsI := false },
    { tmsI := false }, { tmsI := true }, { tmsI := false }, { tmsI := true, tdI := true },
    { tmsI := true }]

def pausedCycles : List (Bool × Bool) := emitted (next 0x1b) (shifted .dr) atCapture pausedScan

example : pausedCycles = [(true, true), (false, true), (true, false)] := by decide

/-- The scan of the identification code with the pause in it. -/
theorem scan_transparent_paused :
    pausedCycles.map Prod.snd
        = (bits (0x1b : BitVec 32) ++ pausedCycles.map Prod.fst).take pausedCycles.length ∧
      bits (run (next 0x1b) atCapture pausedScan).tap.idcode
        = (bits (0x1b : BitVec 32) ++ pausedCycles.map Prod.fst).drop pausedCycles.length ∧
      (run (next 0x1b) atCapture pausedScan).dr = atCapture.dr ∧
      (run (next 0x1b) atCapture pausedScan).tap.jtagIr = atCapture.tap.jtagIr := by
  obtain ⟨hout, hheld, hothers, hir⟩ := scan_transparent 0x1b .idcode atCapture pausedScan
    (by decide) (by decide) (by decide) (by decide)
  exact ⟨hout, hheld, hothers .dmi (by decide), hir⟩

end RiscDbgUart.DmiJtag
