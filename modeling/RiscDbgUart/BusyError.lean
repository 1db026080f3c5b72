/-
  The busy error of the DMI, and which scans raise it.

  The TAP strobes `capture_dr` and `update_dr` for whatever data register is selected.  The state
  machine takes an update, and the DMI register a capture, with `DMIACCESS` selected only; the busy
  error looks at the bare strobes, and not at the operation that an update names.  So while an
  operation is in progress the busy error also comes from the scan of a register that has nothing to do
  with the DMI, and from an update that asks for nothing.

  `busy_iff` says which strobes these are.  Each edge is settled by itself: no run is needed to see
  where the error comes from.

  The error is sticky, so the theorem speaks of the edges that SET it (`error_set_iff`).  A strobe that
  asks nothing of the DMI is `stray`; `raisedByOverlap_iff` says that an edge sets the error for its reason
  unless it is such a strobe that sets it.
-/
import RiscDbgUart.JtagTransactions

set_option linter.unusedVariables false

namespace RiscDbgUart.DmiJtag

open Clocked

/-! ## Where the error comes from -/

/-- The busy error, where the edge sets it, comes from a scan of the DMI register that overlaps an
    operation in progress: a capture, or an update with an operation. -/
def RaisedByOverlap (idcodeValue : BitVec 32) (s : State) (i : Input) : Prop :=
  s.error ≠ DMIBusy → (next idcodeValue s i).error = DMIBusy →
    s.state ≠ .Idle ∧ (capturesDmi s = true ∨ (updatesDmi s = true ∧ namesOp s = true))

instance (idcodeValue : BitVec 32) (s : State) (i : Input) :
    Decidable (RaisedByOverlap idcodeValue s i) := by
  unfold RaisedByOverlap; infer_instance

/-- A strobe that asks nothing of the DMI: an update of another register, or of the DMI register
    without an operation, unless it is the one that clears the error; and, during a read, a capture of
    another register. -/
def stray (s : State) : Bool :=
  (JtagTap.updateDrO s.tap && !(updatesDmi s && namesOp s) && !resetsDmi s) ||
    (JtagTap.captureDrO s.tap && !JtagTap.dmiAccessO s.tap
      && (s.state == .Read || s.state == .WaitReadValid))

/-- No stray strobe falls into an operation, as long as the error is not up yet.  Once it is up it stays, so
    a later strobe sets nothing. -/
def NoStray (s : State) : Prop := s.state ≠ .Idle → s.error ≠ DMIBusy → stray s = false

instance (s : State) : Decidable (NoStray s) := by unfold NoStray; infer_instance

section Edge

variable {idcodeValue : BitVec 32} {s : State} {i : Input}

/-- The edge that sets the error. -/
theorem error_set_iff (herr : s.error ≠ DMIBusy) :
    (next idcodeValue s i).error = DMIBusy ↔ errorDmiBusy s = true ∧ resetsDmi s = false := by
  show errorD s = DMIBusy ↔ _
  unfold errorD
  cases resetsDmi s
  · rw [if_neg Bool.false_ne_true]
    cases errorDmiBusy s
    · rw [if_neg Bool.false_ne_true]
      exact iff_of_false herr (fun h => absurd h.1 Bool.false_ne_true)
    · exact iff_of_true rfl ⟨rfl, rfl⟩
  · rw [if_pos rfl]
    exact iff_of_false (by decide) (fun h => absurd h.2 (by decide))

/-- Nothing raises the error while no operation is in progress. -/
theorem errorDmiBusy_idle (hs : s.state = .Idle) : errorDmiBusy s = false := by
  rw [errorDmiBusy, hs]
  simp

/-- During an operation every update raises it; the stray ones are those that name no operation of the
    DMI and do not clear the error. -/
theorem strobe_update (hs : s.state ≠ .Idle) (hup : JtagTap.updateDrO s.tap = true) :
    errorDmiBusy s = true ∧ capturesDmi s = false ∧
      stray s = (!(updatesDmi s && namesOp s) && !resetsDmi s) := by
  have hcap : JtagTap.captureDrO s.tap = false := by
    cases h : JtagTap.captureDrO s.tap
    · rfl
    · rw [(JtagTap.capture_alone h).2.1] at hup
      cases hup
  rw [errorDmiBusy, capturesDmi, stray, hup, hcap, bne_iff_ne.mpr hs]
  simp

/-- With no update the error is a capture during a read, and is not cleared. -/
theorem strobe_capture (hup : JtagTap.updateDrO s.tap = false) :
    errorDmiBusy s
        = (JtagTap.captureDrO s.tap && (s.state == .Read || s.state == .WaitReadValid)) ∧
      updatesDmi s = false ∧ resetsDmi s = false ∧
      stray s = (errorDmiBusy s && !capturesDmi s) := by
  rw [errorDmiBusy, updatesDmi, resetsDmi, stray, capturesDmi, hup]
  cases JtagTap.captureDrO s.tap <;> simp [Bool.and_comm]

/-- **One edge**: the error comes from where it should, unless the strobe is a stray one. -/
theorem raisedByOverlap_iff : RaisedByOverlap idcodeValue s i ↔ NoStray s := by
  rw [RaisedByOverlap, NoStray]
  by_cases hs : s.state = .Idle
  · -- no operation is in progress
    constructor
    · intro _ hbusy
      exact absurd hs hbusy
    · intro _ herr hset
      rw [error_set_iff herr, errorDmiBusy_idle hs] at hset
      cases hset.1
  · by_cases herr : s.error = DMIBusy
    · exact iff_of_true (fun h => absurd herr h) (fun _ h => absurd herr h)
    · rw [imp_iff_right herr, error_set_iff herr, and_iff_right hs, imp_iff_right hs,
        imp_iff_right herr, ← Bool.and_eq_true]
      cases hup : JtagTap.updateDrO s.tap
      · obtain ⟨-, hno, hclear, hstray⟩ := strobe_capture hup
        rw [hno, hclear, hstray]
        cases errorDmiBusy s <;> cases capturesDmi s <;> simp
      · obtain ⟨hbusy, hno, hstray⟩ := strobe_update hs hup
        rw [hbusy, hno, hstray]
        cases resetsDmi s <;> cases updatesDmi s && namesOp s <;> simp

end Edge

/-! ## Whole runs -/

/-- **The busy error and the scans that raise it.**  In a run from reset, whatever the host does with
    `TMS` and `TDI` and however long the answers take, the busy error is raised only by a capture of the
    DMI register, or an update of it with an operation, that overlaps an operation in progress, exactly
    when no stray strobe falls into an operation while the error is down. -/
theorem busy_iff (idcodeValue : BitVec 32) (is : List Input) :
    Always (next idcodeValue) (RaisedByOverlap idcodeValue) (reset idcodeValue) is ↔
      Always (next idcodeValue) (fun s _ => NoStray s) (reset idcodeValue) is :=
  always_congr (fun _ => True) (fun _ _ _ => trivial) (fun _ _ _ => raisedByOverlap_iff) is _ trivial

/-- The host asks for a read of address 0x11, which the channel does not take over, and goes on to an
    instruction scan that selects `BYPASS` and to the capture of the bypass register. -/
def bypassScan : List Input :=
  readScan.take 55 ++ [true, true, false, true, true, true, false, true].map fun b => { tmsI := b }

/-- The capture of the bypass register raises the busy error. -/
theorem bypass_scan_raises :
    ¬ Always (next 1) (RaisedByOverlap 1) (reset 1) bypassScan := by
  decide +kernel

end RiscDbgUart.DmiJtag
