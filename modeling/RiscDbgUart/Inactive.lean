/-
  The module while `dmactive` is low.

  An inactive module should do nothing but wait to be activated.  What is held in reset are the
  registers of `dm_csrs`.  The decoder in front of them works all the time, so the pulses it makes do go
  out: an access can start a transfer and a write to `DMControl` can clear a resume acknowledge.
  `havereset` is not held in reset at all, since it has to remember the reset of the harts.  And the
  host on the system bus does not look at `dmactive`: a transfer it is in the middle of goes on.

  For each of the ways out there is a lemma on a cycle with `dmactive` low: the registers that are held
  (`dmactive_inactive`), `havereset`, which is not (`regs_untouched_iff`), and the host, which may be idle
  (`idle_idle_iff`) or in a transfer (`idle_busy_iff`).  `inert_iff` puts them together with the pulse to
  the harts' side, and it is an equivalence because each of them is.
-/
import RiscDbgUart.BusTransfers

set_option linter.unusedVariables false

namespace RiscDbgUart.SystemBus

open Clocked
open DmSba (SbaState)

variable {n w : Nat}

/-! ## What an access could do -/

/-- The accepted access writes `DMControl`. -/
def writesDmControl (s : State n) (i : Input n w) : Bool :=
  DmRegs.writesDmControl s.csrs (csrsIn s i)

/-- It activates the module. -/
def activates (s : State n) (i : Input n w) : Bool :=
  writesDmControl s i && (DmControl.ofWord i.dmiReqI.data).dmactive

/-- It asks for a new resume. -/
def asksResume (s : State n) (i : Input n w) : Bool :=
  !s.csrs.regs.dmcontrol.resumereq && writesDmControl s i &&
    (DmControl.ofWord i.dmiReqI.data).resumereq

/-- It acknowledges the reset of the selected hart, while the system is not in reset. -/
def acknowledges (s : State n) (i : Input n w) : Bool :=
  !DmRegs.ndmresetO s.csrs.regs && writesDmControl s i &&
    (DmControl.ofWord i.dmiReqI.data).ackhavereset

/-- It is one that starts a transfer. -/
def triggers (s : State n) (i : Input n w) : Bool :=
  writesSb s i .sbData0 || (writesSb s i .sbAddress0 && s.csrs.regs.sbcs.sbreadonaddr) ||
    (readsSbData0 s i && s.csrs.regs.sbcs.sbreadondata)

/-- The registers, `dmactive` left aside. -/
def besidesActive (r : DmRegs.Regs n) : DmRegs.Regs n :=
  { r with dmcontrol := { r.dmcontrol with dmactive := false } }

/-- A module that is inactive, and still is after the cycle, has an idle host; and the DMI access of an
    inactive cycle starts no transfer, pulses nothing and leaves the registers, `dmactive` aside, as they
    are without it. -/
def Inert (w : Nat) (p : BitVec n) (s : State n) (i : Input n w) : Prop :=
  dmactiveO s = false →
    (dmactiveO (next p s i) = false →
      (next p s i).sba = .Idle ∧ masterReqO w (next p s i) = false) ∧
    (s.sba = .Idle → (next p s i).sba = .Idle) ∧
    (DmRegs.csrReadWrite s.csrs (csrsIn s i)).clearResumeackO = false ∧
    besidesActive (next p s i).csrs.regs = besidesActive (next p s (quiet i)).csrs.regs

/-- Nothing is under way when the module becomes inactive, and no access does one of the things that an
    inactive module still does. -/
def Untouched (p : BitVec n) (s : State n) (i : Input n w) : Prop :=
  dmactiveO s = false →
    (activates s i = false → s.sba = .Idle ∨ completes s i = true) ∧
    (s.sba = .Idle → triggers s i = false) ∧ asksResume s i = false ∧
    (acknowledges s i = true →
      (p &&& s.csrs.regs.havereset).getLsbD (DmRegs.selectedHart s.csrs.regs) = false)

instance (w : Nat) (p : BitVec n) (s : State n) (i : Input n w) : Decidable (Inert w p s i) := by
  unfold Inert; infer_instance

section Cycle

variable {p : BitVec n} {s : State n} {i : Input n w}

/-! ## One cycle -/

/-- An inactive module is activated by a write only, and by one that says so. -/
theorem dmactive_inactive (hact : dmactiveO s = false) :
    dmactiveO (next p s i) = activates s i := by
  unfold dmactiveO
  rw [regs_inactive p i hact]
  show (DmRegs.csrReadWrite s.csrs (csrsIn s i)).d.dmcontrol.dmactive = _
  rw [DmRegs.dmcontrol_d]
  unfold DmRegs.dmcontrolOverrides activates writesDmControl DmRegs.writesDmControl
  rw [apply_ite DmControl.dmactive]
  unfold dmactiveO at hact
  rw [hact]
  cases DmRegs.writes s.csrs (csrsIn s i) && DmRegs.dmCsrAddr (csrsIn s i) == .dmControl <;> rfl

/-- A host that is busy goes idle when it gets the answer that it waits for, and then only. -/
theorem idle_busy_iff (h : Inv w s) (hb : s.sba ≠ .Idle) :
    (next p s i).sba = .Idle ↔ completes s i = true := by
  unfold completes
  cases hreq : masterReqO w s
  · have hw : waits s = true := waits_of_busy h hb hreq
    rw [sba_waits h hw, hw, Bool.true_and]
    cases i.masterRValidI
    · exact iff_of_false hb Bool.false_ne_true
    · exact iff_of_true rfl rfl
  · rw [waits_of_request h hreq, sba_request h hreq]
    refine iff_of_false ?_ Bool.false_ne_true
    split_ifs
    · exact not_false
    · exact not_false
    · exact hb

/-- A host that is idle stays so unless the access starts a transfer. -/
theorem idle_idle_iff (h : Inv w s) (hs : s.sba = .Idle) :
    (next p s i).sba = .Idle ↔ triggers s i = false := by
  rw [sba_idle h hs, starts_eq h]
  unfold triggers
  cases readsSbData0 s i && s.csrs.regs.sbcs.sbreadondata <;>
    cases writesSb s i .sbData0 <;>
    cases writesSb s i .sbAddress0 && s.csrs.regs.sbcs.sbreadonaddr <;> simp

/-- Clearing a bit changes nothing if and only if it is clear. -/
theorem and_setBit_false (p v : BitVec n) (j : Nat) :
    p &&& setBit v j false = p &&& v ↔ (p &&& v).getLsbD j = false := by
  constructor
  · intro heq
    by_cases hj : j < n
    · rw [← heq, BitVec.getLsbD_and, setBit_getLsbD _ _ _ _ hj, if_pos rfl, Bool.and_false]
    · exact BitVec.getLsbD_of_ge _ _ (by omega)
  · intro hlow
    apply BitVec.eq_of_getLsbD_eq
    intro k hk
    rw [BitVec.getLsbD_and, setBit_getLsbD _ _ _ _ hk]
    split_ifs with hkj
    · rw [hkj, hlow, Bool.and_false]
    · rw [BitVec.getLsbD_and]

/-- The access of an inactive cycle can reach `havereset`, and no other register. -/
theorem regs_untouched_iff (hact : dmactiveO s = false) :
    besidesActive (next p s i).csrs.regs = besidesActive (next p s (quiet i)).csrs.regs ↔
      (acknowledges s i = true →
        (p &&& s.csrs.regs.havereset).getLsbD (DmRegs.selectedHart s.csrs.regs) = false) := by
  -- the quiet cycle has no access, so it writes nothing
  have hquiet : DmRegs.writesDmControl s.csrs (csrsIn s (quiet i)) = false := by
    unfold DmRegs.writesDmControl DmRegs.writes DmRegs.accepts
    show ((_ && false) && _ && _) = false
    rw [Bool.and_false]
    rfl
  -- all registers but `havereset` are cleared in both cycles
  have hiff : besidesActive (next p s i).csrs.regs = besidesActive (next p s (quiet i)).csrs.regs ↔
      p &&& (DmRegs.csrReadWrite s.csrs (csrsIn s i)).d.havereset
        = p &&& (DmRegs.csrReadWrite s.csrs (csrsIn s (quiet i))).d.havereset := by
    unfold besidesActive
    rw [regs_inactive p i hact, regs_inactive p (quiet i) hact]
    constructor
    · intro heq
      exact congrArg DmRegs.Regs.havereset heq
    · intro heq
      simp only [heq]
  rw [hiff, DmRegs.havereset_d, DmRegs.havereset_d, hquiet, Bool.false_and]
  show p &&& (if DmRegs.ndmresetO s.csrs.regs then BitVec.allOnes n
      else if writesDmControl s i && (DmControl.ofWord i.dmiReqI.data).ackhavereset then
        setBit s.csrs.regs.havereset (DmRegs.selectedHart s.csrs.regs) false
      else s.csrs.regs.havereset)
    = p &&& (if DmRegs.ndmresetO s.csrs.regs then BitVec.allOnes n
      else s.csrs.regs.havereset) ↔ _
  unfold acknowledges
  -- a system reset sets the bits of all harts, whatever is acknowledged
  cases DmRegs.ndmresetO s.csrs.regs
  · simp only [Bool.not_false, Bool.true_and, Bool.false_eq_true, if_false]
    cases writesDmControl s i && (DmControl.ofWord i.dmiReqI.data).ackhavereset
    · simp
    · simp only [if_true, true_implies]
      exact and_setBit_false p _ _
  · simp

/-- **One cycle.**  It does nothing but what an inactive module may do, exactly when the access in it reaches
    none of the things that `dmactive` does not hold. -/
theorem inert_iff (h : Inv w s) : Inert w p s i ↔ Untouched p s i := by
  refine imp_congr_right fun hact => ?_
  have hclear : (DmRegs.csrReadWrite s.csrs (csrsIn s i)).clearResumeackO = asksResume s i :=
    DmRegs.clearResumeackO_eq s.csrs (csrsIn s i)
  have hnext := inv_next (p := p) (i := i) h
  have hreq : (next p s i).sba = .Idle → masterReqO w (next p s i) = false := by
    intro hidle
    rw [masterReqO_eq hnext, hidle]
    rfl
  rw [dmactive_inactive hact, hclear, regs_untouched_iff hact, and_iff_left_of_imp hreq]
  by_cases hs : s.sba = .Idle
  · rw [idle_idle_iff h hs]
    simp only [hs, true_implies, true_or, implies_true, true_and]
    constructor
    · rintro ⟨-, hrest⟩
      exact hrest
    · intro hrest
      exact ⟨fun _ => hrest.1, hrest⟩
  · rw [idle_busy_iff h hs]
    simp only [hs, false_or, false_implies, true_and]

end Cycle

/-! ## Whole runs -/

/-- **An inactive module is inert, exactly.**  Along every run from reset the inactive cycles start
    nothing, pulse nothing and change nothing, and leave the host idle, if and only if the host is idle
    or done when the module becomes inactive and no inactive cycle has an access that starts a transfer,
    asks for a resume or acknowledges a reset. -/
theorem inactive_inert_iff (p : BitVec n) (is : List (Input n w)) :
    Always (next p) (Inert w p) reset is ↔ Always (next p) (Untouched p) reset is :=
  always_congr (Inv w) (fun s i => inv_next) (fun s i h => inert_iff h) is reset inv_reset

/-- Straight after reset a write to `SBData0` puts a write to address 0 on the bus. -/
theorem inactive_write_starts : ¬ Always (next 1) (Inert 32 1) reset [dmiWrite 0x3c 5] := by
  decide

end RiscDbgUart.SystemBus
