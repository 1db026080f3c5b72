/-
  The error register of the abstract commands.

  Its bits are to stay set until the debugger clears them by writing ones, so that the first error is
  the one that is read.  The DMI side of the registers keeps to that: it records the busy error only
  over no error.  The hart side does not: what `dm_mem` reports replaces whatever is recorded.  The
  register is sticky in exactly the runs in which nothing is reported over a recorded error, or what is
  reported is what is there.

  `reported` is what the hart side says in a cycle, and `keptErr` what a recorded error is to become, given
  what the debugger writes.  The register is right after the cycle exactly when the hart side says
  nothing, or says just that (`kept_iff`), and the theorem is this on every cycle of a run.
-/
import RiscDbgUart.CommandWindow

set_option linter.unusedVariables false

namespace RiscDbgUart.DebugModule

open Clocked
open DmMem (Params Access CtrlState)

variable {n w : Nat}

/-- The cycle's access writes `AbstractCS` while no command is busy. -/
def clearsErr (p : Params n) (s : State n) (i : Input n w) : Bool :=
  DmRegs.overwrites s.csrs (csrsIn p s i) .abstractCS

/-- What a recorded error becomes: the bits written as one are cleared, and nothing else happens to
    it. -/
def keptErr (p : Params n) (s : State n) (i : Input n w) : CmdErr :=
  if clearsErr p s i then ~~~(i.dmiReqI.data.extractLsb' 8 3) &&& s.csrs.regs.cmderr
  else s.csrs.regs.cmderr

/-- The error the hart side reports in the cycle: an exception, or else a command handed over that is
    not supported, or else one for a hart that is not halted. -/
def reported (p : Params n) (s : State n) (i : Input n w) : Option CmdErr :=
  if exception s i then some CmdErrorException
  else if s.csrs.regs.cmdValid && unsupportedCommand w p.hasSndScratch s.csrs.regs.command then
    some CmdErrNotSupported
  else if s.csrs.regs.cmdValid && s.mem.state == .Idle
      && !DmMem.selectedHalted s.mem (memInWith (w := w) false s i) then
    some CmdErrorHaltResume
  else none

/-- The reported error is the one `dm_mem` drives. -/
theorem cmderror_reported (p : Params n) (s : State n) (i : Input n w) :
    (if cmderrorValid p s i then some (DmMem.cmderrorO p s.mem (memInWith false s i)) else none)
      = reported p s i := by
  have hsup : DmMem.unsupported p (memInWith false s i)
      = unsupportedCommand w p.hasSndScratch s.csrs.regs.command := rfl
  have hcmd : (memInWith false s i).cmdValidI = s.csrs.regs.cmdValid := rfl
  unfold cmderrorValid reported exception DmMem.cmderrorValidO DmMem.cmderrorO
    DmMem.haltResumeError
  rw [hsup, hcmd]
  cases DmMem.exception (memInWith false s i) <;>
    cases unsupportedCommand w p.hasSndScratch s.csrs.regs.command <;>
    cases s.csrs.regs.cmdValid <;>
    cases DmMem.selectedHalted s.mem (memInWith false s i) <;>
    cases (s.mem.state == .Idle) <;> rfl

/-- In a cycle with an error recorded the register does what it should exactly when the hart side
    reports nothing, or what it should become. -/
theorem kept_iff {p : Params n} {s : State n} (i : Input n w) (hact : dmactiveO s = true)
    (herr : s.csrs.regs.cmderr ≠ CmdErrNone) :
    (next p s i).csrs.regs.cmderr = keptErr p s i ↔
      ∀ e, reported p s i = some e → e = keptErr p s i := by
  -- an error is recorded, so an access reports none: it clears, or it keeps
  have haccess : DmRegs.accessErr s.csrs (csrsIn p s i) = keptErr p s i := by
    have hnone : (s.csrs.regs.cmderr == CmdErrNone) = false := beq_eq_false_iff_ne.mpr herr
    unfold DmRegs.accessErr keptErr clearsErr
    rw [hnone, Bool.and_false]
    rfl
  have hvalid : (csrsIn p s i).cmderrorValidI = cmderrorValid p s i := rfl
  rw [regs_next p i hact, ← cmderror_reported]
  show (DmRegs.csrReadWrite s.csrs (csrsIn p s i)).d.cmderr = _ ↔ _
  rw [DmRegs.cmderr_d, haccess, hvalid]
  -- what the hart side reports goes over both
  cases cmderrorValid p s i
  · simp
  · constructor
    · intro h e he
      rw [if_pos rfl, Option.some.injEq] at he
      rw [← he]
      exact h
    · intro h
      exact h _ rfl

/-- **The error is sticky, exactly.**  Along every run from reset a recorded error changes only by a
    write to `AbstractCS` while no command is busy, and then to what is left of it, if and only if the
    hart side reports no other error while one is recorded. -/
theorem cmderr_sticky_iff (p : Params n) (romAddr : Nat) (is : List (Input n w)) :
    Always (next p)
      (fun s i => dmactiveO s = true → s.csrs.regs.cmderr ≠ CmdErrNone →
        (next p s i).csrs.regs.cmderr = keptErr p s i) (reset romAddr) is ↔
    Always (next p)
      (fun s i => dmactiveO s = true → s.csrs.regs.cmderr ≠ CmdErrNone →
        ∀ e, reported p s i = some e → e = keptErr p s i) (reset romAddr) is := by
  refine always_congr (fun _ => True) (fun _ _ _ => trivial) ?_ is (reset romAddr) trivial
  intro s i _
  exact imp_congr_right fun hact => imp_congr_right fun herr => kept_iff i hact herr

/-- A command for a hart that is not halted leaves its error, and the next command, which the debug
    module does not support, replaces it. -/
theorem first_error_replaced : ¬ Always (next oneHart)
    (fun s i => dmactiveO s = true → s.csrs.regs.cmderr ≠ CmdErrNone →
      (next oneHart s i).csrs.regs.cmderr = keptErr oneHart s i) (reset 0)
    [dmiWrite 0x10 1, dmiWrite 0x17 0x00221000, {}, dmiWrite 0x17 0x02000000, {}] := by
  decide

end RiscDbgUart.DebugModule
