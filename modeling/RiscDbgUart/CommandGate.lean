/-
  Abstract commands over a recorded error.

  No abstract command is to be started until `cmderr` is zero again, so that the accesses a debugger
  has queued do nothing once one of them has failed.  The registers do not ask: a write to `Command`
  and an access with its autoexec bit set are handed over whatever `cmderr` holds, and the command
  state machine does not know the register at all.  What is left is what keeps any command from
  starting: the state machine is not idle, the hart is not halted, the command is not supported, or a
  resume that is due takes the launch's place.  In exactly these cases the access is ignored.

  Where the access is refused by the registers the matter is settled one cycle earlier
  (`silent_of_refused`): `cmd_valid` stays low and the machine has nothing to look at.  Where it is taken,
  `ignored_iff` compares the cycle behind it with one in which no command is valid.
-/
import RiscDbgUart.CommandRequests

set_option linter.unusedVariables false

namespace RiscDbgUart.DebugModule

open Clocked
open DmMem (Params Access CtrlState)

variable {n w : Nat} {p : Params n} {s : State n} {i : Input n w}

/-! ## Accesses that ask for a command -/

/-- The accepted access asks for a command, whether or not one is busy. -/
def asksForCommand (p : Params n) (s : State n) (i : Input n w) : Bool :=
  DmRegs.requestsCommand s.csrs (csrsIn p s i)

/-- The command state machine does not start in this cycle, and the harts' side is left as it would be
    with no command handed over.  The second part says that nothing of the command is kept for later. -/
def Ignored (p : Params n) (s : State n) (i : Input n w) : Prop :=
  ¬ (s.mem.state = .Idle ∧ (next p s i).mem.state = .Go) ∧
    (next p s i).mem = DmMem.next p s.mem { memIn p s i with cmdValidI := false }

/-- What keeps the state machine from starting `cmd` in this cycle: it is busy, the selected hart is not
    halted, the command is refused, or a resume is due and goes first. -/
def Blocked (p : Params n) (cmd : Command) (s : State n) (i : Input n w) : Prop :=
  s.mem.state ≠ .Idle ∨ DmMem.selectedHalted s.mem (memIn p s i) = false ∨
    unsupportedCommand w p.hasSndScratch cmd = true ∨ DmMem.wantsResume s.mem (memIn p s i) = true

instance (p : Params n) (s : State n) (i : Input n w) : Decidable (Ignored p s i) := by
  unfold Ignored; infer_instance

/-! ## The cycle after the access -/

/-- A launch that does not take place leaves the harts' side alone. -/
theorem mem_next_unlaunched (h : ¬ (s.mem.state = .Idle ∧ (next p s i).mem.state = .Go)) :
    (next p s i).mem = DmMem.next p s.mem { memIn p s i with cmdValidI := false } := by
  have hstate : DmMem.stateD p s.mem (memIn p s i)
      = DmMem.stateD p s.mem { memIn p s i with cmdValidI := false } := by
    have hgo : (next p s i).mem.state = DmMem.stateD p s.mem (memIn p s i) := rfl
    rw [hgo] at h
    unfold DmMem.stateD at h ⊢
    cases hs : s.mem.state
    · -- idle: the launch is the only thing that looks at the valid
      rw [hs] at h
      have hkeep : DmMem.wantsResume s.mem { memIn p s i with cmdValidI := false }
          = DmMem.wantsResume s.mem (memIn p s i) := rfl
      simp only [hkeep, Bool.false_and, Bool.false_eq_true, if_false] at h ⊢
      split_ifs at h ⊢ with hr hv
      · rfl
      · exact absurd ⟨trivial, rfl⟩ h
      · rfl
    · rfl
    · rfl
    · rfl
  show DmMem.next p s.mem (memIn p s i) = _
  rw [DmMem.next, hstate]
  rfl

/-- Without a command handed over there is nothing to ignore. -/
theorem ignored_of_silent (hv : s.csrs.regs.cmdValid = false) : Ignored p s i := by
  have hin : { memIn p s i with cmdValidI := false } = memIn p s i := by
    rw [← hv]
    rfl
  have hno : ¬ (s.mem.state = .Idle ∧ (next p s i).mem.state = .Go) := by
    rintro ⟨hidle, hgo⟩
    have hgo' : DmMem.stateD p s.mem (memIn p s i) = .Go := hgo
    rw [← hin, DmMem.stateD, hidle] at hgo'
    simp only [Bool.false_and, Bool.false_eq_true, if_false] at hgo'
    split_ifs at hgo'
  exact ⟨hno, mem_next_unlaunched hno⟩

/-- A command that is handed over is ignored exactly when it is blocked. -/
theorem ignored_iff {cmd : Command} (hv : s.csrs.regs.cmdValid = true)
    (hcmd : s.csrs.regs.command = cmd) : Ignored p s i ↔ Blocked p cmd s i := by
  subst hcmd
  have hlaunch := launched p i hv
  have hblocked : Blocked p s.csrs.regs.command s i
      ↔ ¬ (s.mem.state = .Idle ∧ (next p s i).mem.state = .Go) := by
    rw [hlaunch, Blocked]
    simp only [not_and_or, Bool.not_eq_true, Bool.not_eq_false]
  rw [hblocked]
  constructor
  · intro h
    exact h.1
  · intro h
    exact ⟨h, mem_next_unlaunched h⟩

/-- A refused access hands no command over. -/
theorem silent_of_refused (hact : dmactiveO s = true) (hask : asksForCommand p s i = true)
    (hreq : requests p s i = false) : (next p s i).csrs.regs.cmdValid = false := by
  rw [regs_next p i hact]
  show (DmRegs.csrReadWrite s.csrs (csrsIn p s i)).d.cmdValid = false
  rw [DmRegs.cmdValid_d]
  exact hreq

/-! ## Whole runs -/

/-- **No command over an error, exactly.**  Along every run from reset the accesses that ask for a
    command while an error is recorded are all ignored if and only if each of them that finds no
    command busy is blocked in the cycle after it. -/
theorem commands_gated_iff (p : Params n) (romAddr : Nat) (is : List (Input n w)) :
    Followed (next p)
      (fun s i j => dmactiveO s = true → asksForCommand p s i = true →
        s.csrs.regs.cmderr ≠ CmdErrNone → Ignored p (next p s i) j) (reset romAddr) is ↔
    Followed (next p)
      (fun s i j => dmactiveO s = true → requests p s i = true →
        s.csrs.regs.cmderr ≠ CmdErrNone → Blocked p (requestedCommand p s i) (next p s i) j)
      (reset romAddr) is := by
  refine followed_congr ?_ is (reset romAddr)
  intro s i j
  refine imp_congr_right fun hact => ?_
  constructor
  · -- a request that is taken is an ask that is not refused
    intro h hreq herr
    obtain ⟨hv, hcmd, -⟩ := requested hact hreq
    have hask : asksForCommand p s i = true := by
      rw [requests, Bool.and_eq_true] at hreq
      exact hreq.1
    exact (ignored_iff hv hcmd).mp (h hask herr)
  · intro h hask herr
    -- an ask that is refused leaves `cmd_valid` low, so nothing starts
    cases hreq : requests p s i
    · exact ignored_of_silent (silent_of_refused hact hask hreq)
    · obtain ⟨hv, hcmd, -⟩ := requested hact hreq
      exact (ignored_iff hv hcmd).mpr (h hreq herr)

/-- A command that is not supported leaves its error, and the next one is started all the same. -/
theorem command_started_over_error : ¬ Followed (next oneHart)
    (fun s i j => dmactiveO s = true → asksForCommand oneHart s i = true →
      s.csrs.regs.cmderr ≠ CmdErrNone → Ignored oneHart (next oneHart s i) j) (reset 0)
    [dmiWrite 0x10 1, hartStore 0x100 0, dmiWrite 0x17 0x02000000, {}, dmiWrite 0x17 0x00221000,
      {}] := by
  decide

end RiscDbgUart.DebugModule
