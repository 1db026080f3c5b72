/-
  From a DMI access that asks for an abstract command to what the debug module does about it.

  `cmd_valid` is a register: the access is accepted in one cycle and reaches the command state machine
  in the next, and in that next cycle the registers still read "not busy".  The state machine looks at
  the request in that one cycle only.  So whether the request is answered — the command launched with
  the requested word, or an error raised for it — is decided by what the machine and the DMI do in the
  cycle after the access, and the condition is exact.

  `Launches` is that condition.  It says that the command is one the hart side refuses with an error, or
  that the state machine is idle with a halted hart and no resume in its way, and that the debugger
  does not replace the command in the very cycle in which it is looked at.  Otherwise the request is
  dropped, or answered for something else; `request_dropped` is a run in which it is dropped, by a
  resume request in the cycle before.
-/
import RiscDbgUart.DebugModule

set_option linter.unusedVariables false

namespace RiscDbgUart.DebugModule

open Clocked
open DmMem (Params Access CtrlState)

variable {n w : Nat}

/-! ## Requests -/

/-- The cycle's DMI access asks for a command and is accepted without the busy error. -/
def requests (p : Params n) (s : State n) (i : Input n w) : Bool :=
  DmRegs.requestsCommand s.csrs (csrsIn p s i) && !DmMem.cmdbusyO s.mem

/-- The access writes `Command`. -/
def writesCommand (p : Params n) (s : State n) (i : Input n w) : Bool :=
  DmRegs.overwrites s.csrs (csrsIn p s i) .command

/-- The command it asks for: the word it writes, or the command that is there. -/
def requestedCommand (p : Params n) (s : State n) (i : Input n w) : Command :=
  if writesCommand p s i then Command.ofWord i.dmiReqI.data else s.csrs.regs.command

/-- The request for `cmd` is answered in this cycle: `dm_mem` enters `Go` and finds the command in
    `cmd_i` there, or it raises an error for the command. -/
def Answered (p : Params n) (cmd : Command) (s : State n) (i : Input n w) : Prop :=
  (s.mem.state = .Idle ∧ (next p s i).mem.state = .Go ∧ (next p s i).csrs.regs.command = cmd) ∨
  (DmMem.cmderrorValidO p s.mem (memIn p s i) = true ∧
    (DmMem.cmderrorO p s.mem (memIn p s i) = CmdErrNotSupported ∨
      DmMem.cmderrorO p s.mem (memIn p s i) = CmdErrorHaltResume))

/-- The state machine is free, the hart is halted and no resume is due, and the DMI does not replace
    the command in the same cycle; or the command is refused and no hart reports an exception over
    it. -/
def Launches (p : Params n) (cmd : Command) (s : State n) (i : Input n w) : Prop :=
  (s.mem.state = .Idle ∧ DmMem.selectedHalted s.mem (memIn p s i) = true ∧
    unsupportedCommand w p.hasSndScratch cmd = false ∧
    DmMem.wantsResume s.mem (memIn p s i) = false ∧
    (writesCommand p s i = true → Command.ofWord i.dmiReqI.data = cmd)) ∨
  (DmMem.exception (memIn p s i) = false ∧
    (unsupportedCommand w p.hasSndScratch cmd = true ∨
      (s.mem.state = .Idle ∧ DmMem.selectedHalted s.mem (memIn p s i) = false)))

instance (p : Params n) (cmd : Command) (s : State n) (i : Input n w) :
    Decidable (Answered p cmd s i) := by unfold Answered; infer_instance

instance (p : Params n) (cmd : Command) (s : State n) (i : Input n w) :
    Decidable (Launches p cmd s i) := by unfold Launches; infer_instance

/-! ## The cycle of the access -/

/-- An access that asks for a command does not write `DMControl`, so the module is still active when the
    command is handed over. -/
theorem requests_keeps_dmactive {p : Params n} {s : State n} {i : Input n w}
    (h : requests p s i = true) :
    (DmRegs.writes s.csrs (csrsIn p s i) && DmRegs.dmCsrAddr (csrsIn p s i) == .dmControl)
      = false := by
  unfold requests DmRegs.requestsCommand at h
  rw [Bool.and_eq_false_iff, beq_eq_false_iff_ne]
  right
  intro hcsr
  rw [hcsr] at h
  exact Bool.false_ne_true h

/-- After the access the command is handed over, and it is the requested one. -/
theorem requested {p : Params n} {s : State n} {i : Input n w} (hact : dmactiveO s = true)
    (h : requests p s i = true) :
    (next p s i).csrs.regs.cmdValid = true ∧
      (next p s i).csrs.regs.command = requestedCommand p s i ∧ dmactiveO (next p s i) = true := by
  unfold dmactiveO
  rw [regs_next p i hact]
  refine ⟨?_, ?_, ?_⟩
  · rw [DmRegs.cmdValid_d]
    exact h
  · rw [DmRegs.command_d]
    rfl
  · rw [DmRegs.dmactive_d _ _ (requests_keeps_dmactive h)]
    exact hact

/-! ## The cycle after it -/

/-- The command register after the cycle in which a command is handed over. -/
theorem command_next (p : Params n) {s : State n} (i : Input n w) (hact : dmactiveO s = true) :
    (next p s i).csrs.regs.command = requestedCommand p s i := by
  rw [regs_next p i hact, DmRegs.command_d]
  rfl

/-- The state machine starts the command handed over in this cycle, unless something is in its way: it is
    busy, the hart is not halted, the command is not supported, or a resume goes first. -/
theorem launched (p : Params n) {s : State n} (i : Input n w)
    (hv : s.csrs.regs.cmdValid = true) :
    (s.mem.state = .Idle ∧ (next p s i).mem.state = .Go) ↔
      (s.mem.state = .Idle ∧ DmMem.selectedHalted s.mem (memIn p s i) = true ∧
        unsupportedCommand w p.hasSndScratch s.csrs.regs.command = false ∧
        DmMem.wantsResume s.mem (memIn p s i) = false) := by
  refine and_congr_right fun hidle => ?_
  have hcmd : (memIn p s i).cmdValidI = true := hv
  have hsup : DmMem.unsupported p (memIn p s i)
      = unsupportedCommand w p.hasSndScratch s.csrs.regs.command := rfl
  show DmMem.stateD p s.mem (memIn p s i) = .Go ↔ _
  unfold DmMem.stateD
  rw [hidle, hcmd, hsup]
  cases DmMem.selectedHalted s.mem (memIn p s i) <;>
    cases unsupportedCommand w p.hasSndScratch s.csrs.regs.command <;>
    cases DmMem.wantsResume s.mem (memIn p s i) <;> simp

/-- The state machine raises an error for the command handed over in this cycle. -/
theorem refused (p : Params n) {s : State n} (i : Input n w)
    (hv : s.csrs.regs.cmdValid = true) :
    (DmMem.cmderrorValidO p s.mem (memIn p s i) = true ∧
      (DmMem.cmderrorO p s.mem (memIn p s i) = CmdErrNotSupported ∨
        DmMem.cmderrorO p s.mem (memIn p s i) = CmdErrorHaltResume)) ↔
      (DmMem.exception (memIn p s i) = false ∧
        (unsupportedCommand w p.hasSndScratch s.csrs.regs.command = true ∨
          (s.mem.state = .Idle ∧ DmMem.selectedHalted s.mem (memIn p s i) = false))) := by
  have hcmd : (memIn p s i).cmdValidI = true := hv
  have hsup : DmMem.unsupported p (memIn p s i)
      = unsupportedCommand w p.hasSndScratch s.csrs.regs.command := rfl
  unfold DmMem.cmderrorValidO DmMem.cmderrorO DmMem.haltResumeError
  rw [hcmd, hsup]
  cases DmMem.exception (memIn p s i) <;>
    cases unsupportedCommand w p.hasSndScratch s.csrs.regs.command <;>
    cases DmMem.selectedHalted s.mem (memIn p s i) <;>
    by_cases hidle : s.mem.state = .Idle <;> simp [hidle]

/-- The cycle after the access answers the request exactly when it launches or refuses it. -/
theorem answered_iff {p : Params n} {cmd : Command} {s : State n} (i : Input n w)
    (hact : dmactiveO s = true) (hv : s.csrs.regs.cmdValid = true)
    (hcmd : s.csrs.regs.command = cmd) : Answered p cmd s i ↔ Launches p cmd s i := by
  subst hcmd
  unfold Answered Launches
  rw [refused p i hv, ← and_assoc, launched p i hv, command_next p i hact]
  refine or_congr ?_ Iff.rfl
  unfold requestedCommand
  cases hw : writesCommand p s i <;> simp [and_assoc]

/-! ## Whole runs -/

/-- Every request accepted in the run is answered in the cycle after it. -/
def EveryRequest (p : Params n) (Q : Command → State n → Input n w → Prop) (s : State n)
    (is : List (Input n w)) : Prop :=
  Followed (next p)
    (fun s i j => dmactiveO s = true → requests p s i = true →
      Q (requestedCommand p s i) (next p s i) j) s is

instance (p : Params n) (Q : Command → State n → Input n w → Prop)
    [∀ c s i, Decidable (Q c s i)] (s : State n) (is : List (Input n w)) :
    Decidable (EveryRequest p Q s is) := by unfold EveryRequest; exact decidableFollowed _ _ _ _

/-- **No request is dropped, exactly.**  Along every run from reset the requests are all answered if
    and only if each of them finds the state machine able to launch or refuse it in the cycle after
    the access. -/
theorem requests_answered_iff (p : Params n) (romAddr : Nat) (is : List (Input n w)) :
    EveryRequest p (Answered p) (reset romAddr) is ↔
      EveryRequest p (Launches p) (reset romAddr) is := by
  unfold EveryRequest
  refine followed_congr ?_ is (reset romAddr)
  intro s i j
  refine imp_congr_right fun hact => imp_congr_right fun hreq => ?_
  obtain ⟨hv, hcmd, hact'⟩ := requested hact hreq
  exact answered_iff j hact' hv hcmd

/-! ## A request that is dropped -/

/-- One hart behind a 32-bit bus, the debug module in the zero page. -/
def oneHart : Params 1 := { selectableHarts := 1, dmBaseAddress := 0 }

/-- A DMI write. -/
def dmiWrite (addr : BitVec 7) (data : BitVec 32) : Input 1 32 :=
  { dmiReqValidI := true, dmiReqI := ⟨addr, DTM_WRITE, data⟩ }

/-- A store of the hart. -/
def hartStore (addr data : BitVec 32) : Input 1 32 :=
  { busI := { reqI := true, weI := true, addrI := addr, wdataI := data, beI := 15 } }

/-- The debugger asks the halted hart to resume and, in the next cycle, for a register: the resume is
    under way when the command arrives, and the command is neither executed nor refused. -/
theorem request_dropped : ¬ EveryRequest oneHart (Answered oneHart) (reset 0)
    [dmiWrite 0x10 1, hartStore 0x100 0, dmiWrite 0x10 0x40000001, dmiWrite 0x17 0x00221000, {}] := by
  decide

end RiscDbgUart.DebugModule
