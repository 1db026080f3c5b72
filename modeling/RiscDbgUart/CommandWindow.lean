/-
  The arguments of an abstract command while it is under way.

  A command reads its word, the program buffer and the data registers until the hart has halted again,
  so the debugger must not change them in between: the registers refuse the access and record the busy
  error.  What decides is `cmdbusy`, and `cmdbusy` is low in the cycle in which the command is launched.
  In `Go` and `CmdExecuting` the arguments are frozen; in the launching cycle they are exactly when the
  access accepted there changes none of them and owes no error.

  `frozen_busy` settles the cycles in `Go` and `CmdExecuting`, with no condition.  `frozen_launching` is about
  the launching cycle, in which the same access would be taken: the equivalence names the accesses that do
  no harm (`Harmless`).
-/
import RiscDbgUart.CommandRequests

set_option linter.unusedVariables false

namespace RiscDbgUart.DebugModule

open Clocked
open DmMem (Params Access CtrlState)

variable {n w : Nat}

/-! ## The window -/

/-- The command handed over in this cycle takes the state machine from `Idle` to `Go`. -/
def launching (p : Params n) (s : State n) (i : Input n w) : Prop :=
  s.mem.state = .Idle ∧ s.csrs.regs.cmdValid = true ∧ (next p s i).mem.state = .Go

/-- From the cycle that launches a command until the state machine is idle again. -/
def underWay (p : Params n) (s : State n) (i : Input n w) : Prop :=
  launching p s i ∨ s.mem.state = .Go ∨ s.mem.state = .CmdExecuting

/-- The accepted access writes a command argument, or reads a data or program buffer word. -/
def touches (p : Params n) (s : State n) (i : Input n w) : Bool :=
  DmRegs.guarded s.csrs (csrsIn p s i) && DmRegs.dmCsrAddr (csrsIn p s i) != .abstractCS

/-- The hart stores to the data registers. -/
def dataValid (s : State n) (i : Input n w) : Bool := DmMem.dataValidO (memInWith false s i)

/-- The hart reports an error. -/
def cmderrorValid (p : Params n) (s : State n) (i : Input n w) : Bool :=
  DmMem.cmderrorValidO p s.mem (memInWith false s i)

/-- The hart reports an exception. -/
def exception (s : State n) (i : Input n w) : Bool := DmMem.exception (memInWith false s i)

/-- No argument changes in the cycle except by a hart's store to the data registers, and an access that
    touches one leaves the busy error unless an error is recorded or reported. -/
def Frozen (p : Params n) (s : State n) (i : Input n w) : Prop :=
  (next p s i).csrs.regs.command = s.csrs.regs.command ∧
  (next p s i).csrs.regs.progbuf = s.csrs.regs.progbuf ∧
  (next p s i).csrs.regs.abstractauto = s.csrs.regs.abstractauto ∧
  (dataValid s i = false → (next p s i).csrs.regs.data = s.csrs.regs.data) ∧
  (touches p s i = true → s.csrs.regs.cmderr = CmdErrNone → cmderrorValid p s i = false →
    (next p s i).csrs.regs.cmderr = CmdErrBusy)

/-- The access accepted in this cycle writes nothing but what is there already, and if it touches an
    argument then an error is recorded, or the hart reports an exception in the same cycle.  These are the
    accesses that would leave the same behind if the launching cycle were busy. -/
def Harmless (p : Params n) (s : State n) (i : Input n w) : Prop :=
  (touches p s i = true → s.csrs.regs.cmderr ≠ CmdErrNone ∨ exception s i = true) ∧
  (DmRegs.writes s.csrs (csrsIn p s i) = true →
    match DmRegs.dmCsrAddr (csrsIn p s i) with
    | .command => Command.ofWord i.dmiReqI.data = s.csrs.regs.command
    | .progBuf k => setWord s.csrs.regs.progbuf k i.dmiReqI.data = s.csrs.regs.progbuf
    | .abstractAuto => DmRegs.writtenAuto i.dmiReqI.data = s.csrs.regs.abstractauto
    | .data k =>
      dataValid s i = false → setWord s.csrs.regs.data k i.dmiReqI.data = s.csrs.regs.data
    | _ => True)

instance (p : Params n) (s : State n) (i : Input n w) : Decidable (launching p s i) := by
  unfold launching; infer_instance

instance (p : Params n) (s : State n) (i : Input n w) : Decidable (underWay p s i) := by
  unfold underWay; infer_instance

instance (p : Params n) (s : State n) (i : Input n w) : Decidable (Frozen p s i) := by
  unfold Frozen; infer_instance

/-! ## Busy cycles -/

/-- While the state machine is busy no access overwrites a register that it guards. -/
theorem overwrites_busy {p : Params n} {s : State n} (i : Input n w) (c : DmCsr)
    (h : s.mem.state ≠ .Idle) : DmRegs.overwrites s.csrs (csrsIn p s i) c = false := by
  have hbusy : (csrsIn p s i).cmdbusyI = true := by
    show (s.mem.state != .Idle) = true
    rw [bne_iff_ne]
    exact h
  unfold DmRegs.overwrites
  rw [hbusy, Bool.not_true, Bool.and_false]

/-- `abstractauto` has no reserved bit set. -/
def AutoClean (s : State n) : Prop := s.csrs.regs.abstractauto.zero0 = 0

theorem autoClean_next (p : Params n) (s : State n) (i : Input n w) (h : AutoClean s) :
    AutoClean (next p s i) := by
  unfold AutoClean
  by_cases hact : dmactiveO s = true
  · rw [regs_next p i hact, DmRegs.abstractauto_d]
    split_ifs
    · rfl
    · rfl
  · show (DmRegs.nextRegs p.selectableHarts s.csrs (csrsIn p s i)).abstractauto.zero0 = 0
    rw [DmRegs.nextRegs_inactive _ _ _ (Bool.eq_false_iff.mpr hact)]
    rfl

/-- Writing `abstractauto`'s wired bits does not change it, since they are zero already. -/
theorem auto_kept {s : State n} (h : AutoClean s) :
    { s.csrs.regs.abstractauto with zero0 := 0 } = s.csrs.regs.abstractauto := by
  unfold AutoClean at h
  rw [← h]

/-- **Busy cycles freeze.**  The registers a command depends on are guarded, and a refused access changes
    nothing but the error. -/
theorem frozen_busy {p : Params n} {s : State n} (i : Input n w) (hact : dmactiveO s = true)
    (hclean : AutoClean s) (h : s.mem.state ≠ .Idle) : Frozen p s i := by
  -- a busy machine says so, and every overwrite asks for it
  have hbusy : (csrsIn p s i).cmdbusyI = true := by
    show (s.mem.state != .Idle) = true
    rw [bne_iff_ne]
    exact h
  unfold Frozen
  rw [regs_next p i hact]
  refine ⟨?_, ?_, ?_, ?_, ?_⟩
  · rw [DmRegs.command_d, overwrites_busy i _ h]
    rfl
  · show (DmRegs.csrReadWrite s.csrs (csrsIn p s i)).d.progbuf = _
    rw [DmRegs.progbuf_d]
    split
    · rw [overwrites_busy i _ h]
      rfl
    · rfl
  · rw [DmRegs.abstractauto_d, overwrites_busy i _ h]
    exact auto_kept hclean
  · -- `data` changes by the hart as well, which the hypothesis excludes
    intro hv
    have hv' : (csrsIn p s i).dataValidI = false := hv
    show (DmRegs.csrReadWrite s.csrs (csrsIn p s i)).d.data = _
    rw [DmRegs.data_d, hv']
    simp only [Bool.false_eq_true, if_false]
    split
    · rw [overwrites_busy i _ h]
      rfl
    · rfl
  · intro htouch hnone herr
    have herr' : (csrsIn p s i).cmderrorValidI = false := herr
    unfold touches at htouch
    rw [Bool.and_eq_true] at htouch
    rw [DmRegs.cmderr_d, herr']
    unfold DmRegs.accessErr
    rw [htouch.1, hbusy, hnone]
    rfl

/-! ## The launching cycle -/

/-- In the launching cycle the only error there can be is an exception. -/
theorem cmderrorValid_launching {p : Params n} {s : State n} {i : Input n w}
    (h : launching p s i) : cmderrorValid p s i = exception s i := by
  obtain ⟨hidle, hv, hgo⟩ := h
  obtain ⟨-, hhalt, hsup, -⟩ := (launched p i hv).mp ⟨hidle, hgo⟩
  have hcmd : (memInWith false s i).cmdValidI = true := hv
  have hsup' : DmMem.unsupported p (memInWith false s i) = false := hsup
  have hhalt' : DmMem.selectedHalted s.mem (memInWith false s i) = true := hhalt
  unfold cmderrorValid DmMem.cmderrorValidO DmMem.haltResumeError
  rw [hcmd, hsup', hhalt']
  cases hs : (s.mem.state == .Idle) <;> rfl

/-- Nothing is refused in the launching cycle, so an access that owes an error leaves `cmderr` as it
    was. -/
theorem error_launching {p : Params n} {s : State n} {i : Input n w} (h : launching p s i) :
    (touches p s i = true → s.csrs.regs.cmderr = CmdErrNone → cmderrorValid p s i = false →
      (DmRegs.csrReadWrite s.csrs (csrsIn p s i)).d.cmderr = CmdErrBusy) ↔
    (touches p s i = true → s.csrs.regs.cmderr ≠ CmdErrNone ∨ exception s i = true) := by
  have hbusy : (csrsIn p s i).cmdbusyI = false := by
    show (s.mem.state != .Idle) = false
    rw [h.1]
    rfl
  have herr : (csrsIn p s i).cmderrorValidI = exception s i := cmderrorValid_launching h
  refine imp_congr_right fun htouch => ?_
  rw [cmderrorValid_launching h]
  constructor
  · intro hbusyErr
    by_contra hno
    push Not at hno
    obtain ⟨hnone, hexc⟩ := hno
    have hno : exception s i = false := Bool.eq_false_iff.mpr hexc
    have hd := hbusyErr hnone hno
    -- the access is not one to `AbstractCS`, so it leaves `cmderr` alone
    have hcs : DmRegs.overwrites s.csrs (csrsIn p s i) .abstractCS = false := by
      unfold touches at htouch
      rw [Bool.and_eq_true, bne_iff_ne] at htouch
      unfold DmRegs.overwrites
      rw [beq_eq_false_iff_ne.mpr htouch.2, Bool.and_false, Bool.false_and]
    rw [DmRegs.cmderr_d, herr, hno] at hd
    unfold DmRegs.accessErr at hd
    rw [hbusy, hcs, hnone] at hd
    simp at hd
  · rintro (hne | hexc) hnone hno
    · exact absurd hnone hne
    · rw [hexc] at hno
      cases hno

/-- The launching cycle freezes the arguments exactly when its access is harmless. -/
theorem frozen_launching {p : Params n} {s : State n} {i : Input n w} (hact : dmactiveO s = true)
    (hclean : AutoClean s) (h : launching p s i) : Frozen p s i ↔ Harmless p s i := by
  have hbusy : (csrsIn p s i).cmdbusyI = false := by
    show (s.mem.state != .Idle) = false
    rw [h.1]
    rfl
  have hv : (csrsIn p s i).dataValidI = dataValid s i := rfl
  have hx : (csrsIn p s i).dmiReqI.data = i.dmiReqI.data := rfl
  unfold Frozen Harmless
  rw [regs_next p i hact]
  show (DmRegs.csrReadWrite s.csrs (csrsIn p s i)).d.command = _ ∧
    (DmRegs.csrReadWrite s.csrs (csrsIn p s i)).d.progbuf = _ ∧
    (DmRegs.csrReadWrite s.csrs (csrsIn p s i)).d.abstractauto = _ ∧
    (_ → (DmRegs.csrReadWrite s.csrs (csrsIn p s i)).d.data = _) ∧
    (_ → _ → _ → (DmRegs.csrReadWrite s.csrs (csrsIn p s i)).d.cmderr = _) ↔ _
  rw [error_launching h, DmRegs.command_d, DmRegs.progbuf_d, DmRegs.abstractauto_d, DmRegs.data_d,
    hv, hx, auto_kept hclean]
  unfold DmRegs.overwrites
  rw [hbusy]
  -- what is left is which register the access writes
  cases DmRegs.writes s.csrs (csrsIn p s i)
  · cases DmRegs.dmCsrAddr (csrsIn p s i) <;> simp +contextual
  · cases DmRegs.dmCsrAddr (csrsIn p s i) with
    | data _ => cases dataValid s i <;> simp [and_comm]
    | _ => simp +contextual [and_comm]

/-! ## Whole runs -/

/-- **The arguments are frozen, exactly.**  Along every run from reset no argument changes and every
    access that touches one leaves the busy error, in all cycles in which a command is under way, if
    and only if the accesses accepted in the launching cycles are harmless. -/
theorem arguments_frozen_iff (p : Params n) (romAddr : Nat) (is : List (Input n w)) :
    Always (next p) (fun s i => dmactiveO s = true → underWay p s i → Frozen p s i)
      (reset romAddr) is ↔
    Always (next p) (fun s i => dmactiveO s = true → launching p s i → Harmless p s i)
      (reset romAddr) is := by
  refine always_congr AutoClean (autoClean_next p) ?_ is (reset romAddr) rfl
  intro s i hclean
  refine imp_congr_right fun hact => ?_
  constructor
  · intro hfrozen hl
    exact (frozen_launching hact hclean hl).mp (hfrozen (Or.inl hl))
  · rintro hharmless (hl | hgo | hexec)
    · exact (frozen_launching hact hclean hl).mpr (hharmless hl)
    · exact frozen_busy i hact hclean (by rw [hgo]; decide)
    · exact frozen_busy i hact hclean (by rw [hexec]; decide)

/-- The debugger writes `Command` and, in the next cycle, a data register: the command is launched in
    that cycle and the data register changes under it, with no error. -/
theorem argument_changed : ¬ Always (next oneHart)
    (fun s i => dmactiveO s = true → underWay oneHart s i → Frozen oneHart s i) (reset 0)
    [dmiWrite 0x10 1, hartStore 0x100 0, dmiWrite 0x17 0x00221000, dmiWrite 0x04 5] := by
  decide

end RiscDbgUart.DebugModule
