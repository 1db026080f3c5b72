/-
  What `dm_csrs` answers.

  The word an accepted request puts on the response queue is that of the register it reads, and zero
  for everything else.  A read that comes while the system bus holds back its data registers is
  answered with zero too.

  `readWord` is the table of the registers as a function, and `respQueueData_eq` says that the `case` of the
  source computes it.  With it a statement about what a debugger reads needs no branch of the source.
-/
import RiscDbgUart.DmRegs

set_option linter.unusedVariables false

namespace RiscDbgUart

/-- The registers of the system bus host. -/
def DmCsr.ofBus : DmCsr → Bool
  | .sbcs | .sbAddress0 | .sbAddress1 | .sbData0 | .sbData1 => true
  | _ => false

namespace DmRegs

variable {n w : Nat} (s : State n) (i : Input n w)

/-- The word a read of the register gets. -/
def readWord (c : DmCsr) : BitVec 32 :=
  match c with
  | .data k => getWord s.regs.data k
  | .dmControl => s.regs.dmcontrol.toWord
  | .dmStatus => dmstatus s.regs i
  | .hartinfo => getWord i.hartinfoI (selectedHart s.regs)
  | .abstractCS => abstractcs s.regs i
  | .abstractAuto => s.regs.abstractauto.toWord
  | .progBuf k => getWord s.regs.progbuf k
  | .haltSum0 => haltsum0 i.haltedI (hartselO s.regs)
  | .haltSum1 => haltsum1 i.haltedI (hartselO s.regs)
  | .haltSum2 => haltsum2 i.haltedI (hartselO s.regs)
  | .haltSum3 => haltsum3 i.haltedI
  | .sbcs => s.regs.sbcs.toWord
  | .sbAddress0 => getWord s.regs.sbaddr 0
  | .sbAddress1 => getWord s.regs.sbaddr 1
  | .sbData0 => if sbBlocked s i then 0 else getWord s.regs.sbdata 0
  | .sbData1 => if sbBlocked s i then 0 else getWord s.regs.sbdata 1
  | .command | .other => 0

/-- The word on the response queue. -/
theorem respQueueData_eq : (csrReadWrite s i).respQueueData
    = if reads s i then readWord s i (dmCsrAddr i) else 0 := by
  have hwrite : (write s i (defaults s i)).respQueueData = 0 := by
    rw [write_eq]
    rfl
  have hread : (read s i (defaults s i)).respQueueData = readWord s i (dmCsrAddr i) := by
    unfold read readWord sbBlocked
    simp only [busyError_eq]
    cases dmCsrAddr i with
    | data _ | progBuf _ => cases i.cmdbusyI <;> rfl
    | sbData0 | sbData1 => cases i.sbbusyI <;> cases s.regs.sbcs.sbbusyerror <;> rfl
    | _ => rfl
  rcases access_cases s i with ⟨hw, hr, h⟩ | ⟨hw, hr, h⟩ | ⟨hw, hr, h⟩
  · rw [h, hr]
    exact hwrite
  · rw [h, hr]
    exact hread
  · rw [h, hr]
    rfl

end DmRegs

end RiscDbgUart
