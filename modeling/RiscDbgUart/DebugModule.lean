/-
  `dm_top.sv`: the registers (`dm_csrs`) and the harts' side (`dm_mem`) of the debug module, wired.

  Each block reads combinational outputs of the other in the same cycle, but again not in a circle:
  the error, the busy flag and the hart's data that the registers see do not depend on the one signal
  that comes back, `clear_resumeack`.  So `csrsIn` computes the first with that signal low, and `memIn`
  gets its value from the registers afterwards.

  The system bus block is not part of this; its outputs are inputs here and can do anything.  What is
  proved of this pair therefore holds next to any host of the system bus, and `DmTop` puts the one of the
  repository there.
-/
import RiscDbgUart.Clocked.Machine
import RiscDbgUart.DmMem

set_option linter.unusedVariables false

namespace RiscDbgUart.DebugModule

open DmMem (Params Access CtrlState)

/-- The registers of the two blocks. -/
structure State (n : Nat) where
  csrs : DmRegs.State n
  mem : DmMem.State n
deriving DecidableEq, Repr

/-- The request channel and the response ready of the DMI, the harts' bus, and everything that comes
    from elsewhere. -/
structure Input (n w : Nat) where
  dmiReqValidI : Bool := false
  dmiReqI : DmiReq := ⟨0, 0, 0⟩
  dmiRespReadyI : Bool := true
  busI : Access w := {}
  hartinfoI : BitVec (32 * n) := 0
  unavailableI : BitVec n := 0
  sbaddressI : BitVec w := 0
  sbdataI : BitVec w := 0
  sbdataValidI : Bool := false
  sbbusyI : Bool := false
  sberrorValidI : Bool := false
  sberrorI : BitVec 3 := 0

variable {n w : Nat}

/-- What the harts' side sees, `clear_resumeack` being given.  All the rest comes from the registers as they
    are before the clock edge, or from the harts. -/
def memInWith (clearResumeack : Bool) (s : State n) (i : Input n w) : DmMem.Input n w :=
  { hartselI := DmRegs.hartselO s.csrs.regs
    haltreqI := DmRegs.haltreqO s.csrs.regs
    resumereqI := DmRegs.resumereqO s.csrs.regs
    clearResumeackI := clearResumeack
    progbufI := s.csrs.regs.progbuf
    dataI := s.csrs.regs.data
    cmdValidI := s.csrs.regs.cmdValid
    cmdI := s.csrs.regs.command
    busI := i.busI }

/-- What the registers see.  Nothing here reads `clear_resumeack_i`. -/
def csrsIn (p : Params n) (s : State n) (i : Input n w) : DmRegs.Input n w :=
  let m := memInWith false s i
  { dmiReqValidI := i.dmiReqValidI
    dmiReqI := i.dmiReqI
    dmiRespReadyI := i.dmiRespReadyI
    hartinfoI := i.hartinfoI
    haltedI := s.mem.halted
    unavailableI := i.unavailableI
    resumeackI := s.mem.resuming
    cmderrorValidI := DmMem.cmderrorValidO p s.mem m
    cmderrorI := DmMem.cmderrorO p s.mem m
    cmdbusyI := DmMem.cmdbusyO s.mem
    dataI := DmMem.dataO m
    dataValidI := DmMem.dataValidO m
    sbaddressI := i.sbaddressI
    sbdataI := i.sbdataI
    sbdataValidI := i.sbdataValidI
    sbbusyI := i.sbbusyI
    sberrorValidI := i.sberrorValidI
    sberrorI := i.sberrorI }

/-- What the harts' side sees in a cycle: `clear_resumeack` is what `csr_read_write` makes of the access of
    this cycle. -/
def memIn (p : Params n) (s : State n) (i : Input n w) : DmMem.Input n w :=
  memInWith (DmRegs.csrReadWrite s.csrs (csrsIn p s i)).clearResumeackO s i

def reset (romAddr : Nat) : State n := { csrs := DmRegs.reset, mem := DmMem.reset romAddr }

def next (p : Params n) (s : State n) (i : Input n w) : State n :=
  { csrs := DmRegs.next p.selectableHarts s.csrs (csrsIn p s i)
    mem := DmMem.next p s.mem (memIn p s i) }

/-- `dmactive_o`: the debugger has activated the module.  While it has not, the registers are held at their
    reset values. -/
def dmactiveO (s : State n) : Bool := s.csrs.regs.dmcontrol.dmactive

/-- The registers of an active module. -/
theorem regs_next (p : Params n) {s : State n} (i : Input n w) (hact : dmactiveO s = true) :
    (next p s i).csrs.regs
      = { (DmRegs.csrReadWrite s.csrs (csrsIn p s i)).d with
          havereset :=
            p.selectableHarts &&& (DmRegs.csrReadWrite s.csrs (csrsIn p s i)).d.havereset } :=
  DmRegs.nextRegs_active s.csrs (csrsIn p s i) p.selectableHarts hact

end RiscDbgUart.DebugModule
