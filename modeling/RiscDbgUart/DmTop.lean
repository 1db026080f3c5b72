/-
  `dm_top.sv`: the whole debug module, registers (`dm_csrs`), harts' side (`dm_mem`) and system bus host
  (`dm_sba`).

  The registers stand between the two others, which do not see each other: what `dm_mem` needs comes
  from `dm_csrs` and the harts' bus, what `dm_sba` needs from `dm_csrs` and the system bus.  So the module
  has two components that overlap in the registers, `DebugModule` without the host and `SystemBus`
  without the harts, and in every run of the whole each of them runs as it would with its other inputs
  coming from anywhere.

  The three blocks read combinational outputs of each other in the same cycle.  There is no circle in
  it, and the wiring here is written down in an order in which every output is there when it is read:

  * `sbaIn0`     — the outputs of the host that the registers see do not depend on the pulses that the
                   registers send it, so they are computed with the pulses low;
  * `hartSideIn` — with them, the registers and the harts' side are the pair of `DebugModule`;
  * `csrsIn`     — the pins of the registers, the same from either side (`csrsIn_bus`);
  * `busSideIn`  — what is left for the host, which now gets the pulses.

  What is proved about `DebugModule` for all outputs of a host, and about `SystemBus` for all outputs of
  the harts' side, is carried to the whole by `hartSide_component` and `busSide_component`.
-/
import RiscDbgUart.Clocked.Component
import RiscDbgUart.DebugModule
import RiscDbgUart.DmAnswers
import RiscDbgUart.SystemBus

set_option linter.unusedVariables false

namespace RiscDbgUart.DmTop

open Clocked
open DmMem (Params Access)
open DmSba (SbaState)

/-! ## The wiring -/

/-- The registers of the three blocks. -/
structure State (n : Nat) where
  csrs : DmRegs.State n
  mem : DmMem.State n
  sba : SbaState
deriving DecidableEq, Repr

/-- The pins on the side of the debugger. -/
structure Dmi where
  reqValidI : Bool := false
  reqI : DmiReq := ⟨0, 0, 0⟩
  respReadyI : Bool := true

/-- The pins on the side of the harts. -/
structure Harts (n w : Nat) where
  busI : Access w := {}
  hartinfoI : BitVec (32 * n) := 0
  unavailableI : BitVec n := 0

/-- The answers of the system bus. -/
structure Master (w : Nat) where
  gntI : Bool := false
  rValidI : Bool := false
  rRdataI : BitVec w := 0

/-- All pins of `dm_top` that are inputs, grouped by the side that drives them.  The reset is not a pin
    here: `reset` is the state behind it. -/
structure Input (n w : Nat) where
  dmi : Dmi := {}
  harts : Harts n w := {}
  master : Master w := {}

variable {n w : Nat}

/-- `dm_csrs` and `dm_mem`, the part of the module that has to do with the harts. -/
def hartSide (s : State n) : DebugModule.State n := ⟨s.csrs, s.mem⟩

/-- `dm_csrs` and `dm_sba`, the part of the module that has to do with the system bus. -/
def busSide (s : State n) : SystemBus.State n := ⟨s.csrs, s.sba⟩

/-- The pins of `dm_sba`, as far as they do not depend on the three pulses by which the registers start a
    transfer.  None of the outputs that go back to the registers looks at the pulses. -/
def sbaIn0 (s : State n) (i : Input n w) : DmSba.Input w :=
  SystemBus.sbaInWith false false false (busSide s)
    { masterGntI := i.master.gntI
      masterRValidI := i.master.rValidI
      masterRRdataI := i.master.rRdataI }

/-- What the registers and the harts' side get to see together: the DMI, the harts, and the outputs of the
    host. -/
def hartSideIn (s : State n) (i : Input n w) : DebugModule.Input n w :=
  { dmiReqValidI := i.dmi.reqValidI
    dmiReqI := i.dmi.reqI
    dmiRespReadyI := i.dmi.respReadyI
    busI := i.harts.busI
    hartinfoI := i.harts.hartinfoI
    unavailableI := i.harts.unavailableI
    sbaddressI := DmSba.sbaddressO s.sba (sbaIn0 s i)
    sbdataI := DmSba.sbdataO (sbaIn0 s i)
    sbdataValidI := DmSba.sbdataValidO (sbaIn0 s i)
    sbbusyI := DmSba.sbbusyO s.sba
    sberrorValidI := DmSba.sberrorValidO s.sba (sbaIn0 s i)
    sberrorI := DmSba.sberrorO s.sba (sbaIn0 s i) }

/-- The pins of `dm_csrs`. -/
def csrsIn (p : Params n) (s : State n) (i : Input n w) : DmRegs.Input n w :=
  DebugModule.csrsIn p (hartSide s) (hartSideIn s i)

/-- What the registers and the bus host get to see together. -/
def busSideIn (p : Params n) (s : State n) (i : Input n w) : SystemBus.Input n w :=
  { dmiReqValidI := i.dmi.reqValidI
    dmiReqI := i.dmi.reqI
    dmiRespReadyI := i.dmi.respReadyI
    masterGntI := i.master.gntI
    masterRValidI := i.master.rValidI
    masterRRdataI := i.master.rRdataI
    hartinfoI := i.harts.hartinfoI
    haltedI := s.mem.halted
    unavailableI := i.harts.unavailableI
    resumeackI := s.mem.resuming
    cmderrorValidI := (csrsIn p s i).cmderrorValidI
    cmderrorI := (csrsIn p s i).cmderrorI
    cmdbusyI := DmMem.cmdbusyO s.mem
    dataI := (csrsIn p s i).dataI
    dataValidI := (csrsIn p s i).dataValidI }

def reset (romAddr : Nat) : State n :=
  { csrs := DmRegs.reset, mem := DmMem.reset romAddr, sba := .Idle }

def next (p : Params n) (s : State n) (i : Input n w) : State n :=
  { csrs := DmRegs.next p.selectableHarts s.csrs (csrsIn p s i)
    mem := DmMem.next p s.mem (DebugModule.memIn p (hartSide s) (hartSideIn s i))
    sba := DmSba.next s.sba (SystemBus.sbaIn (busSide s) (busSideIn p s i)) }

/-! ## The two sides are components -/

/-- Both sides see the registers with the same pins. -/
theorem csrsIn_bus (p : Params n) (s : State n) (i : Input n w) :
    SystemBus.csrsIn (busSide s) (busSideIn p s i) = csrsIn p s i := rfl

theorem hartSide_component (p : Params n) :
    Component (next p) (DebugModule.next p) hartSide (hartSideIn (w := w)) :=
  fun _ _ => rfl

theorem busSide_component (p : Params n) :
    Component (next p) (SystemBus.next p.selectableHarts) busSide (busSideIn (w := w) p) :=
  fun _ _ => rfl

/-! ## The answers on the DMI -/

/-- A request is accepted. -/
def accepts (s : State n) (i : Input n w) : Bool :=
  DmCsrs.dmiReqReadyO s.csrs.queue && i.dmi.reqValidI

/-- The accepted request to one of the registers, with the word that goes to the response queue
    for it.  The queue is a FIFO, so the words come out in the order of the requests. -/
def answered (registers : DmCsr → Bool) (p : Params n) (s : State n) (i : Input n w) :
    List (DmiReq × BitVec 32) :=
  if accepts s i && registers (DmCsr.ofAddr i.dmi.reqI.addr) then
    [(i.dmi.reqI, (DmRegs.csrReadWrite s.csrs (csrsIn p s i)).respQueueData)]
  else []

end RiscDbgUart.DmTop
