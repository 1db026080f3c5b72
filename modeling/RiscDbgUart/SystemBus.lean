/-
  `dm_top.sv`: the registers (`dm_csrs`) and the system bus host (`dm_sba`) of the debug module, wired.

  The address register is a loop: it goes out to the host and comes back, possibly incremented, in the
  same cycle.  Again this is no circle, since what the host hands back does not depend on the three
  pulses by which an access starts a transfer.  The harts' side (`dm_mem`) is not part of this; its
  outputs are inputs here and can do anything.

  The bus behind the host answers each granted request with one `r_valid` in a later cycle, after any
  delay, and grants requests when it likes.  A checker counts the answers it owes.

  The module is in four parts:

  * what a cycle does to the registers of the bus, by activity of the module (`regs_active`,
    `regs_inactive`) and by state of the host (`sbaddress_busy`, `sbdata_busy`);
  * where the host is, read off its state: it requests, or waits for an answer, or neither
    (`requests_iff`, `waits_iff`), and how it gets from one to the other (`sba_idle`, `sba_held`,
    `sba_waits`);
  * a request that is not granted stays as it is, registers included (`registers_held`);
  * the answers: a bus that answers what it owes is never heard while nothing is waited for
    (`silent_of_owed`).
-/
import RiscDbgUart.Clocked.Machine
import RiscDbgUart.DmRegs
import RiscDbgUart.DmSba

set_option linter.unusedVariables false

namespace RiscDbgUart.SystemBus

open Clocked
open DmSba (SbaState)

/-! ## The wiring -/

structure State (n : Nat) where
  csrs : DmRegs.State n
  sba : SbaState
deriving DecidableEq, Repr

/-- The request channel and the response ready of the DMI, the answers of the bus, and everything that
    comes from the harts' side. -/
structure Input (n w : Nat) where
  dmiReqValidI : Bool := false
  dmiReqI : DmiReq := ⟨0, 0, 0⟩
  dmiRespReadyI : Bool := true
  masterGntI : Bool := false
  masterRValidI : Bool := false
  masterRRdataI : BitVec w := 0
  hartinfoI : BitVec (32 * n) := 0
  haltedI : BitVec n := 0
  unavailableI : BitVec n := 0
  resumeackI : BitVec n := 0
  cmderrorValidI : Bool := false
  cmderrorI : CmdErr := 0
  cmdbusyI : Bool := false
  dataI : BitVec 64 := 0
  dataValidI : Bool := false

variable {n w : Nat}

/-- `sbaddress_o` of the registers. -/
def sbaddress (w : Nat) (r : DmRegs.Regs n) : BitVec w := r.sbaddr.setWidth w
/-- `sbdata_o` of the registers. -/
def sbdata (w : Nat) (r : DmRegs.Regs n) : BitVec w := r.sbdata.setWidth w

/-- What the host sees, the three pulses being given.  They are parameters because the registers need the
    host's outputs before they can say what the pulses are. -/
def sbaInWith (sbaddressWrite sbdataRead sbdataWrite : Bool) (s : State n) (i : Input n w) :
    DmSba.Input w :=
  { masterGntI := i.masterGntI
    masterRValidI := i.masterRValidI
    masterRRdataI := i.masterRRdataI
    sbaddressI := sbaddress w s.csrs.regs
    sbaddressWriteValidI := sbaddressWrite
    sbreadonaddrI := s.csrs.regs.sbcs.sbreadonaddr
    sbautoincrementI := s.csrs.regs.sbcs.sbautoincrement
    sbaccessI := s.csrs.regs.sbcs.sbaccess
    sbreadondataI := s.csrs.regs.sbcs.sbreadondata
    sbdataI := sbdata w s.csrs.regs
    sbdataReadValidI := sbdataRead
    sbdataWriteValidI := sbdataWrite }

/-- What the registers see.  Nothing here reads the pulses, so any will do; `false` is put in for them. -/
def csrsIn (s : State n) (i : Input n w) : DmRegs.Input n w :=
  let b := sbaInWith false false false s i
  { dmiReqValidI := i.dmiReqValidI
    dmiReqI := i.dmiReqI
    dmiRespReadyI := i.dmiRespReadyI
    hartinfoI := i.hartinfoI
    haltedI := i.haltedI
    unavailableI := i.unavailableI
    resumeackI := i.resumeackI
    cmderrorValidI := i.cmderrorValidI
    cmderrorI := i.cmderrorI
    cmdbusyI := i.cmdbusyI
    dataI := i.dataI
    dataValidI := i.dataValidI
    sbaddressI := DmSba.sbaddressO s.sba b
    sbdataI := DmSba.sbdataO b
    sbdataValidI := DmSba.sbdataValidO b
    sbbusyI := DmSba.sbbusyO s.sba
    sberrorValidI := DmSba.sberrorValidO s.sba b
    sberrorI := DmSba.sberrorO s.sba b }

def sbaIn (s : State n) (i : Input n w) : DmSba.Input w :=
  let r := DmRegs.csrReadWrite s.csrs (csrsIn s i)
  sbaInWith r.sbaddressWriteValidO r.sbdataReadValidO r.sbdataWriteValidO s i

def reset : State n := { csrs := DmRegs.reset, sba := .Idle }

def next (selectableHarts : BitVec n) (s : State n) (i : Input n w) : State n :=
  { csrs := DmRegs.next selectableHarts s.csrs (csrsIn s i)
    sba := DmSba.next s.sba (sbaIn s i) }

/-- A DMI write behind a 32-bit bus. -/
def dmiWrite (addr : BitVec 7) (data : BitVec 32) : Input 1 32 :=
  { dmiReqValidI := true, dmiReqI := ⟨addr, DTM_WRITE, data⟩ }

/-- `dmactive_o` -/
def dmactiveO (s : State n) : Bool := s.csrs.regs.dmcontrol.dmactive

/-! ## The port

  The host drives its port from the state machine and the registers: the inputs of the cycle have no
  say in it. -/

/-- The part of the host's inputs that comes from registers. -/
def portIn (w : Nat) (s : State n) : DmSba.Input w := sbaInWith false false false s ({} : Input n w)

/-- `master_req_o` -/
def masterReqO (w : Nat) (s : State n) : Bool := DmSba.masterReqO s.sba (portIn w s)
/-- `master_add_o` -/
def masterAddO (w : Nat) (s : State n) : BitVec w := DmSba.masterAddO (portIn w s)
/-- `master_we_o` -/
def masterWeO (s : State n) : Bool := DmSba.masterWeO s.sba
/-- `master_be_o` -/
def masterBeO (w : Nat) (readByteEnable : Bool) (s : State n) : BitVec (w / 8) :=
  DmSba.masterBeO readByteEnable s.sba (portIn w s)
/-- `master_wdata_o` -/
def masterWdataO (w : Nat) (s : State n) : BitVec w := DmSba.masterWdataO (portIn w s)

/-- A request is granted: the host may let go of it. -/
def granted (w : Nat) (s : State n) (i : Input n w) : Bool := masterReqO w s && i.masterGntI

/-! ## The bus -/

/-- The answers the bus owes after the cycle. -/
def owes (k : Nat) (s : State n) (i : Input n w) : Nat :=
  k + (if granted w s i then 1 else 0) - (if i.masterRValidI then 1 else 0)

/-- The bus answers what it owes from earlier cycles only. -/
def Behaves (c : Nat × State n) (i : Input n w) : Prop := i.masterRValidI = true → 0 < c.1

instance (c : Nat × State n) (i : Input n w) : Decidable (Behaves c i) := by
  unfold Behaves; infer_instance

/-- The host is waiting for an answer. -/
def waits (s : State n) : Bool := s.sba == .WaitRead || s.sba == .WaitWrite

/-! ## What a cycle does to the bus registers -/

section Cycle

variable {p : BitVec n} {s : State n} {i : Input n w}

/-- The access size that is wired: that of the bus. -/
def busSize (w : Nat) : BitVec 3 := if w = 64 then 3 else 2

theorem busSize_le (w : Nat) : busSize w ≤ 3 := by
  unfold busSize
  split_ifs
  · decide
  · decide

/-- The bus registers hold no error, and an access size that is wired or that of a reset. -/
structure Inv (w : Nat) (s : State n) : Prop where
  sberror : s.csrs.regs.sbcs.sberror = 0
  sbaccess : s.csrs.regs.sbcs.sbaccess = busSize w ∨ s.csrs.regs.sbcs.sbaccess = 0

theorem Inv.sbaccess_le (h : Inv w s) : s.csrs.regs.sbcs.sbaccess ≤ 3 := by
  rcases h.sbaccess with hsize | hsize
  · rw [hsize]
    exact busSize_le w
  · rw [hsize]
    decide

/-- The registers of an active module: what the access and the overrides leave, with the `havereset` bits
    of the selectable harts. -/
theorem regs_active (p : BitVec n) (i : Input n w) (hact : dmactiveO s = true) :
    (next p s i).csrs.regs
      = { (DmRegs.csrReadWrite s.csrs (csrsIn s i)).d with
          havereset := p &&& (DmRegs.csrReadWrite s.csrs (csrsIn s i)).d.havereset } :=
  DmRegs.nextRegs_active s.csrs (csrsIn s i) p hact

/-- The registers of an inactive module are those of the reset, but for `dmactive` and
    `havereset`. -/
theorem regs_inactive (p : BitVec n) (i : Input n w) (hact : dmactiveO s = false) :
    (next p s i).csrs.regs
      = { (DmRegs.resetRegs : DmRegs.Regs n) with
          dmcontrol :=
            { DmRegs.DmControl0 with
              dmactive := (DmRegs.csrReadWrite s.csrs (csrsIn s i)).d.dmcontrol.dmactive }
          havereset := p &&& (DmRegs.csrReadWrite s.csrs (csrsIn s i)).d.havereset } :=
  DmRegs.nextRegs_inactive s.csrs (csrsIn s i) p hact

theorem sbaccess_active (hact : dmactiveO s = true) :
    (next p s i).csrs.regs.sbcs.sbaccess = busSize w := by
  rw [regs_active p i hact]
  show (DmRegs.csrReadWrite s.csrs (csrsIn s i)).d.sbcs.sbaccess = _
  rw [DmRegs.sbcs_d]
  rfl

theorem inv_next (h : Inv w s) : Inv w (next p s i) := by
  cases hact : dmactiveO s
  · constructor
    · -- an inactive module clears the register, and with it the error
      rw [regs_inactive p i hact]
      rfl
    · right
      rw [regs_inactive p i hact]
      rfl
  · constructor
    · rw [regs_active p i hact]
      show (DmRegs.csrReadWrite s.csrs (csrsIn s i)).d.sbcs.sberror = _
      rw [DmRegs.sbcs_d]
      -- an access of at most the width is no bad access, so the host raises no error
      have hno : (csrsIn s i).sberrorValidI = false := DmSba.badAccess_of_le h.sbaccess_le
      unfold DmRegs.sbcsOverrides DmRegs.writtenSbcs
      rw [hno]
      show (if _ then _ else _ : Sbcs).sberror = 0
      split_ifs
      · exact h.sberror
      · rw [h.sberror]
        exact BitVec.zero_and
      · exact h.sberror
    · exact Or.inl (sbaccess_active hact)

theorem inv_reset : Inv w (reset : State n) := ⟨rfl, Or.inr rfl⟩

/-- The state machine's step. -/
theorem sba_next (h : Inv w s) : (next p s i).sba = DmSba.transferD s.sba (sbaIn s i) :=
  DmSba.next_of_le h.sbaccess_le

theorem masterReqO_eq (h : Inv w s) :
    masterReqO w s = (s.sba == .Read || s.sba == .Write) := by
  have hgood : DmSba.badAccess s.sba (portIn w s) = false := DmSba.badAccess_of_le h.sbaccess_le
  unfold masterReqO DmSba.masterReqO
  rw [hgood, Bool.not_false, Bool.and_true]

/-- While the host is busy no access overwrites a register it uses, as such an access sets `sbbusyerror`
    instead. -/
theorem overwritesSb_busy (c : DmCsr) (hb : s.sba ≠ .Idle) :
    DmRegs.overwritesSb s.csrs (csrsIn s i) c = false := by
  have hbusy : (csrsIn s i).sbbusyI = true := bne_iff_ne.mpr hb
  unfold DmRegs.overwritesSb DmRegs.sbBlocked
  rw [hbusy, Bool.true_or, Bool.not_true, Bool.and_false]

/-- The address of a busy host is what the host makes of it. -/
theorem sbaddress_busy (hw : w ≤ 64) (hact : dmactiveO s = true) (hb : s.sba ≠ .Idle) :
    sbaddress w (next p s i).csrs.regs = DmSba.sbaddressO s.sba (sbaIn s i) := by
  rw [regs_active p i hact]
  show (DmRegs.csrReadWrite s.csrs (csrsIn s i)).d.sbaddr.setWidth w = _
  rw [DmRegs.sbaddr_d, overwritesSb_busy _ hb, overwritesSb_busy _ hb]
  exact BitVec.setWidth_setWidth_of_le _ hw |>.trans (BitVec.setWidth_eq _)

/-- The data of a busy host is what it was, or the answer of the bus. -/
theorem sbdata_busy (hact : dmactiveO s = true) (hb : s.sba ≠ .Idle) :
    (next p s i).csrs.regs.sbdata
      = if i.masterRValidI then i.masterRRdataI.setWidth 64 else s.csrs.regs.sbdata := by
  rw [regs_active p i hact]
  show (DmRegs.csrReadWrite s.csrs (csrsIn s i)).d.sbdata = _
  rw [DmRegs.sbdata_d, overwritesSb_busy _ hb, overwritesSb_busy _ hb]
  rfl

/-! ## Where the host is -/

/-- A host with a request on the bus is in one of two states. -/
theorem requests_iff (h : Inv w s) : masterReqO w s = true ↔ s.sba = .Read ∨ s.sba = .Write := by
  rw [masterReqO_eq h, Bool.or_eq_true, beq_iff_eq, beq_iff_eq]

theorem waits_iff : waits s = true ↔ s.sba = .WaitRead ∨ s.sba = .WaitWrite := by
  unfold waits
  rw [Bool.or_eq_true, beq_iff_eq, beq_iff_eq]

/-- An idle host waits for nothing. -/
theorem waits_idle (hs : s.sba = .Idle) : waits s = false := by
  unfold waits
  rw [hs]
  rfl

theorem busy_of_waits (hw : waits s = true) : s.sba ≠ .Idle := by
  intro hs
  rw [waits_idle hs] at hw
  cases hw

theorem busy_of_request (h : Inv w s) (hreq : masterReqO w s = true) : s.sba ≠ .Idle := by
  rcases (requests_iff h).mp hreq with hs | hs
  · rw [hs]
    decide
  · rw [hs]
    decide

theorem waits_of_request (h : Inv w s) (hreq : masterReqO w s = true) : waits s = false := by
  unfold waits
  rcases (requests_iff h).mp hreq with hs | hs
  · rw [hs]
    rfl
  · rw [hs]
    rfl

/-- A busy host without a request waits for an answer: there is no third thing for it to do. -/
theorem waits_of_busy (h : Inv w s) (hb : s.sba ≠ .Idle) (hreq : masterReqO w s = false) :
    waits s = true := by
  rw [masterReqO_eq h] at hreq
  unfold waits
  cases hs : s.sba
  · exact absurd hs hb
  · rw [hs] at hreq
    cases hreq
  · rw [hs] at hreq
    cases hreq
  · rfl
  · rfl

/-- The bus answers a host that waits only, which is what the checker's account comes to. -/
theorem waits_of_answer (hv : waits s = false → i.masterRValidI = false)
    (hval : i.masterRValidI = true) : waits s = true := by
  by_contra hno
  rw [hv (Bool.eq_false_iff.mpr hno)] at hval
  cases hval

/-- A host that is waiting requests nothing, so there is one transfer at a time. -/
theorem masterReqO_waiting (h : Inv w s) (hw : waits s = true) : masterReqO w s = false := by
  rw [masterReqO_eq h]
  rcases waits_iff.mp hw with hs | hs
  · rw [hs]
    rfl
  · rw [hs]
    rfl

/-- An idle host starts what it is pulsed with. -/
theorem sba_idle (h : Inv w s) (hs : s.sba = .Idle) :
    (next p s i).sba = DmSba.starts (sbaIn s i) := by
  rw [sba_next h, hs, DmSba.transferD_idle]

/-- The answer makes a waiting host idle, and nothing else does. -/
theorem sba_waits (h : Inv w s) (hw : waits s = true) :
    (next p s i).sba = if i.masterRValidI then .Idle else s.sba := by
  rw [sba_next h, DmSba.transferD_waits (waits_iff.mp hw)]
  rfl

/-- The grant makes a requesting host wait, for a read or a write as it was. -/
theorem sba_request (h : Inv w s) (hreq : masterReqO w s = true) :
    (next p s i).sba
      = if i.masterGntI then (if s.sba = .Read then .WaitRead else .WaitWrite) else s.sba := by
  rw [sba_next h, DmSba.transferD_request ((requests_iff h).mp hreq)]
  rfl

theorem waits_granted (h : Inv w s) (hreq : masterReqO w s = true) (hgnt : i.masterGntI = true) :
    waits (next p s i) = true := by
  rw [waits_iff, sba_request h hreq, hgnt, if_pos rfl]
  split_ifs
  · exact Or.inl rfl
  · exact Or.inr rfl

/-! ## A request that is not granted -/

/-- The state machine does not let go of the request before the grant. -/
theorem sba_held (h : Inv w s) (hreq : masterReqO w s = true) (hgnt : i.masterGntI = false) :
    (next p s i).sba = s.sba := by
  rw [sba_request h hreq, hgnt]
  rfl

/-- The request stays on the bus until it is granted, whatever happens to the registers. -/
theorem masterReqO_held (h : Inv w s) (hreq : masterReqO w s = true) (hgnt : i.masterGntI = false) :
    masterReqO w (next p s i) = true := by
  rw [masterReqO_eq (inv_next h), sba_held h hreq hgnt, ← masterReqO_eq h]
  exact hreq

/-- While the module is active its registers do not change under the request. -/
theorem registers_held (hw : w ≤ 64) (h : Inv w s) (hact : dmactiveO s = true)
    (hreq : masterReqO w s = true) (hv : i.masterRValidI = false) :
    sbaddress w (next p s i).csrs.regs = sbaddress w s.csrs.regs ∧
      (next p s i).csrs.regs.sbdata = s.csrs.regs.sbdata := by
  have hb := busy_of_request h hreq
  have hstay : (sbaIn s i).masterRValidI = false := hv
  constructor
  · rw [sbaddress_busy hw hact hb, DmSba.sbaddressO_eq, hstay, Bool.and_false, Bool.false_and]
    exact BitVec.add_zero _
  · rw [sbdata_busy hact hb, hv]
    rfl

/-! ## The answers the bus owes -/

/-- One answer is owed while the host waits, and none otherwise. -/
def Owed (c : Nat × State n) : Prop := c.1 = if waits c.2 then 1 else 0

/-- Without an answer owed there is none, since the bus answers what it owes and no more. -/
theorem silent_of_owed {c : Nat × State n} (ho : Owed c) (hb : Behaves c i)
    (hno : waits c.2 = false) : i.masterRValidI = false := by
  unfold Owed at ho
  rw [hno] at ho
  cases hv : i.masterRValidI
  · rfl
  · have hpos : 0 < c.1 := hb hv
    rw [ho] at hpos
    cases hpos

/-- A granted request is waited for, until the answer is there. -/
theorem waits_next (h : Inv w s) :
    waits (next p s i) = (granted w s i || (waits s && !i.masterRValidI)) := by
  unfold granted
  cases hreq : masterReqO w s
  · -- no request: an idle host may start one, a host that waits goes on until the answer
    by_cases hidle : s.sba = .Idle
    · rw [waits_idle hidle, waits, sba_idle h hidle]
      rcases DmSba.starts_cases (sbaIn s i) with hst | hst | hst
      · rw [hst]
        rfl
      · rw [hst]
        rfl
      · rw [hst]
        rfl
    · have hw : waits s = true := waits_of_busy h hidle hreq
      have hsba := sba_waits (p := p) (i := i) h hw
      rw [hw]
      cases hv : i.masterRValidI
      · rw [hv, if_neg Bool.false_ne_true] at hsba
        rw [waits, hsba]
        exact hw
      · rw [hv, if_pos rfl] at hsba
        exact waits_idle hsba
  · -- a request: it stays up until the grant
    rw [waits_of_request h hreq]
    cases hgnt : i.masterGntI
    · rw [waits, sba_held h hreq hgnt]
      exact waits_of_request h hreq
    · exact waits_granted h hreq hgnt

theorem granted_waiting (h : Inv w s) (hw : waits s = true) : granted w s i = false := by
  unfold granted
  rw [masterReqO_waiting h hw]
  rfl

theorem owed_next {c : Nat × State n} (hinv : Inv w c.2) (ho : Owed c) (hb : Behaves c i) :
    Owed (watched (next p) (owes (w := w)) c i) := by
  unfold Owed at ho ⊢
  rw [watched_snd, waits_next hinv]
  show owes c.1 c.2 i = _
  unfold owes
  rw [ho]
  cases hw : waits c.2
  · rw [silent_of_owed ho hb hw]
    cases granted w c.2 i <;> rfl
  · rw [granted_waiting hinv hw]
    cases i.masterRValidI <;> rfl

end Cycle

end RiscDbgUart.SystemBus
