/-
  The transfers of the system bus host.

  Three accesses start a transfer: a write to `SBData0`, a write to `SBAddress0` under `sbreadonaddr`
  and a read of `SBData0` under `sbreadondata`.  A transfer has no registers of its own, so what is on
  the bus is right because the debugger cannot touch the registers while the host is busy: an access
  that could is refused, in every cycle up to and including the one with the answer.

  The requests are accounted for: what has been asked for is what the bus has granted, in order, and the
  one request that is on the bus.

  `transfer_law` is the account of a cycle and `transfers_exact` its sum over a run, next to two facts
  about single cycles: the end of a transfer advances the address (`advances`), and an access that is
  refused does nothing else than set the error (`refused_only`).
-/
import RiscDbgUart.SystemBus

set_option linter.unusedVariables false

namespace RiscDbgUart.SystemBus

open Clocked
open DmSba (SbaState)

variable {n w : Nat}

/-! ## What is asked for and what the bus grants -/

inductive Transfer (w : Nat) where
  | read (add : BitVec w)
  | write (add : BitVec w) (word : BitVec 32)
deriving DecidableEq, Repr

/-- The accepted access reads `SBData0` and is not refused. -/
def readsSbData0 (s : State n) (i : Input n w) : Bool :=
  DmRegs.reads s.csrs (csrsIn s i) && DmRegs.dmCsrAddr (csrsIn s i) == .sbData0 &&
    !DmRegs.sbBlocked s.csrs (csrsIn s i)

/-- The accepted access writes the bus register and is not refused. -/
def writesSb (s : State n) (i : Input n w) (c : DmCsr) : Bool :=
  DmRegs.overwritesSb s.csrs (csrsIn s i) c

/-- The transfer that the cycle's access asks for, with the address there is behind the access. -/
def triggered (p : BitVec n) (s : State n) (i : Input n w) : List (Transfer w) :=
  let add := sbaddress w (next p s i).csrs.regs
  if writesSb s i .sbData0 then [.write add i.dmiReqI.data]
  else if writesSb s i .sbAddress0 && s.csrs.regs.sbcs.sbreadonaddr then [.read add]
  else if readsSbData0 s i && s.csrs.regs.sbcs.sbreadondata then [.read add]
  else []

/-- The request on the port. -/
def request (w : Nat) (s : State n) : Transfer w :=
  if masterWeO s then .write (masterAddO w s) ((masterWdataO w s).setWidth 32)
  else .read (masterAddO w s)

/-- The transfer that the bus grants in the cycle. -/
def performed (s : State n) (i : Input n w) : List (Transfer w) :=
  if granted w s i then [request w s] else []

/-- The transfer that is waiting for its grant. -/
def onBus (w : Nat) (s : State n) : List (Transfer w) :=
  if masterReqO w s then [request w s] else []

/-- The access accepted in the cycle is refused because the host is busy or `sbbusyerror` is set. -/
def refused (s : State n) (i : Input n w) : Bool := DmRegs.refusedSb s.csrs (csrsIn s i)

/-- The cycle without its DMI access. -/
def quiet (i : Input n w) : Input n w := { i with dmiReqValidI := false }

/-- A transfer ends: the host gets the answer it waits for. -/
def completes (s : State n) (i : Input n w) : Bool := waits s && i.masterRValidI

/-- The end of a transfer advances the address by the width of the bus if `sbautoincrement` is set, and
    nothing else does anything to the address of a busy host; nor does `sbautoincrement` change under
    it. -/
def Advances (p : BitVec n) (s : State n) (i : Input n w) : Prop :=
  s.sba ≠ .Idle →
    sbaddress w (next p s i).csrs.regs
      = sbaddress w s.csrs.regs
        + (if completes s i && s.csrs.regs.sbcs.sbautoincrement then BitVec.ofNat w (w / 8)
          else 0) ∧
    (next p s i).csrs.regs.sbcs.sbautoincrement = s.csrs.regs.sbcs.sbautoincrement

/-- A refused access sets `sbbusyerror`; apart from that the cycle does what it does without it. -/
def RefusedOnly (p : BitVec n) (s : State n) (i : Input n w) : Prop :=
  refused s i = true →
    (next p s i).csrs.regs
      = { (next p s (quiet i)).csrs.regs with
          sbcs := { (next p s (quiet i)).csrs.regs.sbcs with sbbusyerror := true } } ∧
    (next p s i).sba = (next p s (quiet i)).sba

section Cycle

variable {p : BitVec n} {s : State n} {i : Input n w}

/-! ## Refused accesses -/

theorem refused_only (hact : dmactiveO s = true) : RefusedOnly p s i := by
  intro href
  have hwith : DmRegs.csrReadWrite s.csrs (csrsIn s i)
      = DmRegs.overrides s.csrs (csrsIn s i)
          (DmRegs.sbBusyError (DmRegs.defaults s.csrs (csrsIn s i))) :=
    DmRegs.csrReadWrite_refused s.csrs (csrsIn s i) href
  have hwithout : DmRegs.csrReadWrite s.csrs (csrsIn s (quiet i))
      = DmRegs.overrides s.csrs (csrsIn s i) (DmRegs.defaults s.csrs (csrsIn s i)) :=
    DmRegs.csrReadWrite_quiet s.csrs (csrsIn s (quiet i)) rfl
  constructor
  · rw [regs_active p i hact, regs_active p (quiet i) hact, hwith, hwithout]
    rfl
  · have hin : sbaIn s i = sbaIn s (quiet i) := by
      unfold sbaIn
      rw [hwith, hwithout]
      rfl
    show DmSba.next s.sba (sbaIn s i) = DmSba.next s.sba (sbaIn s (quiet i))
    rw [hin]

/-! ## The end of a transfer -/

/-- While the host is busy `sbcs` keeps what decides about the transfers. -/
theorem sbautoincrement_busy (hact : dmactiveO s = true) (hb : s.sba ≠ .Idle) :
    (next p s i).csrs.regs.sbcs.sbautoincrement = s.csrs.regs.sbcs.sbautoincrement := by
  have hbusy : (csrsIn s i).sbbusyI = true := bne_iff_ne.mpr hb
  rw [regs_active p i hact]
  show (DmRegs.csrReadWrite s.csrs (csrsIn s i)).d.sbcs.sbautoincrement = _
  rw [DmRegs.sbcs_d]
  unfold DmRegs.sbcsOverrides
  show (if _ then _ else _ : Sbcs).sbautoincrement = _
  split_ifs with href hwr
  · rfl
  · -- a write to `sbcs` is among the refused accesses
    rw [Bool.and_eq_true, beq_iff_eq] at hwr
    unfold DmRegs.refusedSb at href
    rw [hwr.2, hwr.1, hbusy] at href
    exact absurd rfl href
  · rfl

theorem advances (hw : w = 32 ∨ w = 64) (hact : dmactiveO s = true)
    (hsize : s.sba ≠ .Idle → s.csrs.regs.sbcs.sbaccess = busSize w) : Advances p s i := by
  intro hb
  refine ⟨?_, sbautoincrement_busy hact hb⟩
  have hinc : (1#w <<< (sbaIn s i).sbaccessI.toNat) = BitVec.ofNat w (w / 8) := by
    show (1#w <<< s.csrs.regs.sbcs.sbaccess.toNat) = _
    rw [hsize hb]
    rcases hw with rfl | rfl
    · rfl
    · rfl
  rw [sbaddress_busy (by omega) hact hb, DmSba.sbaddressO_eq, hinc]
  rfl

/-! ## The account -/

theorem onBus_read (h : Inv w s) (hs : s.sba = .Read) :
    onBus w s = [.read (sbaddress w s.csrs.regs)] := by
  unfold onBus request masterWeO DmSba.masterWeO
  rw [masterReqO_eq h, hs]
  rfl

theorem onBus_write (h : Inv w s) (hs : s.sba = .Write) :
    onBus w s = [.write (sbaddress w s.csrs.regs) ((sbdata w s.csrs.regs).setWidth 32)] := by
  unfold onBus request masterWeO DmSba.masterWeO
  rw [masterReqO_eq h, hs]
  rfl

/-- A host that requests nothing has nothing on the bus. -/
theorem onBus_none (h : masterReqO w s = false) : onBus w s = [] := by
  unfold onBus
  rw [h]
  rfl

/-- A busy host is asked for nothing: what would ask for a transfer is refused. -/
theorem triggered_busy (hb : s.sba ≠ .Idle) : triggered p s i = [] := by
  have hbusy : (csrsIn s i).sbbusyI = true := bne_iff_ne.mpr hb
  have hread : readsSbData0 s i = false := by
    unfold readsSbData0 DmRegs.sbBlocked
    rw [hbusy, Bool.true_or, Bool.not_true, Bool.and_false]
  unfold triggered writesSb
  rw [overwritesSb_busy _ hb, overwritesSb_busy _ hb, hread]
  rfl

/-- What an idle host is pulsed with: the accesses there are, none of them being held back by an
    error. -/
theorem starts_eq (h : Inv w s) :
    DmSba.starts (sbaIn s i)
      = if readsSbData0 s i && s.csrs.regs.sbcs.sbreadondata then .Read
        else if writesSb s i .sbData0 then .Write
        else if writesSb s i .sbAddress0 && s.csrs.regs.sbcs.sbreadonaddr then .Read
        else .Idle := by
  have herr : (s.csrs.regs.sbcs.sberror == 0) = true := beq_iff_eq.mpr h.sberror
  have hread : (sbaIn s i).sbdataReadValidI = readsSbData0 s i := by
    show (DmRegs.csrReadWrite s.csrs (csrsIn s i)).sbdataReadValidO = _
    rw [DmRegs.sbdataReadValidO_eq, herr, Bool.and_true]
    rfl
  have hdata : (sbaIn s i).sbdataWriteValidI = writesSb s i .sbData0 := by
    show (DmRegs.csrReadWrite s.csrs (csrsIn s i)).sbdataWriteValidO = _
    rw [DmRegs.sbdataWriteValidO_eq, herr, Bool.and_true]
    rfl
  have haddr : (sbaIn s i).sbaddressWriteValidI = writesSb s i .sbAddress0 := by
    show (DmRegs.csrReadWrite s.csrs (csrsIn s i)).sbaddressWriteValidO = _
    rw [DmRegs.sbaddressWriteValidO_eq, herr, Bool.and_true]
    rfl
  unfold DmSba.starts
  rw [hread, hdata, haddr]
  rfl

/-- An access that writes is not one that reads. -/
theorem readsSbData0_of_writes {c : DmCsr} (h : writesSb s i c = true) :
    readsSbData0 s i = false := by
  unfold writesSb DmRegs.overwritesSb at h
  rw [Bool.and_eq_true, Bool.and_eq_true] at h
  unfold readsSbData0
  rcases DmRegs.access_cases s.csrs (csrsIn s i) with ⟨-, hr, -⟩ | ⟨hw, -, -⟩ | ⟨hw, -, -⟩
  · rw [hr]
    rfl
  · rw [hw] at h
    exact absurd h.1.1 Bool.false_ne_true
  · rw [hw] at h
    exact absurd h.1.1 Bool.false_ne_true

/-- The data register after a cycle in which the bus does not answer. -/
theorem sbdata_quiet (hact : dmactiveO s = true) (hv : i.masterRValidI = false) :
    (next p s i).csrs.regs.sbdata
      = if writesSb s i .sbData0 then setWord s.csrs.regs.sbdata 0 i.dmiReqI.data
        else if writesSb s i .sbData1 then setWord s.csrs.regs.sbdata 1 i.dmiReqI.data
        else s.csrs.regs.sbdata := by
  have hval : (csrsIn s i).sbdataValidI = false := hv
  rw [regs_active p i hact]
  show (DmRegs.csrReadWrite s.csrs (csrsIn s i)).d.sbdata = _
  rw [DmRegs.sbdata_d, hval]
  rfl

/-- The word written to `SBData0` is the lower half of the data register. -/
theorem sbdata_written (hw : 32 ≤ w) (hact : dmactiveO s = true) (hv : i.masterRValidI = false)
    (hwr : writesSb s i .sbData0 = true) :
    (sbdata w (next p s i).csrs.regs).setWidth 32 = i.dmiReqI.data := by
  unfold sbdata
  rw [sbdata_quiet hact hv, hwr, if_pos rfl, BitVec.setWidth_setWidth_of_le _ hw, getWord_zero,
    getWord_setWord _ _ _ (by omega)]
  rfl

/-- An idle host puts on the bus what it is asked for. -/
theorem triggered_idle (hw : w = 32 ∨ w = 64) (h : Inv w s) (hact : dmactiveO s = true)
    (hs : s.sba = .Idle) (hv : i.masterRValidI = false) :
    triggered p s i = onBus w (next p s i) := by
  have hnext := inv_next (p := p) (i := i) h
  have hsba : (next p s i).sba = DmSba.starts (sbaIn s i) := sba_idle h hs
  rw [starts_eq h] at hsba
  unfold triggered
  cases hwr : writesSb s i .sbData0
  · rw [hwr] at hsba
    simp only [Bool.false_eq_true, if_false] at hsba ⊢
    split_ifs at hsba ⊢
    · rw [onBus_read hnext hsba]
    · rw [onBus_read hnext hsba]
    · rw [onBus_read hnext hsba]
    · rw [onBus_none]
      rw [masterReqO_eq hnext, hsba]
      rfl
  · rw [hwr, readsSbData0_of_writes hwr] at hsba
    rw [onBus_write hnext hsba, sbdata_written (by omega) hact hv hwr]
    rfl

/-- A request that is not granted is on the bus in the next cycle too. -/
theorem onBus_held (hw : w ≤ 64) (h : Inv w s) (hact : dmactiveO s = true)
    (hreq : masterReqO w s = true) (hgnt : i.masterGntI = false) (hv : i.masterRValidI = false) :
    onBus w (next p s i) = onBus w s := by
  obtain ⟨hadd, hdata⟩ := registers_held (p := p) hw h hact hreq hv
  unfold onBus
  rw [masterReqO_held h hreq hgnt, hreq]
  unfold request masterWeO masterAddO masterWdataO DmSba.masterAddO DmSba.masterWdataO portIn
    sbaInWith sbdata
  rw [sba_held h hreq hgnt, hadd, hdata]

/-- Nothing is on the bus behind a cycle in which the host waits. -/
theorem onBus_waits (h : Inv w s) (hw : waits s = true) : onBus w (next p s i) = [] := by
  have hsba := sba_waits (p := p) (i := i) h hw
  have hnext := inv_next (p := p) (i := i) h
  apply onBus_none
  cases hv : i.masterRValidI
  · rw [hv, if_neg Bool.false_ne_true] at hsba
    rw [masterReqO_eq hnext, hsba, ← masterReqO_eq h]
    exact masterReqO_waiting h hw
  · rw [hv, if_pos rfl] at hsba
    rw [masterReqO_eq hnext, hsba]
    rfl

/-- **The account of a cycle.**  What was on the bus and what is asked for is what is granted and what
    is on the bus then. -/
theorem transfer_law (hw : w = 32 ∨ w = 64) (h : Inv w s) (hact : dmactiveO s = true)
    (hv : waits s = false → i.masterRValidI = false) :
    onBus w s ++ triggered p s i = performed s i ++ onBus w (next p s i) := by
  unfold performed granted
  cases hreq : masterReqO w s
  · rw [onBus_none hreq, Bool.false_and, List.nil_append]
    by_cases hidle : s.sba = .Idle
    · exact triggered_idle hw h hact hidle (hv (waits_idle hidle))
    · rw [triggered_busy hidle, onBus_waits h (waits_of_busy h hidle hreq)]
      rfl
  · rw [triggered_busy (busy_of_request h hreq), List.append_nil, Bool.true_and]
    cases hgnt : i.masterGntI
    · rw [onBus_held (by omega) h hact hreq hgnt (hv (waits_of_request h hreq))]
      rfl
    · rw [onBus_none (masterReqO_waiting (inv_next h) (waits_granted h hreq hgnt)), onBus, hreq]
      rfl

end Cycle

/-! ## Whole runs -/

/-- The invariant of an active module: the bus owes an answer exactly while the host waits for one, and
    a host that is busy uses the width of the bus. -/
structure Active (w : Nat) (c : Nat × State n) : Prop where
  inv : Inv w c.2
  owed : Owed c
  size : c.2.sba ≠ .Idle → c.2.csrs.regs.sbcs.sbaccess = busSize w

theorem active_next {p : BitVec n} (c : Nat × State n) (i : Input n w) (h : Active w c)
    (hc : dmactiveO c.2 = true ∧ Behaves c i) : Active w (watched (next p) owes c i) :=
  ⟨inv_next h.inv, owed_next h.inv h.owed hc.2, fun _ => sbaccess_active hc.1⟩

/-- **The bus performs exactly the transfers that are asked for.**  From any state a run from reset
    leads to, with the host idle and no answer owed, and as long as the module is active: the requests
    the bus grants are the triggering accesses, one each and in order, with the address there is behind
    the access and the word it writes, but for the one that is waiting for its grant; each end of a
    transfer advances the address, and a refused access sets `sbbusyerror` only. -/
theorem transfers_exact (hw : w = 32 ∨ w = 64) (p : BitVec n) (pre is : List (Input n w))
    (hidle : (run (next p) reset pre).sba = .Idle)
    (hact : Always (next p) (fun s _ => dmactiveO s = true) (run (next p) reset pre) is)
    (hbus : Always (watched (next p) owes) Behaves (0, run (next p) reset pre) is) :
    emitted (next p) (triggered p) (run (next p) reset pre) is
      = emitted (next p) performed (run (next p) reset pre) is
        ++ onBus w (run (next p) (run (next p) reset pre) is) ∧
    Always (next p) (Advances p) (run (next p) reset pre) is ∧
    Always (next p) (RefusedOnly p) (run (next p) reset pre) is := by
  -- the run before leaves the host idle, so nothing is on its way
  have hstart : Active w (0, run (next p) reset pre) := by
    refine ⟨run_of_step_free (fun s i => inv_next) pre reset inv_reset, ?_, ?_⟩
    · show 0 = if waits (run (next p) reset pre) then 1 else 0
      rw [waits_idle hidle]
      rfl
    · intro hb
      exact absurd hidle hb
  have hcond : Always (watched (next p) owes)
      (fun c i => dmactiveO c.2 = true ∧ Behaves c i) (0, run (next p) reset pre) is :=
    always_and is _
      ((always_watched (next p) owes (fun s _ => dmactiveO s = true) is (0, _)).mpr hact) hbus
  refine ⟨?_, ?_, ?_⟩
  · -- the conservation law of a cycle, summed over the run
    have hlaw := emitted_conserved (Active w) (fun c i => triggered p c.2 i)
      (fun c i => performed c.2 i) (fun c => onBus w c.2) active_next
      (fun c i h hc => transfer_law hw h.inv hc.1 (silent_of_owed h.owed hc.2)) is _ hstart hcond
    have hnone : onBus w (run (next p) reset pre) = [] := by
      apply onBus_none
      rw [masterReqO_eq hstart.inv, hidle]
      rfl
    rw [emitted_watched, emitted_watched, run_watched, hnone, List.nil_append] at hlaw
    exact hlaw
  · refine (always_watched (next p) owes (Advances p) is (0, _)).mp ?_
    exact always_of_step (Active w) _ _ active_next
      (fun c i h hc => advances hw hc.1 h.size) is _ hstart hcond
  · refine (always_watched (next p) owes (RefusedOnly p) is (0, _)).mp ?_
    exact always_of_step (Active w) _ _ active_next
      (fun c i h hc => refused_only hc.1) is _ hstart hcond

/-- Two writes with auto-increment; the second is refused, since the bus has not answered the first. -/
def twoWrites : List (Input 1 32) :=
  [dmiWrite 0x38 0x00010000, dmiWrite 0x39 0x100, dmiWrite 0x3c 5, {}, { masterGntI := true },
    dmiWrite 0x3c 6, { masterRValidI := true }, {}]

theorem transfers_exact_two_writes :
    emitted (next 1) (triggered 1) (run (next 1) reset [dmiWrite 0x10 1]) twoWrites
      = emitted (next 1) performed (run (next 1) reset [dmiWrite 0x10 1]) twoWrites
        ++ onBus 32 (run (next 1) (run (next 1) reset [dmiWrite 0x10 1]) twoWrites) ∧
    Always (next 1) (Advances 1) (run (next 1) reset [dmiWrite 0x10 1]) twoWrites ∧
    Always (next 1) (RefusedOnly 1) (run (next 1) reset [dmiWrite 0x10 1]) twoWrites :=
  transfers_exact (Or.inl rfl) 1 [dmiWrite 0x10 1] twoWrites (by decide) (by decide) (by decide)

end RiscDbgUart.SystemBus
