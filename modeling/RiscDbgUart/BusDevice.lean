/-
  What the debugger sees of the system bus.

  A transfer takes its time: the request waits for its grant, the bus for the device, and only with the
  answer the address register and the data register of `dm_csrs` move on.  A debugger that waits for
  the host before it touches the bus registers again sees none of this.  To it, an access of a bus
  register IS the transfer: the device behind the bus is asked at once, its answer is in the data
  register and the address is the next one.

  `View` is this object, the registers without a clock and the device next to them.  The device is any
  function on requests with a state of its own, a memory or something that minds being read.  From the
  object follows what block transfers are for: what is written word by word with `sbautoincrement` is
  read back word by word.

  That the registers and the host are this object is a simulation (`view_next`), with the access that is
  under way counted as done at once.  There are two kinds of cycles.  While the host is idle an access moves
  the object by a step (`view_next_idle`), and while it is busy nothing moves but the transfer
  (`view_next_busy`), whose outcome the object has had from the start.  A debugger that does not wait
  (`Patient`) is refused, and none of this holds.
-/
import RiscDbgUart.BusTransfers
import RiscDbgUart.Clocked.Component
import RiscDbgUart.DmAnswers
import RiscDbgUart.HostPort

set_option linter.unusedVariables false

namespace RiscDbgUart.SystemBus

open Clocked
open DmSba (SbaState)

variable {n w : Nat} {σ : Type}

/-! ## The device -/

/-- The request side of the port: address, direction, lanes and data. -/
structure Port (w : Nat) where
  add : BitVec w
  we : Bool
  be : BitVec (w / 8)
  wdata : BitVec w
deriving DecidableEq, Repr

/-- What is behind the bus: it serves one request after the other and answers each, a write too. -/
abbrev Device (σ : Type) (w : Nat) := σ → Port w → σ × BitVec w

/-- The device and the answer that it has ready. -/
structure Served (σ : Type) (w : Nat) where
  dev : σ
  answer : Option (BitVec w)

/-- The host's side of the port. -/
def port (w : Nat) (readByteEnable : Bool) (s : State n) : Port w :=
  ⟨masterAddO w s, masterWeO s, masterBeO w readByteEnable s, masterWdataO w s⟩

/-- A granted request is served, an answer that the bus has delivered is gone. -/
def serve (d : Device σ w) (readByteEnable : Bool) (b : Served σ w) (s : State n) (i : Input n w) :
    Served σ w :=
  if granted w s i then
    let r := d b.dev (port w readByteEnable s)
    ⟨r.1, some r.2⟩
  else if i.masterRValidI then { b with answer := none }
  else b

/-- The bus delivers the device's answers, in whatever cycle it likes. -/
def Delivers (c : Served σ w × State n) (i : Input n w) : Prop :=
  i.masterRValidI = true → c.1.answer = some i.masterRRdataI

instance (c : Served σ w × State n) (i : Input n w) : Decidable (Delivers c i) := by
  unfold Delivers; infer_instance

/-! ## The object -/

/-- An access of a register. -/
inductive Access where
  | read (c : DmCsr)
  | write (c : DmCsr) (x : BitVec 32)
deriving DecidableEq, Repr

/-- The access has to wait for the host: only `sbcs` may be read at any time. -/
def Access.waits : Access → Bool
  | .read c => c.ofBus && c != .sbcs
  | .write c _ => c.ofBus

/-- The bus registers and the device.  This is what the debugger takes the system bus for: three flags that
    say which accesses transfer and whether the address moves on, the two registers, and the device. -/
structure View (σ : Type) (w : Nat) where
  sbreadonaddr : Bool
  sbautoincrement : Bool
  sbreadondata : Bool
  sbaddress : BitVec w
  sbdata : BitVec 64
  dev : σ

namespace View

/-- The request there is for the device. -/
def port (readByteEnable we : Bool) (v : View σ w) : Port w :=
  ⟨v.sbaddress, we, if we || readByteEnable then BitVec.allOnes (w / 8) else 0, v.sbdata.setWidth w⟩

/-- The answer is there: its data are in the register, and the address has moved on if it was to. -/
def receive (v : View σ w) (x : BitVec w) : View σ w :=
  { v with
    sbdata := x.setWidth 64
    sbaddress := v.sbaddress + if v.sbautoincrement then BitVec.ofNat w (w / 8) else 0 }

/-- A transfer, `we` telling writes from reads. -/
def transfer (d : Device σ w) (readByteEnable we : Bool) (v : View σ w) : View σ w :=
  let r := d v.dev (v.port readByteEnable we)
  { v with dev := r.1 }.receive r.2

/-- The register that the access writes.  Of `sbcs` it is the three flags that a transfer depends on. -/
def written (v : View σ w) : Access → View σ w
  | .write .sbcs x =>
    { v with
      sbreadonaddr := (Sbcs.ofWord x).sbreadonaddr
      sbautoincrement := (Sbcs.ofWord x).sbautoincrement
      sbreadondata := (Sbcs.ofWord x).sbreadondata }
  | .write .sbAddress0 x => { v with sbaddress := (setWord (v.sbaddress.setWidth 64) 0 x).setWidth w }
  | .write .sbAddress1 x => { v with sbaddress := (setWord (v.sbaddress.setWidth 64) 1 x).setWidth w }
  | .write .sbData0 x => { v with sbdata := setWord v.sbdata 0 x }
  | .write .sbData1 x => { v with sbdata := setWord v.sbdata 1 x }
  | _ => v

/-- The transfer that the access starts, and whether it writes: a write of the data always does, the other
    two only with their flag. -/
def started (v : View σ w) : Access → Option Bool
  | .write .sbData0 _ => some true
  | .write .sbAddress0 _ => if v.sbreadonaddr then some false else none
  | .read .sbData0 => if v.sbreadondata then some false else none
  | _ => none

def access (d : Device σ w) (readByteEnable : Bool) (v : View σ w) (a : Access) : View σ w :=
  match v.started a with
  | some we => (v.written a).transfer d readByteEnable we
  | none => v.written a

/-- The word that a read gets.  The upper half of the address is there on a 64-bit bus only. -/
def answer (v : View σ w) : Access → List (BitVec 32)
  | .read .sbAddress0 => [getWord (v.sbaddress.setWidth 64) 0]
  | .read .sbAddress1 => if w = 64 then [getWord (v.sbaddress.setWidth 64) 1] else []
  | .read .sbData0 => [getWord v.sbdata 0]
  | .read .sbData1 => [getWord v.sbdata 1]
  | _ => []

/-- What need not wait does nothing here: it is about other registers, and a patient debugger may do it at
    any time. -/
theorem access_free {a : Access} (ha : a.waits = false) (d : Device σ w) (readByteEnable : Bool)
    (v : View σ w) : v.access d readByteEnable a = v ∧ v.answer a = [] := by
  cases a with
  | read c =>
    cases c with
    | sbAddress0 | sbAddress1 | sbData0 | sbData1 => cases ha
    | _ => exact ⟨rfl, rfl⟩
  | write c x =>
    cases c with
    | sbcs | sbAddress0 | sbAddress1 | sbData0 | sbData1 => cases ha
    | _ => exact ⟨rfl, rfl⟩

/-- A write gets no word. -/
theorem answer_write (v : View σ w) (r : DmCsr) (x : BitVec 32) : v.answer (.write r x) = [] := by
  cases r <;> rfl

/-- Nor does a sequence of such accesses. -/
theorem run_free (d : Device σ w) (readByteEnable : Bool) (v : View σ w) {as : List Access}
    (has : ∀ a ∈ as, a.waits = false) :
    run (access d readByteEnable) v as = v ∧ emitted (access d readByteEnable) answer v as = [] := by
  induction as with
  | nil => exact ⟨rfl, rfl⟩
  | cons a as ih =>
    obtain ⟨hsame, hnone⟩ := access_free (has a List.mem_cons_self) d readByteEnable v
    obtain ⟨hrun, hrest⟩ := ih fun b hb => has b (List.mem_cons_of_mem a hb)
    rw [run_cons, emitted_cons, hsame, hnone, hrun, hrest]
    exact ⟨rfl, rfl⟩

end View

/-! ## The debugger's side -/

/-- The access that the module accepts in the cycle, with its data if it writes. -/
def accesses (s : State n) (i : Input n w) : List Access :=
  if DmRegs.writes s.csrs (csrsIn s i) then
    [.write (DmRegs.dmCsrAddr (csrsIn s i)) i.dmiReqI.data]
  else if DmRegs.reads s.csrs (csrsIn s i) then [.read (DmRegs.dmCsrAddr (csrsIn s i))]
  else []

theorem accesses_cases (s : State n) (i : Input n w) :
    accesses s i = [] ∨ ∃ a, accesses s i = [a] := by
  unfold accesses
  split_ifs
  · exact Or.inr ⟨_, rfl⟩
  · exact Or.inr ⟨_, rfl⟩
  · exact Or.inl rfl

/-- The registers whose contents `View` has, and which a reader of them therefore gets from the object. -/
def showsView (w : Nat) : DmCsr → Bool
  | .sbAddress0 | .sbData0 | .sbData1 => true
  | .sbAddress1 => w == 64
  | _ => false

/-- The word that goes on the response queue for a read of them. -/
def readings (s : State n) (i : Input n w) : List (BitVec 32) :=
  if DmRegs.reads s.csrs (csrsIn s i) && showsView w (DmRegs.dmCsrAddr (csrsIn s i)) then
    [(DmRegs.csrReadWrite s.csrs (csrsIn s i)).respQueueData]
  else []

/-- The debugger touches the bus registers while the host is idle only. -/
def Patient (s : State n) (i : Input n w) : Prop :=
  s.sba ≠ .Idle → ∀ a ∈ accesses s i, a.waits = false

instance (s : State n) (i : Input n w) : Decidable (Patient s i) := by
  unfold Patient; infer_instance

/-! ## The object behind the registers -/

/-- The registers as they are, a transfer under way not counted. -/
def held (dev : σ) (s : State n) : View σ w :=
  { sbreadonaddr := s.csrs.regs.sbcs.sbreadonaddr
    sbautoincrement := s.csrs.regs.sbcs.sbautoincrement
    sbreadondata := s.csrs.regs.sbcs.sbreadondata
    sbaddress := sbaddress w s.csrs.regs
    sbdata := s.csrs.regs.sbdata
    dev := dev }

/-- The registers as they will be when the transfer is over.  A transfer that has been asked for is counted
    as done, in the state of the device at that moment; nothing can come between, as the device is asked by
    this host alone. -/
def view (d : Device σ w) (readByteEnable : Bool) (c : Served σ w × State n) : View σ w :=
  match c.2.sba with
  | .Idle => held c.1.dev c.2
  | .Read => (held c.1.dev c.2).transfer d readByteEnable false
  | .Write => (held c.1.dev c.2).transfer d readByteEnable true
  | .WaitRead | .WaitWrite => (held c.1.dev c.2).receive (c.1.answer.getD 0)

/-- The state of a host that has just started a transfer. -/
def requesting : Option Bool → SbaState
  | none => .Idle
  | some we => if we then .Write else .Read

/-- The invariant of an active module with a patient debugger: nothing has been refused, and the device
    has an answer ready exactly while the host waits for one. -/
structure Serving (c : Served σ w × State n) : Prop where
  inv : Inv w c.2
  size : c.2.sba ≠ .Idle → c.2.csrs.regs.sbcs.sbaccess = busSize w
  clear : c.2.csrs.regs.sbcs.sbbusyerror = false
  ready : c.1.answer.isSome = waits c.2

section Cycle

variable {p : BitVec n} {s : State n} {i : Input n w} {q : σ}

/-! ## An idle host -/

/-- Nothing holds an access back while the host is idle and nothing has been refused. -/
theorem sbBlocked_idle (hs : s.sba = .Idle) (hclear : s.csrs.regs.sbcs.sbbusyerror = false) :
    DmRegs.sbBlocked s.csrs (csrsIn s i) = false := by
  have hidle : (csrsIn s i).sbbusyI = false := bne_eq_false_iff_eq.mpr hs
  rw [DmRegs.sbBlocked, hidle, hclear]
  rfl

/-- The half of the address that the bus is wide enough for is read as it was written. -/
theorem getWord_address (v : BitVec 64) {j : Nat} (hj : 32 * j + 32 ≤ w) (hw : w ≤ 64) :
    getWord ((v.setWidth w).setWidth 64) j = getWord v j := by
  apply BitVec.eq_of_getLsbD_eq
  intro k hk
  have h64 : 32 * j + k < 64 := by omega
  have hlow : 32 * j + k < w := by omega
  unfold getWord
  rw [BitVec.getLsbD_extractLsb', BitVec.getLsbD_extractLsb', BitVec.getLsbD_setWidth,
    BitVec.getLsbD_setWidth, decide_eq_true h64, decide_eq_true hlow, Bool.true_and, Bool.true_and]

theorem refusedSb_idle (hs : s.sba = .Idle) (hclear : s.csrs.regs.sbcs.sbbusyerror = false) :
    DmRegs.refusedSb s.csrs (csrsIn s i) = false := by
  have hidle : (csrsIn s i).sbbusyI = false := bne_eq_false_iff_eq.mpr hs
  unfold DmRegs.refusedSb
  rw [sbBlocked_idle hs hclear, hidle]
  cases DmRegs.dmCsrAddr (csrsIn s i) with
  | sbcs | sbAddress0 | sbAddress1 | sbData0 | sbData1 => exact Bool.and_false _
  | _ => rfl

/-- A patient debugger is refused nothing: what could be refused it does while the host is idle. -/
theorem refusedSb_patient (hclear : s.csrs.regs.sbcs.sbbusyerror = false) (hp : Patient s i) :
    DmRegs.refusedSb s.csrs (csrsIn s i) = false := by
  by_cases hs : s.sba = .Idle
  · -- an idle host refuses nothing
    exact refusedSb_idle hs hclear
  · -- a busy host would, but the debugger leaves its registers alone
    have hfree := hp hs
    unfold accesses at hfree
    unfold DmRegs.refusedSb
    -- the refusals follow the address, for a write and for a read
    cases hw : DmRegs.writes s.csrs (csrsIn s i)
    · cases hr : DmRegs.reads s.csrs (csrsIn s i)
      · cases DmRegs.dmCsrAddr (csrsIn s i) <;> rfl
      · rw [hw, hr] at hfree
        have hc := hfree _ List.mem_cons_self
        cases haddr : DmRegs.dmCsrAddr (csrsIn s i) with
        -- a read of the data would be refused
        | sbData0 | sbData1 =>
          rw [haddr] at hc
          cases hc
        | _ => rfl
    · rw [hw] at hfree
      have hc := hfree _ List.mem_cons_self
      cases haddr : DmRegs.dmCsrAddr (csrsIn s i) with
      -- and a write to any of the registers
      | sbcs | sbAddress0 | sbAddress1 | sbData0 | sbData1 =>
        rw [haddr] at hc
        cases hc
      | _ => rfl

/-- `sbcs` without a refused access: what a write to it leaves, under the status bits that the host drives. -/
theorem sbcs_next (hact : dmactiveO s = true)
    (hno : DmRegs.refusedSb s.csrs (csrsIn s i) = false) :
    (next p s i).csrs.regs.sbcs
      = DmRegs.sbcsOverrides (csrsIn s i)
          (if DmRegs.writes s.csrs (csrsIn s i) && DmRegs.dmCsrAddr (csrsIn s i) == .sbcs then
            DmRegs.writtenSbcs s.csrs (csrsIn s i)
          else s.csrs.regs.sbcs) := by
  rw [regs_active p i hact]
  show (DmRegs.csrReadWrite s.csrs (csrsIn s i)).d.sbcs = _
  rw [DmRegs.sbcs_d, hno]
  rfl

theorem sbbusyerror_next (hact : dmactiveO s = true)
    (hclear : s.csrs.regs.sbcs.sbbusyerror = false) (hp : Patient s i) :
    (next p s i).csrs.regs.sbcs.sbbusyerror = false := by
  rw [sbcs_next hact (refusedSb_patient hclear hp)]
  show (if _ then _ else _ : Sbcs).sbbusyerror = false
  split_ifs
  · show (s.csrs.regs.sbcs.sbbusyerror && _) = false
    rw [hclear, Bool.false_and]
  · exact hclear

/-- The address of an idle host is what the debugger makes of it. -/
theorem sbaddress_idle (hw : w ≤ 64) (hact : dmactiveO s = true) (hs : s.sba = .Idle) :
    sbaddress w (next p s i).csrs.regs
      = if writesSb s i .sbAddress0 then
          (setWord ((sbaddress w s.csrs.regs).setWidth 64) 0 i.dmiReqI.data).setWidth w
        else if writesSb s i .sbAddress1 then
          (setWord ((sbaddress w s.csrs.regs).setWidth 64) 1 i.dmiReqI.data).setWidth w
        else sbaddress w s.csrs.regs := by
  have hback : (csrsIn s i).sbaddressI = sbaddress w s.csrs.regs := by
    show DmSba.sbaddressO s.sba _ = _
    rw [hs]
    rfl
  rw [regs_active p i hact]
  show (DmRegs.csrReadWrite s.csrs (csrsIn s i)).d.sbaddr.setWidth w = _
  rw [DmRegs.sbaddr_d, hback, apply_ite (BitVec.setWidth w), apply_ite (BitVec.setWidth w),
    BitVec.setWidth_setWidth_of_le _ hw, BitVec.setWidth_eq]
  rfl

/-- The access writes its register and nothing else changes, when no transfer is under way. -/
theorem held_idle (hw : w ≤ 64) (hact : dmactiveO s = true) (hs : s.sba = .Idle)
    (hclear : s.csrs.regs.sbcs.sbbusyerror = false) (hv : i.masterRValidI = false) :
    held q (next p s i) = run View.written (held (w := w) q s) (accesses s i) := by
  unfold held
  rw [sbcs_next hact (refusedSb_idle hs hclear), sbdata_quiet hact hv, sbaddress_idle hw hact hs]
  unfold writesSb DmRegs.overwritesSb accesses
  rw [sbBlocked_idle hs hclear]
  cases DmRegs.writes s.csrs (csrsIn s i)
  · cases DmRegs.reads s.csrs (csrsIn s i) <;> rfl
  · cases DmRegs.dmCsrAddr (csrsIn s i) <;> rfl

/-- A write is no read. -/
theorem reads_of_writes (hwr : DmRegs.writes s.csrs (csrsIn s i) = true) :
    DmRegs.reads s.csrs (csrsIn s i) = false := by
  rcases DmRegs.access_cases s.csrs (csrsIn s i) with ⟨-, hr, -⟩ | ⟨hno, -, -⟩ | ⟨hno, -, -⟩
  · exact hr
  · rw [hwr] at hno
    cases hno
  · rw [hwr] at hno
    cases hno

/-- The host starts what the access asks for, in the cycle of the access. -/
theorem sba_started (h : Inv w s) (hs : s.sba = .Idle)
    (hclear : s.csrs.regs.sbcs.sbbusyerror = false) :
    (next p s i).sba
      = requesting ((accesses s i).head?.bind (held (w := w) q s).started) := by
  rw [sba_idle h hs, starts_eq h]
  unfold readsSbData0 writesSb DmRegs.overwritesSb accesses
  rw [sbBlocked_idle hs hclear]
  generalize DmRegs.dmCsrAddr (csrsIn s i) = c
  cases hw : DmRegs.writes s.csrs (csrsIn s i)
  · -- no write: a read of the data may start the next one
    cases DmRegs.reads s.csrs (csrsIn s i)
    · rfl
    · show _ = requesting ((held q s).started (.read c))
      cases c with
      | sbData0 =>
        show _ = requesting (if s.csrs.regs.sbcs.sbreadondata then some false else none)
        cases s.csrs.regs.sbcs.sbreadondata <;> rfl
      | _ => rfl
  · -- a write: of the data it starts a write, of the address it may start a read
    rw [reads_of_writes hw]
    show _ = requesting ((held q s).started (.write c i.dmiReqI.data))
    cases c with
    | sbAddress0 =>
      show _ = requesting (if s.csrs.regs.sbcs.sbreadonaddr then some false else none)
      cases s.csrs.regs.sbcs.sbreadonaddr <;> rfl
    | _ => rfl

/-- The debugger reads the registers as they are, before the transfer that the reading may start. -/
theorem readings_idle (hw : w = 32 ∨ w = 64) (hs : s.sba = .Idle)
    (hclear : s.csrs.regs.sbcs.sbbusyerror = false) {d : Device σ w} {readByteEnable : Bool} :
    readings s i
      = emitted (View.access d readByteEnable) View.answer (held q s) (accesses s i) := by
  have hlow : 32 * 0 + 32 ≤ w := by omega
  unfold readings accesses
  rw [DmRegs.respQueueData_eq]
  cases hwr : DmRegs.writes s.csrs (csrsIn s i)
  · cases hr : DmRegs.reads s.csrs (csrsIn s i)
    · rfl
    · generalize DmRegs.dmCsrAddr (csrsIn s i) = r
      show (if showsView w r then [DmRegs.readWord s.csrs (csrsIn s i) r] else [])
        = (held q s).answer (.read r) ++ []
      rw [List.append_nil]
      -- a read: the word of the register, word by word for the wide address
      unfold DmRegs.readWord
      rw [sbBlocked_idle hs hclear]
      cases r with
      | sbAddress0 => exact congrArg (fun x => [x]) (getWord_address _ hlow (by omega)).symm
      | sbAddress1 =>
        rcases hw with rfl | rfl
        · rfl
        · exact congrArg (fun x => [x]) (getWord_address _ (by omega) le_rfl).symm
      | _ => rfl
  · -- a write reads nothing
    have hr : DmRegs.reads s.csrs (csrsIn s i) = false := reads_of_writes hwr
    rw [hr]
    show [] = (held q s).answer (.write _ _) ++ []
    rw [View.answer_write]
    rfl

/-! ## A busy host -/

/-- A patient debugger reads none of them now, while they may still change. -/
theorem readings_busy (hb : s.sba ≠ .Idle) (hp : Patient s i) : readings s i = [] := by
  have hfree := hp hb
  unfold accesses at hfree
  unfold readings
  cases hr : DmRegs.reads s.csrs (csrsIn s i)
  · rfl
  · have hwr : DmRegs.writes s.csrs (csrsIn s i) = false := by
      by_contra hno
      rw [reads_of_writes (Bool.not_eq_false _ ▸ hno)] at hr
      cases hr
    rw [hwr, hr] at hfree
    have hc := hfree _ List.mem_cons_self
    cases haddr : DmRegs.dmCsrAddr (csrsIn s i) with
    | sbAddress0 | sbAddress1 | sbData0 | sbData1 =>
      rw [haddr] at hc
      cases hc
    | _ => rfl

/-- The request is that of the object: address, data and lanes come from the registers that it shares. -/
theorem port_eq (hw : w = 32 ∨ w = 64) (readByteEnable : Bool)
    (hsize : s.csrs.regs.sbcs.sbaccess = busSize w) (hreq : s.sba = .Read ∨ s.sba = .Write) :
    port w readByteEnable s = (held q s).port readByteEnable (masterWeO s) := by
  have hbe : masterBeO w readByteEnable s
      = if masterWeO s || readByteEnable then BitVec.allOnes (w / 8) else 0 := by
    unfold masterBeO DmSba.masterBeO masterWeO DmSba.masterWeO
    rw [beMask_bus hw hsize]
    rcases hreq with hs | hs
    · rw [hs]
      cases readByteEnable <;> rfl
    · rw [hs]
      rfl
  unfold port
  rw [hbe]
  rfl

/-- The registers move on with the answer, and not before; what the debugger does meanwhile is about
    others. -/
theorem held_busy (hw : w = 32 ∨ w = 64) (hact : dmactiveO s = true) (hb : s.sba ≠ .Idle)
    (hsize : s.csrs.regs.sbcs.sbaccess = busSize w)
    (hclear : s.csrs.regs.sbcs.sbbusyerror = false) (hp : Patient s i)
    (hv : waits s = false → i.masterRValidI = false) :
    held q (next p s i)
      = if i.masterRValidI then (held q s).receive i.masterRRdataI else held q s := by
  obtain ⟨haddr, -⟩ := advances (p := p) (i := i) hw hact (fun _ => hsize) hb
  -- a patient debugger does not write `SBCS`
  have hfree : (DmRegs.writes s.csrs (csrsIn s i) &&
      DmRegs.dmCsrAddr (csrsIn s i) == .sbcs) = false := by
    have hall := hp hb
    unfold accesses at hall
    cases hwr : DmRegs.writes s.csrs (csrsIn s i)
    · rfl
    · rw [hwr] at hall
      have hc := hall _ List.mem_cons_self
      rw [Bool.true_and, beq_eq_false_iff_ne]
      intro heq
      rw [heq] at hc
      cases hc
  -- the host is done when the answer comes, as none comes while the request waits
  have hcompletes : completes s i = i.masterRValidI := by
    unfold completes
    cases hwait : waits s
    · rw [hv hwait]
      rfl
    · exact Bool.true_and _
  unfold held
  rw [sbcs_next hact (refusedSb_patient hclear hp), hfree, haddr, sbdata_busy hact hb, hcompletes]
  -- without an answer nothing moves; with one the address is counted up
  cases i.masterRValidI
  · have hstay : sbaddress w s.csrs.regs + (if false = true then BitVec.ofNat w (w / 8) else 0)
        = sbaddress w s.csrs.regs := BitVec.add_zero _
    rw [Bool.false_and, hstay]
    rfl
  · rfl

/-- Before the answer nothing has happened to them. -/
theorem held_waiting (hw : w = 32 ∨ w = 64) (hact : dmactiveO s = true) (hb : s.sba ≠ .Idle)
    (hsize : s.csrs.regs.sbcs.sbaccess = busSize w)
    (hclear : s.csrs.regs.sbcs.sbbusyerror = false) (hp : Patient s i)
    (hv : i.masterRValidI = false) : held q (next p s i) = held (w := w) q s := by
  rw [held_busy hw hact hb hsize hclear hp fun _ => hv, hv]
  rfl

end Cycle

/-! ## One cycle -/

section Serve

variable {p : BitVec n} {i : Input n w} {d : Device σ w} {readByteEnable : Bool}
  {c : Served σ w × State n}

/-- What a run needs: the module is active, the debugger patient and the bus one that delivers. -/
def Orderly (c : Served σ w × State n) (i : Input n w) : Prop :=
  dmactiveO c.2 = true ∧ Patient c.2 i ∧ Delivers c i

instance (c : Served σ w × State n) (i : Input n w) : Decidable (Orderly c i) := by
  unfold Orderly; infer_instance

/-- A bus without an answer delivers none, which is what the wrapper around the device promises. -/
theorem silent_of_ready (h : Serving c) (hb : Delivers c i) (hno : waits c.2 = false) :
    i.masterRValidI = false := by
  have hnone : c.1.answer = none := 
    Option.isNone_iff_eq_none.mp (Option.isSome_eq_false_iff.mp (h.ready.trans hno))
  cases hv : i.masterRValidI
  · rfl
  · have hsome := hb hv
    rw [hnone] at hsome
    cases hsome

theorem serving_next (h : Serving c) (hc : Orderly c i) :
    Serving (watched (next p) (serve d readByteEnable) c i) := by
  obtain ⟨hact, hp, hb⟩ := hc
  refine ⟨inv_next h.inv, fun _ => sbaccess_active hact, sbbusyerror_next hact h.clear hp, ?_⟩
  rw [watched_snd, waits_next h.inv]
  show (serve d readByteEnable c.1 c.2 i).answer.isSome = _
  unfold serve
  cases hg : granted w c.2 i
  · cases hv : i.masterRValidI
    · rw [if_neg Bool.false_ne_true, if_neg Bool.false_ne_true, h.ready]
      exact (Bool.and_true _).symm
    · rw [if_neg Bool.false_ne_true, if_pos rfl]
      exact (Bool.and_false _).symm
  · rfl

theorem view_idle (b : Served σ w) {s : State n} (hs : s.sba = .Idle) :
    view d readByteEnable (b, s) = held b.dev s := by
  unfold view
  rw [hs]

theorem view_request (b : Served σ w) {s : State n} (hs : s.sba = .Read ∨ s.sba = .Write) :
    view d readByteEnable (b, s)
      = (held b.dev s).transfer d readByteEnable (masterWeO s) := by
  unfold view masterWeO DmSba.masterWeO
  rcases hs with hs | hs
  · rw [hs]
    rfl
  · rw [hs]
    rfl

theorem view_waits (b : Served σ w) {s : State n} (hs : waits s = true) :
    view d readByteEnable (b, s) = (held b.dev s).receive (b.answer.getD 0) := by
  unfold view
  rcases waits_iff.mp hs with hs | hs
  · rw [hs]
  · rw [hs]

/-- An idle host takes the access and starts the transfer, and for the object that is the whole access. -/
theorem view_next_idle (hw : w = 32 ∨ w = 64) (h : Serving c) (hc : Orderly c i)
    (hs : c.2.sba = .Idle) :
    view d readByteEnable (watched (next p) (serve d readByteEnable) c i)
      = run (View.access d readByteEnable) (view d readByteEnable c) (accesses c.2 i) := by
  obtain ⟨b, s⟩ := c
  obtain ⟨hact, hp, hb⟩ := hc
  have hv := silent_of_ready h hb (waits_idle hs)
  have hreq : masterReqO w s = false := by
    rw [masterReqO_eq h.inv, hs]
    rfl
  -- an idle host asks for nothing, so the bus stays where it is
  have hserve : serve d readByteEnable b s i = b := by
    unfold serve granted
    rw [hreq, hv]
    rfl
  have hheld := held_idle (p := p) (q := b.dev) (by omega) hact hs h.clear hv
  have hsba := sba_started (p := p) (i := i) (q := b.dev) h.inv hs h.clear
  show view d readByteEnable (serve d readByteEnable b s i, next p s i) = _
  rw [hserve, view_idle b hs]
  rcases accesses_cases s i with hnone | ⟨a, ha⟩
  · -- no access in this cycle
    rw [hnone] at hheld hsba ⊢
    rw [view_idle b hsba, hheld]
    rfl
  · rw [ha] at hheld hsba ⊢
    show _ = View.access d readByteEnable (held b.dev s) a
    unfold View.access
    -- an access: either it starts nothing, or the host goes to the state of the transfer
    cases hst : (held b.dev s).started a with
    | none =>
      rw [List.head?_cons, Option.bind_some, hst] at hsba
      rw [view_idle b hsba, hheld]
      rfl
    | some we =>
      rw [List.head?_cons, Option.bind_some, hst] at hsba
      have hwhere : (next p s i).sba = .Read ∨ (next p s i).sba = .Write := by
        rw [hsba]
        cases we
        · exact Or.inl rfl
        · exact Or.inr rfl
      have hwe : masterWeO (next p s i) = we := by
        unfold masterWeO DmSba.masterWeO
        rw [hsba]
        cases we <;> rfl
      rw [view_request b hwhere, hheld, hwe]
      rfl

/-- While the host is busy the object is what it was: the request goes out, waits and is answered, and all
    of it has been counted already. -/
theorem view_next_busy (hw : w = 32 ∨ w = 64) (h : Serving c) (hc : Orderly c i)
    (hs : c.2.sba ≠ .Idle) :
    view d readByteEnable (watched (next p) (serve d readByteEnable) c i)
      = view d readByteEnable c := by
  obtain ⟨b, s⟩ := c
  obtain ⟨hact, hp, hb⟩ := hc
  have hsize : s.csrs.regs.sbcs.sbaccess = busSize w := h.size hs
  show view d readByteEnable (serve d readByteEnable b s i, next p s i) = _
  cases hreq : masterReqO w s
  · -- the host waits for the answer
    have hwait : waits s = true := waits_of_busy h.inv hs hreq
    have hgranted : granted w s i = false := granted_waiting h.inv hwait
    cases hv : i.masterRValidI
    · have hserve : serve d readByteEnable b s i = b := by
        unfold serve
        rw [hgranted, hv]
        rfl
      have hstill : waits (next p s i) = true := by
        rw [waits_next h.inv, hgranted, hwait, hv]
        rfl
      rw [hserve, view_waits b hstill, view_waits b hwait,
        held_waiting hw hact hs hsize h.clear hp hv]
    · have hserve : serve d readByteEnable b s i = { b with answer := none } := by
        unfold serve
        rw [hgranted, hv]
        rfl
      have hidle : (next p s i).sba = .Idle := by
        rw [sba_waits h.inv hwait, hv]
        rfl
      have hheld := held_busy (p := p) (q := b.dev) hw hact hs hsize h.clear hp
        (silent_of_ready h hb)
      rw [hv, if_pos rfl] at hheld
      have hanswer : b.answer = some i.masterRRdataI := hb hv
      rw [hserve, view_idle _ hidle, view_waits b hwait, hanswer, hheld]
      rfl
  · -- the host waits for the grant
    have hwhere := (requests_iff h.inv).mp hreq
    have hv : i.masterRValidI = false := silent_of_ready h hb (waits_of_request h.inv hreq)
    have hheld (dev : σ) : held dev (next p s i) = held (w := w) dev s :=
      held_waiting hw hact hs hsize h.clear hp hv
    cases hgnt : i.masterGntI
    · have hserve : serve d readByteEnable b s i = b := by
        unfold serve granted
        rw [hgnt, hv, Bool.and_false]
        rfl
      have hsba := sba_held (p := p) h.inv hreq hgnt
      have hwe : masterWeO (next p s i) = masterWeO s := by
        unfold masterWeO
        rw [hsba]
      rw [← hsba] at hwhere
      rw [hserve, view_request b hwhere, hheld, hwe, view_request b (hsba ▸ hwhere)]
    · have hserve : serve d readByteEnable b s i
          = ⟨(d b.dev (port w readByteEnable s)).1, some (d b.dev (port w readByteEnable s)).2⟩ := by
        unfold serve granted
        rw [hreq, hgnt]
        rfl
      rw [hserve, view_waits _ (waits_granted h.inv hreq hgnt), view_request b hwhere, hheld,
        port_eq (q := b.dev) hw readByteEnable hsize hwhere]
      rfl

/-- **One cycle.**  The object makes the access of the cycle, and nothing else happens to it. -/
theorem view_next (hw : w = 32 ∨ w = 64) (h : Serving c) (hc : Orderly c i) :
    view d readByteEnable (watched (next p) (serve d readByteEnable) c i)
      = run (View.access d readByteEnable) (view d readByteEnable c) (accesses c.2 i) := by
  by_cases hs : c.2.sba = .Idle
  · exact view_next_idle hw h hc hs
  · rw [view_next_busy hw h hc hs, (View.run_free d readByteEnable _ (hc.2.1 hs)).1]

/-- What is read in the cycle is read from the object. -/
theorem readings_view (hw : w = 32 ∨ w = 64) (h : Serving c) (hc : Orderly c i) :
    readings c.2 i
      = emitted (View.access d readByteEnable) View.answer (view d readByteEnable c)
          (accesses c.2 i) := by
  obtain ⟨b, s⟩ := c
  obtain ⟨hact, hp, hb⟩ := hc
  show readings s i = _
  by_cases hs : s.sba = .Idle
  · rw [view_idle b hs]
    exact readings_idle hw hs h.clear
  · rw [(View.run_free d readByteEnable _ (hp hs)).2]
    exact readings_busy hs hp

/-! ## Whole runs -/

/-- What is read in a run is read from the object, access by access. -/
theorem readings_run (hw : w = 32 ∨ w = 64) (h : Serving c) (is : List (Input n w))
    (hc : Always (watched (next p) (serve d readByteEnable)) Orderly c is) :
    emitted (next p) readings c.2 is
      = emitted (View.access d readByteEnable) View.answer (view d readByteEnable c)
          (emitted (next p) accesses c.2 is) := by
  rw [← emitted_watched (next p) (serve d readByteEnable) readings is c,
    ← emitted_watched (next p) (serve d readByteEnable) accesses is c]
  exact emitted_simulates (fun c i => serving_next) (fun c i => view_next hw)
    (fun c i => readings_view hw) is c h hc

/-- The object behind the registers at the end of a run is the one that the accesses of the run make. -/
theorem view_run (hw : w = 32 ∨ w = 64) (h : Serving c) (is : List (Input n w))
    (hc : Always (watched (next p) (serve d readByteEnable)) Orderly c is) :
    view d readByteEnable (run (watched (next p) (serve d readByteEnable)) c is)
      = run (View.access d readByteEnable) (view d readByteEnable c)
          (emitted (next p) accesses c.2 is) := by
  rw [← emitted_watched (next p) (serve d readByteEnable) accesses is c]
  exact run_simulates (fun c i => serving_next) (fun c i => view_next hw) is c h hc

/-- An idle module with nothing refused. -/
theorem serving_start (p : BitVec n) (dev : σ) (pre : List (Input n w))
    (hidle : (run (next p) reset pre).sba = .Idle)
    (hclear : (run (next p) reset pre).csrs.regs.sbcs.sbbusyerror = false) :
    Serving ((⟨dev, none⟩, run (next p) reset pre) : Served σ w × State n) :=
  ⟨run_of_step_free (fun s i => inv_next) pre reset inv_reset, fun hb => absurd hidle hb, hclear,
    (waits_idle hidle).symm⟩

end Serve

/-- **To a patient debugger a transfer is one access.**  Take any device behind the bus and, from a
    state that a run from reset leads to with the host idle and nothing refused, any run in which the
    module is active, the debugger leaves the bus registers alone while the host is busy, and the bus
    grants the requests and delivers the device's answers whenever it likes.  What is read from the bus
    registers is what is read from the object on which every access is a transfer at once; and the
    object at the end is the one behind the registers, which are the object's when the host is idle. -/
theorem transfers_atomic (hw : w = 32 ∨ w = 64) (p : BitVec n) (d : Device σ w) (dev : σ)
    (readByteEnable : Bool) (pre is : List (Input n w))
    (hidle : (run (next p) reset pre).sba = .Idle)
    (hclear : (run (next p) reset pre).csrs.regs.sbcs.sbbusyerror = false)
    (horderly : Always (watched (next p) (serve d readByteEnable)) Orderly
      (⟨dev, none⟩, run (next p) reset pre) is) :
    emitted (next p) readings (run (next p) reset pre) is
      = emitted (View.access d readByteEnable) View.answer (held dev (run (next p) reset pre))
          (emitted (next p) accesses (run (next p) reset pre) is) ∧
    view d readByteEnable
        (run (watched (next p) (serve d readByteEnable)) (⟨dev, none⟩, run (next p) reset pre) is)
      = run (View.access d readByteEnable) (held dev (run (next p) reset pre))
          (emitted (next p) accesses (run (next p) reset pre) is) := by
  have hstart := serving_start p dev pre hidle hclear
  have hview : view d readByteEnable (⟨dev, none⟩, run (next p) reset pre)
      = held dev (run (next p) reset pre) := view_idle _ hidle
  rw [← hview]
  exact ⟨readings_run hw hstart is horderly, view_run hw hstart is horderly⟩

/-- A device that gives back what it was sent last. -/
def lastSent : Device (BitVec 32) 32 := fun x r => (if r.we then r.wdata else x, x)

/-- A DMI read behind a 32-bit bus. -/
def dmiRead (addr : BitVec 7) : Input 1 32 :=
  { dmiReqValidI := true, dmiReqI := ⟨addr, DTM_READ, 0⟩ }

/-- A word is written and read back; the second read is that of the answer. -/
def writeRead : List (Input 1 32) :=
  [dmiWrite 0x38 0x00108000, dmiWrite 0x3c 5, {}, { masterGntI := true }, {},
    { masterRValidI := true, masterRRdataI := 9 }, dmiRead 0x3c, dmiRead 0x38,
    { masterGntI := true }, { masterRValidI := true, masterRRdataI := 5 }, dmiRead 0x3c]

theorem transfers_atomic_writeRead :
    emitted (next 1) readings (run (next 1) reset [dmiWrite 0x10 1]) writeRead
      = emitted (View.access lastSent true) View.answer
          (held 9 (run (next 1) reset [dmiWrite 0x10 1]))
          (emitted (next 1) accesses (run (next 1) reset [dmiWrite 0x10 1]) writeRead) ∧
    view lastSent true
        (run (watched (next 1) (serve lastSent true))
          (⟨9, none⟩, run (next 1) reset [dmiWrite 0x10 1]) writeRead)
      = run (View.access lastSent true) (held 9 (run (next 1) reset [dmiWrite 0x10 1]))
          (emitted (next 1) accesses (run (next 1) reset [dmiWrite 0x10 1]) writeRead) :=
  transfers_atomic (Or.inl rfl) 1 lastSent 9 true [dmiWrite 0x10 1] writeRead (by decide) (by decide)
    (by decide)

end RiscDbgUart.SystemBus
