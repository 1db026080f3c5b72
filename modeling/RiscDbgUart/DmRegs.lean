/-
  `dm_csrs.sv`, the registers of the debug module.

  `csr_read_write` is one combinational block: default assignments, the read of the register that is
  addressed, the write of it, and then the assignments that have precedence over both (a hart's error,
  a hart's data, the system reset, the system bus, the fields that are wired).  Each of the four parts
  is a function on the block's results here, applied in the order of the source, so that the later
  assignment wins as it does there.  The response queue behind the block is that of `DmCsrs`.

  `n` is `NrHarts` and `w` is `BusWidth`.  A vector with one bit per hart is `n` bits wide; the
  vectors the source widens to the next power of two (`*_aligned`) are read through `getLsbD`, which
  is false beyond the width as the padding is.
-/
import RiscDbgUart.DmCsrs
import RiscDbgUart.DmPkg

set_option linter.unusedVariables false

namespace RiscDbgUart

/-- `HartSelLen`, the number of bits of the selection that the module keeps: one for a single hart,
    otherwise as many as the numbers of the harts take. -/
def hartSelLen (n : Nat) : Nat := if n = 1 then 1 else clog2 n

/-- `hartsel[HartSelLen-1:0]`: what is above these bits is dropped, so that a selection out of range is the
    number of some hart again, or a number above them when the number of harts is no power of two. -/
def selectHart (n : Nat) {k : Nat} (hartsel : BitVec k) : Nat := hartsel.toNat % 2 ^ hartSelLen n

namespace DmRegs

/-! ## Halt summaries -/

section HaltSum

variable {n : Nat} (haltedI : BitVec n) (hartselO : BitVec 20)

/-- `halted_reshaped0`, the harts in words of 32. -/
def haltedReshaped0 : BitVec (((n - 1) / 2 ^ 5 + 1) * 32) := haltedI.setWidth _

/-- `p_haltsum0`.  The bound of the comparison is cut to the width of the index, so it is zero for the
    largest number of harts. -/
def haltsum0 : BitVec 32 :=
  let hartselIdx0 := hartselO.extractLsb' 5 15
  if hartselIdx0 < BitVec.ofNat 15 ((n - 1) / 2 ^ 5 + 1) then
    getWord (haltedReshaped0 haltedI) hartselIdx0.toNat
  else 0

/-- `for k < words: flat[k] = |v[k]`, the loop of the three reductions.  `words` is the bound of the loop and
    not the size of either vector: where it is too large the read is zero and the write is dropped. -/
def reduceWords {m : Nat} (k words : Nat) (v : BitVec m) : BitVec k :=
  (List.range words).foldl (fun flat j => setBit flat j (getWord v j != 0)) 0

/-- `halted_reshaped1`: bit `k` says that a hart of word `k` of `halted_reshaped0` is halted. -/
def haltedReshaped1 : BitVec (((n - 1) / 2 ^ 10 + 1) * 32) :=
  reduceWords _ ((n - 1) / 2 ^ 5 + 1) (haltedReshaped0 haltedI)

/-- `p_reduction1`, with the same cut of the bound, here to ten bits. -/
def haltsum1 : BitVec 32 :=
  let hartselIdx1 := hartselO.extractLsb' 10 10
  if hartselIdx1 < BitVec.ofNat 10 ((n - 1) / 2 ^ 10 + 1) then
    getWord (haltedReshaped1 haltedI) hartselIdx1.toNat
  else 0

/-- `halted_reshaped2` -/
def haltedReshaped2 : BitVec (((n - 1) / 2 ^ 15 + 1) * 32) :=
  reduceWords _ ((n - 1) / 2 ^ 10 + 1) (haltedReshaped1 haltedI)

/-- `p_reduction2`, with the same cut of the bound, here to five bits. -/
def haltsum2 : BitVec 32 :=
  let hartselIdx2 := hartselO.extractLsb' 15 5
  if hartselIdx2 < BitVec.ofNat 5 ((n - 1) / 2 ^ 15 + 1) then
    getWord (haltedReshaped2 haltedI) hartselIdx2.toNat
  else 0

/-- `p_reduction3` -/
def haltsum3 : BitVec 32 := reduceWords 32 (n / 2 ^ 15 + 1) (haltedReshaped2 haltedI)

end HaltSum

/-! ## Registers and ports -/

/-- The `_q` registers.  The vectors of words are kept packed, as the source packs them. -/
structure Regs (n : Nat) where
  dmcontrol : DmControl
  cmderr : CmdErr
  command : Command
  cmdValid : Bool
  abstractauto : AbstractAuto
  progbuf : BitVec 256
  data : BitVec 64
  sbcs : Sbcs
  sbaddr : BitVec 64
  sbdata : BitVec 64
  havereset : BitVec n
deriving DecidableEq, Repr

structure State (n : Nat) where
  regs : Regs n
  queue : DmCsrs.State
deriving DecidableEq, Repr

structure Input (n w : Nat) where
  dmiReqValidI : Bool
  dmiReqI : DmiReq
  dmiRespReadyI : Bool
  hartinfoI : BitVec (32 * n)
  haltedI : BitVec n
  unavailableI : BitVec n
  resumeackI : BitVec n
  cmderrorValidI : Bool
  cmderrorI : CmdErr
  cmdbusyI : Bool
  dataI : BitVec 64
  dataValidI : Bool
  sbaddressI : BitVec w
  sbdataI : BitVec w
  sbdataValidI : Bool
  sbbusyI : Bool
  sberrorValidI : Bool
  sberrorI : BitVec 3

/-- What `csr_read_write` drives: the `_d` values of the registers, the word for the response queue
    and the pulses. -/
structure ReadWrite (n : Nat) where
  d : Regs n
  respQueueData : BitVec 32
  clearResumeackO : Bool
  sbaddressWriteValidO : Bool
  sbdataReadValidO : Bool
  sbdataWriteValidO : Bool

variable {n w : Nat}

/-- `hartsel_o` -/
def hartselO (r : Regs n) : BitVec 20 := r.dmcontrol.hartselhi ++ r.dmcontrol.hartsello

/-- `selected_hart` -/
def selectedHart (r : Regs n) : Nat := selectHart n (hartselO r)

/-- `ndmreset_o` -/
def ndmresetO (r : Regs n) : Bool := r.dmcontrol.ndmreset

/-- A request is accepted: `dmi_req_ready_o && dmi_req_valid_i`. -/
def accepts (s : State n) (i : Input n w) : Bool :=
  DmCsrs.dmiReqReadyO s.queue && i.dmiReqValidI

/-- An accepted `DTM_READ`. -/
def reads (s : State n) (i : Input n w) : Bool := accepts s i && i.dmiReqI.op == DTM_READ

/-- An accepted `DTM_WRITE`. -/
def writes (s : State n) (i : Input n w) : Bool := accepts s i && i.dmiReqI.op == DTM_WRITE

/-- The register it addresses. -/
def dmCsrAddr (i : Input n w) : DmCsr := DmCsr.ofAddr i.dmiReqI.addr

/-! ## `csr_read_write` -/

/-- `dmstatus`, assembled from the selected hart's inputs.  A selection out of range is reported as
    nonexistent, beside what the truncated index finds. -/
def dmstatus (r : Regs n) (i : Input n w) : BitVec 32 :=
  let havereset := r.havereset.getLsbD (selectedHart r)
  let resumeack := i.resumeackI.getLsbD (selectedHart r)
  let unavail := i.unavailableI.getLsbD (selectedHart r)
  let nonexistent := decide ((hartselO r).toNat > n - 1)
  let halted := i.haltedI.getLsbD (selectedHart r) && !unavail
  let running := !i.haltedI.getLsbD (selectedHart r) && !unavail
  (0 : BitVec 9) ++ BitVec.ofBool false ++ (0 : BitVec 2)
    ++ BitVec.ofBool havereset ++ BitVec.ofBool havereset
    ++ BitVec.ofBool resumeack ++ BitVec.ofBool resumeack
    ++ BitVec.ofBool nonexistent ++ BitVec.ofBool nonexistent
    ++ BitVec.ofBool unavail ++ BitVec.ofBool unavail
    ++ BitVec.ofBool running ++ BitVec.ofBool running
    ++ BitVec.ofBool halted ++ BitVec.ofBool halted
    ++ BitVec.ofBool true ++ BitVec.ofBool false ++ BitVec.ofBool false ++ BitVec.ofBool false
    ++ DbgVersion013

/-- `abstractcs` -/
def abstractcs (r : Regs n) (i : Input n w) : BitVec 32 :=
  (0 : BitVec 3) ++ BitVec.ofNat 5 ProgBufSize ++ (0 : BitVec 11) ++ BitVec.ofBool i.cmdbusyI
    ++ (0 : BitVec 1) ++ r.cmderr ++ (0 : BitVec 4) ++ BitVec.ofNat 4 DataCount

/-- The default assignments at the head of the block.  Every `_d` value starts as its register, but for
    three: `cmd_valid` is low unless an access raises it, the reserved bits of `abstractauto` are zero, and
    `sbaddr` is what comes back from the host of the system bus. -/
def defaults (s : State n) (i : Input n w) : ReadWrite n :=
  { d :=
      { s.regs with
        abstractauto := { s.regs.abstractauto with zero0 := 0 }
        cmdValid := false
        sbaddr := i.sbaddressI.setWidth 64 }
    respQueueData := 0, clearResumeackO := false, sbaddressWriteValidO := false
    sbdataReadValidO := false, sbdataWriteValidO := false }

/-- `else if (cmderr_q == CmdErrNone) cmderr_d = CmdErrBusy`: the access came while a command was
    executing. -/
def busyError (s : State n) (r : ReadWrite n) : ReadWrite n :=
  if s.regs.cmderr = CmdErrNone then { r with d := { r.d with cmderr := CmdErrBusy } } else r

/-- `sbcs_d.sbbusyerror = 1`: the access came while the system bus was busy, and does nothing else. -/
def sbBusyError (r : ReadWrite n) : ReadWrite n :=
  { r with d := { r.d with sbcs := { r.d.sbcs with sbbusyerror := true } } }

/-- `abstractauto_q.autoexecdata[autoexecdata_idx]`: an access of data register `k` starts the last command
    again. -/
def autoexecData (s : State n) (k : Fin DataCount) : Bool :=
  s.regs.abstractauto.autoexecdata.getLsbD k

/-- `abstractauto_q.autoexecprogbuf[{1'b1, dmi_req_i.addr[3:0]}]`, the field's range being 31:16. -/
def autoexecProgbuf (s : State n) (k : Fin ProgBufSize) : Bool :=
  s.regs.abstractauto.autoexecprogbuf.getLsbD k

/-- The `case` of an accepted read.  It puts the register on the response queue; a read of a data register
    or of a word of the program buffer may start the last command again, and is an error while one is busy;
    a read of `SBData0` may start a transfer. -/
def read (s : State n) (i : Input n w) (r : ReadWrite n) : ReadWrite n :=
  let sbBlocked := i.sbbusyI || s.regs.sbcs.sbbusyerror
  match dmCsrAddr i with
  | .data k =>
    let r := { r with respQueueData := getWord s.regs.data k }
    if !i.cmdbusyI then { r with d := { r.d with cmdValid := autoexecData s k } }
    else busyError s r
  | .dmControl => { r with respQueueData := s.regs.dmcontrol.toWord }
  | .dmStatus => { r with respQueueData := dmstatus s.regs i }
  | .hartinfo => { r with respQueueData := getWord i.hartinfoI (selectedHart s.regs) }
  | .abstractCS => { r with respQueueData := abstractcs s.regs i }
  | .abstractAuto => { r with respQueueData := s.regs.abstractauto.toWord }
  | .command => { r with respQueueData := 0 }
  | .progBuf k =>
    let r := { r with respQueueData := getWord s.regs.progbuf k }
    if !i.cmdbusyI then { r with d := { r.d with cmdValid := autoexecProgbuf s k } }
    else busyError s r
  | .haltSum0 => { r with respQueueData := haltsum0 i.haltedI (hartselO s.regs) }
  | .haltSum1 => { r with respQueueData := haltsum1 i.haltedI (hartselO s.regs) }
  | .haltSum2 => { r with respQueueData := haltsum2 i.haltedI (hartselO s.regs) }
  | .haltSum3 => { r with respQueueData := haltsum3 i.haltedI }
  | .sbcs => { r with respQueueData := s.regs.sbcs.toWord }
  | .sbAddress0 => { r with respQueueData := getWord s.regs.sbaddr 0 }
  | .sbAddress1 => { r with respQueueData := getWord s.regs.sbaddr 1 }
  | .sbData0 =>
    if sbBlocked then sbBusyError r
    else
      { r with
        sbdataReadValidO := s.regs.sbcs.sberror == 0
        respQueueData := getWord s.regs.sbdata 0 }
  | .sbData1 =>
    if sbBlocked then sbBusyError r else { r with respQueueData := getWord s.regs.sbdata 1 }
  | .other => r

/-- The value a write gives `abstractauto`: only the implemented data and program buffer words. -/
def writtenAuto (x : BitVec 32) : AbstractAuto :=
  { autoexecprogbuf := (x.extractLsb' 16 ProgBufSize).setWidth 16
    zero0 := 0
    autoexecdata := (x.extractLsb' 0 DataCount).setWidth 12 }

/-- The `case` of an accepted write.  Command, arguments and `cmderr` are refused while a command is busy,
    the registers of the system bus while a transfer is; `DMControl` is taken at any time. -/
def write (s : State n) (i : Input n w) (r : ReadWrite n) : ReadWrite n :=
  let x := i.dmiReqI.data
  let sbBlocked := i.sbbusyI || s.regs.sbcs.sbbusyerror
  match dmCsrAddr i with
  | .data k =>
    if !i.cmdbusyI then
      { r with d := { r.d with data := setWord r.d.data k x, cmdValid := autoexecData s k } }
    else busyError s r
  | .dmControl =>
    let c := DmControl.ofWord x
    -- clear the havereset of the selected hart
    { r with
      d :=
        { r.d with
          dmcontrol := c
          havereset :=
            if c.ackhavereset then setBit r.d.havereset (selectedHart s.regs) false
            else r.d.havereset } }
  | .abstractCS =>
    -- W1C, refused while a command is executing
    if !i.cmdbusyI then
      { r with d := { r.d with cmderr := ~~~(x.extractLsb' 8 3) &&& s.regs.cmderr } }
    else busyError s r
  | .command =>
    if !i.cmdbusyI then
      { r with d := { r.d with cmdValid := true, command := Command.ofWord x } }
    else busyError s r
  | .abstractAuto =>
    if !i.cmdbusyI then { r with d := { r.d with abstractauto := writtenAuto x } }
    else busyError s r
  | .progBuf k =>
    if !i.cmdbusyI then
      { r with
        d := { r.d with progbuf := setWord r.d.progbuf k x, cmdValid := autoexecProgbuf s k } }
    else busyError s r
  | .sbcs =>
    if i.sbbusyI then sbBusyError r
    else
      -- R/W1C
      let c := Sbcs.ofWord x
      { r with
        d :=
          { r.d with
            sbcs :=
              { c with
                sbbusyerror := s.regs.sbcs.sbbusyerror && !c.sbbusyerror
                sberror := s.regs.sbcs.sberror &&& ~~~c.sberror } } }
  | .sbAddress0 =>
    if sbBlocked then sbBusyError r
    else
      { r with
        d := { r.d with sbaddr := setWord r.d.sbaddr 0 x }
        sbaddressWriteValidO := s.regs.sbcs.sberror == 0 }
  | .sbAddress1 =>
    if sbBlocked then sbBusyError r
    else { r with d := { r.d with sbaddr := setWord r.d.sbaddr 1 x } }
  | .sbData0 =>
    if sbBlocked then sbBusyError r
    else
      { r with
        d := { r.d with sbdata := setWord r.d.sbdata 0 x }
        sbdataWriteValidO := s.regs.sbcs.sberror == 0 }
  | .sbData1 =>
    if sbBlocked then sbBusyError r
    else { r with d := { r.d with sbdata := setWord r.d.sbdata 1 x } }
  -- the rest is read-only
  | .dmStatus | .hartinfo | .haltSum0 | .haltSum1 | .haltSum2 | .haltSum3 | .other => r

/-- The assignments to `sbcs_d` behind the accesses: the bus error and the wired fields. -/
def sbcsOverrides (i : Input n w) (c : Sbcs) : Sbcs :=
  { c with
    sberror := if i.sberrorValidI then i.sberrorI else c.sberror
    sbversion := 1
    sbbusy := i.sbbusyI
    sbasize := BitVec.ofNat 7 w
    sbaccess128 := false
    sbaccess64 := w == 64
    sbaccess32 := w == 32
    sbaccess16 := false
    sbaccess8 := false
    sbaccess := if w = 64 then 3 else 2 }

/-- The assignments to `dmcontrol_d` behind the accesses.  A resume request is dropped when a hart
    acknowledges it. -/
def dmcontrolOverrides (s : State n) (i : Input n w) (c : DmControl) : DmControl :=
  { c with
    hasel := false
    hartreset := false
    setresethaltreq := false
    clrresethaltreq := false
    zero1 := false
    zero0 := 0
    ackhavereset := false
    resumereq := c.resumereq && !(s.regs.dmcontrol.resumereq && i.resumeackI != 0) }

/-- Everything behind the two `case`s: the assignments that come from elsewhere and win over an access of
    the same cycle. -/
def overrides (s : State n) (i : Input n w) (r : ReadWrite n) : ReadWrite n :=
  { r with
    d :=
      { r.d with
        -- hart threw a command error and has precedence over bus writes
        cmderr := if i.cmderrorValidI then i.cmderrorI else r.d.cmderr
        data := if i.dataValidI then i.dataI else r.d.data
        havereset := if ndmresetO s.regs then BitVec.allOnes n else r.d.havereset
        sbcs := sbcsOverrides i r.d.sbcs
        sbdata := if i.sbdataValidI then i.sbdataI.setWidth 64 else r.d.sbdata
        dmcontrol := dmcontrolOverrides s i r.d.dmcontrol }
    clearResumeackO := !s.regs.dmcontrol.resumereq && r.d.dmcontrol.resumereq }

/-- `csr_read_write`, the whole block: the four parts in the order of the source.  A request is a read or a
    write, so at most one of the two `case`s applies. -/
def csrReadWrite (s : State n) (i : Input n w) : ReadWrite n :=
  let r := defaults s i
  let r := if reads s i then read s i r else r
  let r := if writes s i then write s i r else r
  overrides s i r

/-! ## `p_outmux` and the registers -/

/-- `haltreq_o`: the bit of `DMControl` on the selected hart's line, if there is such a line. -/
def haltreqO (r : Regs n) : BitVec n :=
  if selectedHart r ≤ (n - 1) % 2 ^ hartSelLen n then
    setBit 0 (selectedHart r) r.dmcontrol.haltreq
  else 0

/-- `resumereq_o`: the same with the other bit. -/
def resumereqO (r : Regs n) : BitVec n :=
  if selectedHart r ≤ (n - 1) % 2 ^ hartSelLen n then
    setBit 0 (selectedHart r) r.dmcontrol.resumereq
  else 0

def DmControl0 : DmControl := DmControl.ofWord 0
def Sbcs0 : Sbcs := Sbcs.ofWord 0
def AbstractAuto0 : AbstractAuto := { autoexecprogbuf := 0, zero0 := 0, autoexecdata := 0 }

/-- The registers after the power-on reset.  Every hart has been reset, as far as the debugger knows. -/
def resetRegs : Regs n :=
  { dmcontrol := DmControl0, cmderr := CmdErrNone, command := Command.ofWord 0, cmdValid := false
    abstractauto := AbstractAuto0, progbuf := 0, data := 0, sbcs := Sbcs0, sbaddr := 0, sbdata := 0
    havereset := BitVec.allOnes n }

def reset : State n := { regs := resetRegs, queue := DmCsrs.reset }

/-- What the response queue sees: the handshakes of the DMI, and the answer that the read has found. -/
def queueIn (s : State n) (i : Input n w) : DmCsrs.Input :=
  { dmiReqValidI := i.dmiReqValidI
    dmiRespReadyI := i.dmiRespReadyI
    respQueueData := (csrReadWrite s i).respQueueData }

/-- `p_regs`: while `dmactive` is low everything but `dmactive` and `havereset` is held in reset. -/
def nextRegs (selectableHarts : BitVec n) (s : State n) (i : Input n w) : Regs n :=
  let d := (csrReadWrite s i).d
  let havereset := selectableHarts &&& d.havereset
  if s.regs.dmcontrol.dmactive then { d with havereset := havereset }
  else
    { (resetRegs : Regs n) with
      dmcontrol := { DmControl0 with dmactive := d.dmcontrol.dmactive }
      havereset := havereset }

def next (selectableHarts : BitVec n) (s : State n) (i : Input n w) : State n :=
  { regs := nextRegs selectableHarts s i
    queue := DmCsrs.next s.queue (queueIn s i) }

/-! ## The block, register by register -/

section Fields

variable (s : State n) (i : Input n w)

/-- An accepted access is a write or a read, and then the block is the `case` of it between the
    defaults and the overrides. -/
theorem access_cases :
    (writes s i = true ∧ reads s i = false ∧
      csrReadWrite s i = overrides s i (write s i (defaults s i))) ∨
    (writes s i = false ∧ reads s i = true ∧
      csrReadWrite s i = overrides s i (read s i (defaults s i))) ∨
    (writes s i = false ∧ reads s i = false ∧ csrReadWrite s i = overrides s i (defaults s i)) := by
  have hop : ¬ (writes s i = true ∧ reads s i = true) := by
    unfold writes reads
    rw [Bool.and_eq_true, Bool.and_eq_true, beq_iff_eq, beq_iff_eq]
    rintro ⟨⟨-, hw⟩, -, hr⟩
    rw [hw] at hr
    exact absurd hr (by decide)
  unfold csrReadWrite
  cases hw : writes s i <;> cases hr : reads s i
  · exact Or.inr (Or.inr ⟨rfl, rfl, rfl⟩)
  · exact Or.inr (Or.inl ⟨rfl, rfl, rfl⟩)
  · exact Or.inl ⟨rfl, rfl, rfl⟩
  · exact absurd ⟨hw, hr⟩ hop

/-- The busy error is an update of `cmderr`, and only where no other error is recorded. -/
theorem busyError_eq (r : ReadWrite n) : busyError s r
    = { r with
        d :=
          { r.d with
            cmderr := if s.regs.cmderr == CmdErrNone then CmdErrBusy else r.d.cmderr } } := by
  unfold busyError
  simp only [beq_iff_eq]
  split_ifs
  · rfl
  · rfl

/-- A read sets at most the response, the requests of a command or of a bus read, and the two busy
    errors. -/
theorem read_frame (r : ReadWrite n) : ∃ x b v e c,
    read s i r
      = { r with
          respQueueData := x
          sbdataReadValidO := b
          d := { r.d with cmdValid := v, cmderr := e, sbcs := c } } := by
  unfold read
  simp only [busyError_eq]
  cases dmCsrAddr i with
  | data _ | progBuf _ => cases i.cmdbusyI <;> exact ⟨_, _, _, _, _, rfl⟩
  | sbData0 | sbData1 =>
    cases i.sbbusyI <;> cases s.regs.sbcs.sbbusyerror <;> exact ⟨_, _, _, _, _, rfl⟩
  | _ => exact ⟨_, _, _, _, _, rfl⟩

/-- What no read sets is what the write leaves, if there is one. -/
theorem csrReadWrite_unread {α : Type} (f : ReadWrite n → α)
    (hf : ∀ (r : ReadWrite n) x b v e c,
      f (overrides s i
          { r with
            respQueueData := x
            sbdataReadValidO := b
            d := { r.d with cmdValid := v, cmderr := e, sbcs := c } })
        = f (overrides s i r)) :
    f (csrReadWrite s i)
      = f (overrides s i (if writes s i then write s i (defaults s i) else defaults s i)) := by
  rcases access_cases s i with ⟨hw, -, h⟩ | ⟨hw, -, h⟩ | ⟨hw, -, h⟩
  · rw [h, if_pos hw]
  · obtain ⟨x, b, v, e, c, hread⟩ := read_frame s i (defaults s i)
    rw [h, hread, hf, hw]
    rfl
  · rw [h, hw]
    rfl

/-- What a write does to the registers that one address each writes, register by register.  The `case` of
    the source becomes a field that is written or stays. -/
theorem write_eq (r : ReadWrite n) : write s i r
    = { r with
        d :=
          { (write s i r).d with
            command :=
              if dmCsrAddr i == .command && !i.cmdbusyI then Command.ofWord i.dmiReqI.data
              else r.d.command
            abstractauto :=
              if dmCsrAddr i == .abstractAuto && !i.cmdbusyI then writtenAuto i.dmiReqI.data
              else r.d.abstractauto
            dmcontrol :=
              if dmCsrAddr i == .dmControl then DmControl.ofWord i.dmiReqI.data else r.d.dmcontrol
            havereset :=
              if dmCsrAddr i == .dmControl && (DmControl.ofWord i.dmiReqI.data).ackhavereset then
                setBit r.d.havereset (selectedHart s.regs) false
              else r.d.havereset
            sbaddr :=
              if dmCsrAddr i == .sbAddress0 && !(i.sbbusyI || s.regs.sbcs.sbbusyerror) then
                setWord r.d.sbaddr 0 i.dmiReqI.data
              else if dmCsrAddr i == .sbAddress1 && !(i.sbbusyI || s.regs.sbcs.sbbusyerror) then
                setWord r.d.sbaddr 1 i.dmiReqI.data
              else r.d.sbaddr
            sbdata :=
              if dmCsrAddr i == .sbData0 && !(i.sbbusyI || s.regs.sbcs.sbbusyerror) then
                setWord r.d.sbdata 0 i.dmiReqI.data
              else if dmCsrAddr i == .sbData1 && !(i.sbbusyI || s.regs.sbcs.sbbusyerror) then
                setWord r.d.sbdata 1 i.dmiReqI.data
              else r.d.sbdata }
        sbaddressWriteValidO :=
          if dmCsrAddr i == .sbAddress0 && !(i.sbbusyI || s.regs.sbcs.sbbusyerror) then
            s.regs.sbcs.sberror == 0
          else r.sbaddressWriteValidO
        sbdataWriteValidO :=
          if dmCsrAddr i == .sbData0 && !(i.sbbusyI || s.regs.sbcs.sbbusyerror) then
            s.regs.sbcs.sberror == 0
          else r.sbdataWriteValidO } := by
  unfold write
  simp only [busyError_eq]
  -- the bus holds back the writes to its registers, a command the others
  cases dmCsrAddr i with
  | sbcs | sbAddress0 | sbAddress1 | sbData0 | sbData1 =>
    cases i.sbbusyI <;> cases s.regs.sbcs.sbbusyerror <;> rfl
  | _ => cases i.cmdbusyI <;> rfl

/-- The accepted access asks for a command: a write to `Command`, or an access to a data or program
    buffer word whose autoexec bit is set. -/
def requestsCommand : Bool :=
  match dmCsrAddr i with
  | .command => writes s i
  | .data k => (reads s i || writes s i) && autoexecData s k
  | .progBuf k => (reads s i || writes s i) && autoexecProgbuf s k
  | _ => false

/-- The accepted access is one that an executing command refuses.  The words of `data` and `progbuf` are
    guarded in both directions, the other three for writes only. -/
def guarded : Bool :=
  match dmCsrAddr i with
  | .command | .abstractAuto | .abstractCS => writes s i
  | .data _ | .progBuf _ => reads s i || writes s i
  | _ => false

/-- A command is handed over in the next cycle exactly when one was requested and none is busy. -/
theorem cmdValid_d : (csrReadWrite s i).d.cmdValid = (requestsCommand s i && !i.cmdbusyI) := by
  unfold requestsCommand
  -- a write, a read, or no access; only the registers of data and program may start a command by reads
  rcases access_cases s i with ⟨hw, hr, h⟩ | ⟨hw, hr, h⟩ | ⟨hw, hr, h⟩
  · rw [h, hw, hr]
    unfold write
    simp only [busyError_eq]
    cases dmCsrAddr i with
    | data _ | progBuf _ =>
      cases i.cmdbusyI
      · exact (Bool.and_true _).symm
      · exact (Bool.and_false _).symm
    | sbcs | sbAddress0 | sbAddress1 | sbData0 | sbData1 =>
      cases i.sbbusyI <;> cases s.regs.sbcs.sbbusyerror <;> rfl
    | _ => cases i.cmdbusyI <;> rfl
  · rw [h, hw, hr]
    unfold read
    simp only [busyError_eq]
    cases dmCsrAddr i with
    | data _ | progBuf _ =>
      cases i.cmdbusyI
      · exact (Bool.and_true _).symm
      · exact (Bool.and_false _).symm
    | sbData0 | sbData1 => cases i.sbbusyI <;> cases s.regs.sbcs.sbbusyerror <;> rfl
    | _ => rfl
  · rw [h, hw, hr]
    cases dmCsrAddr i <;> rfl

/-- The accepted access writes the register and is not refused. -/
def overwrites (c : DmCsr) : Bool := writes s i && dmCsrAddr i == c && !i.cmdbusyI

theorem command_d : (csrReadWrite s i).d.command
    = if overwrites s i .command then Command.ofWord i.dmiReqI.data else s.regs.command := by
  rw [csrReadWrite_unread s i (fun r => r.d.command) (fun _ _ _ _ _ _ => rfl)]
  unfold overwrites
  cases writes s i
  · rfl
  · rw [if_pos rfl, write_eq]
    rfl

theorem abstractauto_d : (csrReadWrite s i).d.abstractauto
    = if overwrites s i .abstractAuto then writtenAuto i.dmiReqI.data
      else { s.regs.abstractauto with zero0 := 0 } := by
  rw [csrReadWrite_unread s i (fun r => r.d.abstractauto) (fun _ _ _ _ _ _ => rfl)]
  unfold overwrites
  cases writes s i
  · rfl
  · rw [if_pos rfl, write_eq]
    rfl

/-- The program buffer after the accepted access, the hart having no say in it. -/
theorem progbuf_d : (csrReadWrite s i).d.progbuf
    = match dmCsrAddr i with
      | .progBuf k =>
        if overwrites s i (.progBuf k) then setWord s.regs.progbuf k i.dmiReqI.data
        else s.regs.progbuf
      | _ => s.regs.progbuf := by
  rw [csrReadWrite_unread s i (fun r => r.d.progbuf) (fun _ _ _ _ _ _ => rfl)]
  unfold overwrites
  cases writes s i
  · cases dmCsrAddr i <;> rfl
  · unfold write
    simp only [busyError_eq]
    cases dmCsrAddr i with
    | progBuf k => cases i.cmdbusyI <;> simp [overrides, defaults]
    | sbcs | sbAddress0 | sbAddress1 | sbData0 | sbData1 =>
      cases i.sbbusyI <;> cases s.regs.sbcs.sbbusyerror <;> rfl
    | _ => cases i.cmdbusyI <;> rfl

/-- The data registers after the accepted access; a store of the hart has precedence. -/
theorem data_d : (csrReadWrite s i).d.data
    = if i.dataValidI then i.dataI
      else match dmCsrAddr i with
        | .data k =>
          if overwrites s i (.data k) then setWord s.regs.data k i.dmiReqI.data else s.regs.data
        | _ => s.regs.data := by
  rw [csrReadWrite_unread s i (fun r => r.d.data) (fun _ _ _ _ _ _ => rfl)]
  unfold overwrites
  cases writes s i
  · cases dmCsrAddr i <;> rfl
  · unfold write
    simp only [busyError_eq]
    cases dmCsrAddr i with
    | data k => cases i.cmdbusyI <;> simp [overrides, defaults]
    | sbcs | sbAddress0 | sbAddress1 | sbData0 | sbData1 =>
      cases i.sbbusyI <;> cases s.regs.sbcs.sbbusyerror <;> rfl
    | _ => cases i.cmdbusyI <;> rfl

/-- The error the DMI side alone would leave in `cmderr`: the busy error of a refused access, or the
    bits that a write to `AbstractCS` clears. -/
def accessErr : CmdErr :=
  if guarded s i && i.cmdbusyI && s.regs.cmderr == CmdErrNone then CmdErrBusy
  else if overwrites s i .abstractCS then ~~~(i.dmiReqI.data.extractLsb' 8 3) &&& s.regs.cmderr
  else s.regs.cmderr

theorem cmderr_d : (csrReadWrite s i).d.cmderr
    = if i.cmderrorValidI then i.cmderrorI else accessErr s i := by
  unfold accessErr overwrites guarded
  rcases access_cases s i with ⟨hw, hr, h⟩ | ⟨hw, hr, h⟩ | ⟨hw, hr, h⟩
  · rw [h, hw, hr]
    unfold write
    simp only [busyError_eq]
    cases dmCsrAddr i with
    | sbcs | sbAddress0 | sbAddress1 | sbData0 | sbData1 =>
      cases i.sbbusyI <;> cases s.regs.sbcs.sbbusyerror <;> rfl
    | _ => cases i.cmdbusyI <;> rfl
  · rw [h, hw, hr]
    unfold read
    simp only [busyError_eq]
    cases dmCsrAddr i with
    | sbData0 | sbData1 => cases i.sbbusyI <;> cases s.regs.sbcs.sbbusyerror <;> rfl
    | _ => cases i.cmdbusyI <;> rfl
  · rw [h, hw, hr]
    cases dmCsrAddr i <;> rfl

theorem dmcontrol_d : (csrReadWrite s i).d.dmcontrol
    = dmcontrolOverrides s i
        (if writes s i && dmCsrAddr i == .dmControl then DmControl.ofWord i.dmiReqI.data
         else s.regs.dmcontrol) := by
  rw [csrReadWrite_unread s i (fun r => r.d.dmcontrol) (fun _ _ _ _ _ _ => rfl)]
  cases writes s i
  · rfl
  · rw [if_pos rfl, write_eq]
    rfl

/-- A cycle that does not write `DMControl` leaves `dmactive` alone: no override touches it. -/
theorem dmactive_d (h : (writes s i && dmCsrAddr i == .dmControl) = false) :
    (csrReadWrite s i).d.dmcontrol.dmactive = s.regs.dmcontrol.dmactive := by
  rw [dmcontrol_d, h]
  rfl

/-- While the module is active the registers take their `_d` values, but for the `havereset` bits of harts
    that cannot be selected. -/
theorem nextRegs_active (p : BitVec n) (h : s.regs.dmcontrol.dmactive = true) :
    nextRegs p s i
      = { (csrReadWrite s i).d with havereset := p &&& (csrReadWrite s i).d.havereset } := by
  unfold nextRegs
  simp only [h, if_true]

/-- While it is not, they are those of the reset, but for `dmactive` and `havereset`. -/
theorem nextRegs_inactive (p : BitVec n) (h : s.regs.dmcontrol.dmactive = false) :
    nextRegs p s i
      = { (resetRegs : Regs n) with
          dmcontrol := { DmControl0 with dmactive := (csrReadWrite s i).d.dmcontrol.dmactive }
          havereset := p &&& (csrReadWrite s i).d.havereset } := by
  unfold nextRegs
  simp only [h, Bool.false_eq_true, if_false]

end Fields

/-! ## The harts' bits and the system bus -/

section SystemBus

variable (s : State n) (i : Input n w)

/-- The accepted access writes `DMControl`. -/
def writesDmControl : Bool := writes s i && dmCsrAddr i == .dmControl

theorem havereset_d : (csrReadWrite s i).d.havereset
    = if ndmresetO s.regs then BitVec.allOnes n
      else if writesDmControl s i && (DmControl.ofWord i.dmiReqI.data).ackhavereset then
        setBit s.regs.havereset (selectedHart s.regs) false
      else s.regs.havereset := by
  rw [csrReadWrite_unread s i (fun r => r.d.havereset) (fun _ _ _ _ _ _ => rfl)]
  unfold writesDmControl
  cases writes s i
  · rfl
  · rw [if_pos rfl, write_eq]
    rfl

theorem clearResumeackO_eq : (csrReadWrite s i).clearResumeackO
    = (!s.regs.dmcontrol.resumereq && writesDmControl s i &&
        (DmControl.ofWord i.dmiReqI.data).resumereq) := by
  have hd : (csrReadWrite s i).clearResumeackO
      = (!s.regs.dmcontrol.resumereq &&
          (if writesDmControl s i then DmControl.ofWord i.dmiReqI.data
            else s.regs.dmcontrol).resumereq) := by
    rw [csrReadWrite_unread s i (fun r => r.clearResumeackO) (fun _ _ _ _ _ _ => rfl)]
    unfold writesDmControl
    cases writes s i
    · rfl
    · rw [if_pos rfl, write_eq]
      rfl
  rw [hd]
  cases writesDmControl s i <;> cases hq : s.regs.dmcontrol.resumereq <;> simp [hq]

/-- An access to the bus registers is refused: the bus is busy, or an error of that kind is pending. -/
def sbBlocked : Bool := i.sbbusyI || s.regs.sbcs.sbbusyerror

/-- The accepted access writes the bus register and is not refused. -/
def overwritesSb (c : DmCsr) : Bool := writes s i && dmCsrAddr i == c && !sbBlocked s i

/-- The accepted access is refused because the bus is busy or `sbbusyerror` is set. -/
def refusedSb : Bool :=
  match dmCsrAddr i with
  | .sbcs => writes s i && i.sbbusyI
  | .sbAddress0 | .sbAddress1 => writes s i && sbBlocked s i
  | .sbData0 | .sbData1 => (reads s i || writes s i) && sbBlocked s i
  | _ => false

theorem sbaddr_d : (csrReadWrite s i).d.sbaddr
    = if overwritesSb s i .sbAddress0 then setWord (i.sbaddressI.setWidth 64) 0 i.dmiReqI.data
      else if overwritesSb s i .sbAddress1 then setWord (i.sbaddressI.setWidth 64) 1 i.dmiReqI.data
      else i.sbaddressI.setWidth 64 := by
  rw [csrReadWrite_unread s i (fun r => r.d.sbaddr) (fun _ _ _ _ _ _ => rfl)]
  unfold overwritesSb sbBlocked
  cases writes s i
  · rfl
  · rw [if_pos rfl, write_eq]
    rfl

theorem sbdata_d : (csrReadWrite s i).d.sbdata
    = if i.sbdataValidI then i.sbdataI.setWidth 64
      else if overwritesSb s i .sbData0 then setWord s.regs.sbdata 0 i.dmiReqI.data
      else if overwritesSb s i .sbData1 then setWord s.regs.sbdata 1 i.dmiReqI.data
      else s.regs.sbdata := by
  rw [csrReadWrite_unread s i (fun r => r.d.sbdata) (fun _ _ _ _ _ _ => rfl)]
  unfold overwritesSb sbBlocked
  cases writes s i
  · rfl
  · rw [if_pos rfl, write_eq]
    rfl

/-- The value a write gives `sbcs`, before the wired fields.  The two error fields are cleared by writing
    ones. -/
def writtenSbcs : Sbcs :=
  { Sbcs.ofWord i.dmiReqI.data with
    sbbusyerror := s.regs.sbcs.sbbusyerror && !(Sbcs.ofWord i.dmiReqI.data).sbbusyerror
    sberror := s.regs.sbcs.sberror &&& ~~~(Sbcs.ofWord i.dmiReqI.data).sberror }

theorem sbcs_d : (csrReadWrite s i).d.sbcs
    = sbcsOverrides i
        (if refusedSb s i then { s.regs.sbcs with sbbusyerror := true }
         else if writes s i && dmCsrAddr i == .sbcs then writtenSbcs s i
         else s.regs.sbcs) := by
  unfold refusedSb sbBlocked writtenSbcs
  -- a write, a read, or no access; the registers of the bus are refused while it is busy
  rcases access_cases s i with ⟨hw, hr, h⟩ | ⟨hw, hr, h⟩ | ⟨hw, hr, h⟩
  · rw [h, hw, hr]
    unfold write
    simp only [busyError_eq]
    cases dmCsrAddr i with
    | sbcs | sbAddress0 | sbAddress1 | sbData0 | sbData1 =>
      cases i.sbbusyI <;> cases s.regs.sbcs.sbbusyerror <;> rfl
    | _ => cases i.cmdbusyI <;> rfl
  · rw [h, hw, hr]
    unfold read
    simp only [busyError_eq]
    cases dmCsrAddr i with
    | sbData0 | sbData1 => cases i.sbbusyI <;> cases s.regs.sbcs.sbbusyerror <;> rfl
    | _ => cases i.cmdbusyI <;> rfl
  · rw [h, hw, hr]
    cases dmCsrAddr i <;> rfl

theorem sbaddressWriteValidO_eq : (csrReadWrite s i).sbaddressWriteValidO
    = (overwritesSb s i .sbAddress0 && s.regs.sbcs.sberror == 0) := by
  rw [csrReadWrite_unread s i (fun r => r.sbaddressWriteValidO) (fun _ _ _ _ _ _ => rfl)]
  unfold overwritesSb sbBlocked
  cases writes s i
  · rfl
  · rw [if_pos rfl, write_eq, Bool.true_and]
    cases dmCsrAddr i == .sbAddress0 && !(i.sbbusyI || s.regs.sbcs.sbbusyerror) <;> rfl

theorem sbdataWriteValidO_eq : (csrReadWrite s i).sbdataWriteValidO
    = (overwritesSb s i .sbData0 && s.regs.sbcs.sberror == 0) := by
  rw [csrReadWrite_unread s i (fun r => r.sbdataWriteValidO) (fun _ _ _ _ _ _ => rfl)]
  unfold overwritesSb sbBlocked
  cases writes s i
  · rfl
  · rw [if_pos rfl, write_eq, Bool.true_and]
    cases dmCsrAddr i == .sbData0 && !(i.sbbusyI || s.regs.sbcs.sbbusyerror) <;> rfl

theorem sbdataReadValidO_eq : (csrReadWrite s i).sbdataReadValidO
    = (reads s i && dmCsrAddr i == .sbData0 && !sbBlocked s i && s.regs.sbcs.sberror == 0) := by
  unfold sbBlocked
  rcases access_cases s i with ⟨hw, hr, h⟩ | ⟨hw, hr, h⟩ | ⟨hw, hr, h⟩
  · rw [h, hr, write_eq]
    rfl
  · rw [h, hr]
    unfold read
    simp only [busyError_eq]
    cases dmCsrAddr i with
    | sbData0 | sbData1 => cases i.sbbusyI <;> cases s.regs.sbcs.sbbusyerror <;> rfl
    | _ => cases i.cmdbusyI <;> rfl
  · rw [h, hr]
    rfl

/-- A refused access sets `sbbusyerror` and nothing else; the overrides come behind it as always. -/
theorem csrReadWrite_refused (h : refusedSb s i = true) :
    csrReadWrite s i = overrides s i (sbBusyError (defaults s i)) := by
  unfold refusedSb sbBlocked at h
  -- a refused write, a refused read; without an access nothing is refused
  rcases access_cases s i with ⟨hw, hr, hrw⟩ | ⟨hw, hr, hrw⟩ | ⟨hw, hr, hrw⟩
  · have hwrite : write s i (defaults s i) = sbBusyError (defaults s i) := by
      rw [hw, hr] at h
      revert h
      unfold write
      cases dmCsrAddr i with
      | sbcs | sbAddress0 | sbAddress1 | sbData0 | sbData1 => exact fun h => if_pos h
      | _ => exact fun h => absurd h Bool.false_ne_true
    rw [hrw, hwrite]
  · have hread : read s i (defaults s i) = sbBusyError (defaults s i) := by
      rw [hw, hr] at h
      revert h
      unfold read
      cases dmCsrAddr i with
      | sbData0 | sbData1 => exact fun h => if_pos h
      | _ => exact fun h => absurd h Bool.false_ne_true
    rw [hrw, hread]
  · rw [hw, hr] at h
    revert h
    cases dmCsrAddr i <;> exact fun h => absurd h Bool.false_ne_true

/-- Without an access there are the defaults and the overrides: the registers keep what they hold, and the
    inputs that load one do so. -/
theorem csrReadWrite_quiet (h : i.dmiReqValidI = false) :
    csrReadWrite s i = overrides s i (defaults s i) := by
  have hacc : accepts s i = false := by
    unfold accepts
    rw [h, Bool.and_false]
  unfold csrReadWrite reads writes
  rw [hacc]
  rfl

end SystemBus

end DmRegs

end RiscDbgUart
