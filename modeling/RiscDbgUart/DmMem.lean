/-
  `dm_mem.sv`: the debug module as the harts see it.

  The harts reach it over a bus: the debug ROM, the words of the abstract command, the program buffer,
  the data registers, one flag byte per hart, and four mailboxes (`HALTED`, `GOING`, `RESUMING`,
  `EXCEPTION`) that a hart stores to.  The command state machine (`p_hart_ctrl_queue`) launches a
  command or a resume for the selected hart and follows it by these stores.

  `p_hart_ctrl_queue` and `p_rw_logic` read each other's signals, but not in a circle: the flags and
  `cmdbusy_o` depend on the state register alone, and the mailboxes on the bus access alone.
-/
import RiscDbgUart.AbstractCmd
import RiscDbgUart.DmRegs

set_option linter.unusedVariables false

namespace RiscDbgUart.DmMem

/-! ## Parameters, registers and ports -/

structure Params (n : Nat) where
  selectableHarts : BitVec n
  dmBaseAddress : BitVec 32

/-- `HasSndScratch` -/
def Params.hasSndScratch {n : Nat} (p : Params n) : Bool := p.dmBaseAddress != 0

/-- `state_e` -/
inductive CtrlState where
  | Idle | Go | Resume | CmdExecuting
deriving DecidableEq, Repr

/-- The registers of the module.  `fwd_rom`, `rdata` and `word_enable32` hold back what a load has found
    until the next cycle, in which the hart gets it. -/
structure State (n : Nat) where
  state : CtrlState
  halted : BitVec n
  resuming : BitVec n
  fwdRom : Bool
  rdata : BitVec 64
  wordEnable32 : Bool
  /-- `addr_q` of the ROM -/
  romAddr : Nat
deriving DecidableEq, Repr

/-- One cycle of the SRAM interface: a request, its direction, address, data and lanes. -/
structure Access (w : Nat) where
  reqI : Bool := false
  weI : Bool := false
  addrI : BitVec w := 0
  wdataI : BitVec w := 0
  beI : BitVec (w / 8) := 0

/-- What comes from `dm_csrs`, and the access of the hart that has the bus. -/
structure Input (n w : Nat) where
  hartselI : BitVec 20
  haltreqI : BitVec n
  resumereqI : BitVec n
  clearResumeackI : Bool
  progbufI : BitVec 256
  dataI : BitVec 64
  cmdValidI : Bool
  cmdI : Command
  busI : Access w

/-! ## Addresses -/

abbrev HaltedAddr : BitVec 12 := 0x100
abbrev GoingAddr : BitVec 12 := 0x104
abbrev ResumingAddr : BitVec 12 := 0x108
abbrev ExceptionAddr : BitVec 12 := 0x10C
abbrev WhereToAddr : BitVec 12 := 0x300
abbrev FlagsBaseAddr : BitVec 12 := 0x400
abbrev FlagsEndAddr : BitVec 12 := 0x7FF
abbrev DataBaseAddr : BitVec 12 := DataAddr
abbrev DataEndAddr : BitVec 12 := DataAddr + 4 * BitVec.ofNat 12 DataCount - 1
abbrev ProgBufBaseAddr : BitVec 12 := DataAddr - 4 * BitVec.ofNat 12 ProgBufSize
abbrev ProgBufEndAddr : BitVec 12 := DataAddr - 1
abbrev AbstractCmdBaseAddr : BitVec 12 := ProgBufBaseAddr - 4 * 10
abbrev AbstractCmdEndAddr : BitVec 12 := ProgBufBaseAddr - 1

variable {n w : Nat}

/-- `addr_i[DbgAddressBits-1:0]` -/
def Access.addr (b : Access w) : BitVec 12 := b.addrI.setWidth 12

/-- The access stores to the given mailbox. -/
def Access.storesTo (b : Access w) (a : BitVec 12) : Bool := b.reqI && b.weI && b.addr == a

/-- `wdata_hartsel` -/
def wdataHartsel (i : Input n w) : Nat := selectHart n i.busI.wdataI

/-- `hartsel` -/
def hartsel (i : Input n w) : Nat := selectHart n i.hartselI

/-! ## `p_rw_logic`, the stores -/

def going (i : Input n w) : Bool := i.busI.storesTo GoingAddr
def exception (i : Input n w) : Bool := i.busI.storesTo ExceptionAddr

/-- `halted_aligned[k]`: hart `k` stores to `HALTED` in this cycle. -/
def haltedAligned (i : Input n w) (k : Nat) : Bool :=
  i.busI.storesTo HaltedAddr && wdataHartsel i == k

/-- The store goes to the data registers. -/
def dataValidO (i : Input n w) : Bool :=
  i.busI.reqI && i.busI.weI && decide (DataBaseAddr ≤ i.busI.addr && i.busI.addr ≤ DataEndAddr)

/-- `for i < k: if (be_i[i]) data_bits[i*8+:8] = wdata_i[i*8+:8]`: the enabled lanes of the bus go to the
    low bytes of the double word, wherever the store went. -/
def writeBytes (b : Access w) (data : BitVec 64) (k : Nat) : BitVec 64 :=
  (List.range k).foldl
    (fun bits j =>
      if b.beI.getLsbD j then setByte bits (8 * j) (b.wdataI.extractLsb' (8 * j) 8) else bits) data

/-- `data_o` -/
def dataO (i : Input n w) : BitVec 64 :=
  if dataValidO i then writeBytes i.busI i.dataI (w / 8) else i.dataI

/-- `halted_d_aligned`: a store to `HALTED` sets the bit of the hart whose number is stored, a store to
    `RESUMING` clears it.  No other store and no request of the debugger moves a bit. -/
def haltedD (s : State n) (i : Input n w) : BitVec n :=
  if i.busI.storesTo HaltedAddr then setBit s.halted (wdataHartsel i) true
  else if i.busI.storesTo ResumingAddr then setBit s.halted (wdataHartsel i) false
  else s.halted

/-- `resuming_d_aligned`: a store to `RESUMING` sets the bit of the hart, which is its acknowledge, and a new
    resume request clears that of the selected hart.  The store comes later in the block and wins. -/
def resumingD (s : State n) (i : Input n w) : BitVec n :=
  let resuming :=
    if i.clearResumeackI then setBit s.resuming (hartsel i) false else s.resuming
  if i.busI.storesTo ResumingAddr then setBit resuming (wdataHartsel i) true else resuming

/-! ## `p_hart_ctrl_queue` -/

def cmdbusyO (s : State n) : Bool := s.state != .Idle

/-- The command named by `cmd_i` is refused. -/
def unsupported (p : Params n) (i : Input n w) : Bool :=
  unsupportedCommand w p.hasSndScratch i.cmdI

/-- `halted_q_aligned[hartsel]` -/
def selectedHalted (s : State n) (i : Input n w) : Bool := s.halted.getLsbD (hartsel i)

/-- The CSRs want to resume: the request is ignored when the hart is requested to halt or it did not
    clear the resuming bit before. -/
def wantsResume (s : State n) (i : Input n w) : Bool :=
  i.resumereqI.getLsbD (hartsel i) && !s.resuming.getLsbD (hartsel i)
    && !i.haltreqI.getLsbD (hartsel i) && selectedHalted s i

/-- `state_d`.  A command is launched for a halted hart, unless it is refused; it is executing once the hart
    has stored to `GOING`, and done once the selected hart has stored to `HALTED` again.  A resume waits for
    the acknowledge bit of the selected hart. -/
def stateD (p : Params n) (s : State n) (i : Input n w) : CtrlState :=
  match s.state with
  | .Idle =>
    let r :=
      if i.cmdValidI && selectedHalted s i && !unsupported p i then CtrlState.Go else .Idle
    -- the later assignment wins over a launch
    if wantsResume s i then .Resume else r
  | .Go => if going i then .CmdExecuting else .Go
  | .Resume => if s.resuming.getLsbD (hartsel i) then .Idle else .Resume
  | .CmdExecuting => if haltedAligned i (hartsel i) then .Idle else .CmdExecuting

/-- The hart must be halted for all requests; the branch also takes the unsupported commands, which
    get their own code below. -/
def haltResumeError (p : Params n) (s : State n) (i : Input n w) : Bool :=
  s.state == .Idle && i.cmdValidI && !(selectedHalted s i && !unsupported p i)

def cmderrorValidO (p : Params n) (s : State n) (i : Input n w) : Bool :=
  haltResumeError p s i || (unsupported p i && i.cmdValidI) || exception i

/-- The error that goes to `dm_csrs`: an exception of the hart before a command that is refused, and that
    before a command for a hart that does not stand still. -/
def cmderrorO (p : Params n) (s : State n) (i : Input n w) : CmdErr :=
  if exception i then CmdErrorException
  else if unsupported p i && i.cmdValidI then CmdErrNotSupported
  else if haltResumeError p s i then CmdErrorHaltResume
  else CmdErrNone

/-! ## `p_rw_logic`, the loads -/

/-- `{6'b0, resume, go}` -/
def flags (s : State n) : Byte :=
  (0 : BitVec 6) ++ BitVec.ofBool (s.state == .Resume) ++ BitVec.ofBool (s.state == .Go)

/-- The eight flag bytes of the addressed double word: those of the selected hart, if its byte is among them,
    and zero for all other harts.  The comparison is in twelve bits, like the address. -/
def flagBytes (s : State n) (i : Input n w) : BitVec 64 :=
  let mask : BitVec 12 := 0xFF8
  if (i.busI.addr &&& mask) - FlagsBaseAddr = BitVec.ofNat 12 (hartsel i) &&& mask then
    setByte 0 (8 * (BitVec.ofNat 12 (hartsel i) &&& 7).toNat) (flags s)
  else 0

/-- `$clog2(ProgBufSize)'(addr_i[DbgAddressBits-1:3] - base[DbgAddressBits-1:3])` -/
def doubleWord (i : Input n w) (base : BitVec 12) : Nat :=
  (i.busI.addr.extractLsb' 3 9 - base.extractLsb' 3 9).toNat % 8

/-- The variable jump at `WhereToAddr`, which the ROM takes to a command or to a resume.  Nothing is made of
    it while neither is due, and the read data keeps its value. -/
def whereTo (s : State n) (i : Input n w) : BitVec 64 :=
  let ar := AcArCmd.ofControl i.cmdI.control
  let jump (a : BitVec 12) : BitVec 64 :=
    (0 : BitVec 32) ++ jal 0 (a.setWidth 21 - WhereToAddr.setWidth 21)
  if cmdbusyO s then
    -- transfer not set is a shortcut to the program buffer if postexec is set
    if i.cmdI.cmdtype == AccessRegister && !ar.transfer && ar.postexec then jump ProgBufBaseAddr
    else jump AbstractCmdBaseAddr
  else if i.resumereqI.getLsbD (wdataHartsel i) then jump (ResumeAddress.setWidth 12)
  else s.rdata

/-- `rdata_d`: what a load finds, by the part of the address map it falls into.  A store leaves the register
    as it is, and so does a load from a part that is not there. -/
def rdataD (p : Params n) (s : State n) (i : Input n w) : BitVec 64 :=
  let a := i.busI.addr
  if i.busI.reqI && !i.busI.weI then
    if a = WhereToAddr then whereTo s i
    else if DataBaseAddr ≤ a ∧ a ≤ DataEndAddr then
      getWord i.dataI ((doubleWord i DataBaseAddr + 1) % 8)
        ++ getWord i.dataI (doubleWord i DataBaseAddr)
    else if ProgBufBaseAddr ≤ a ∧ a ≤ ProgBufEndAddr then
      i.progbufI.extractLsb' (64 * doubleWord i ProgBufBaseAddr) 64
    else if AbstractCmdBaseAddr ≤ a ∧ a ≤ AbstractCmdEndAddr then
      (AbstractCmd.ofCommand w p.hasSndScratch i.cmdI).word (doubleWord i AbstractCmdBaseAddr)
    else if FlagsBaseAddr ≤ a ∧ a ≤ FlagsEndAddr then flagBytes s i
    else s.rdata
  else s.rdata

/-! ## The ROM and the word multiplexer -/

/-- `mem` of `debug_rom` and of `debug_rom_one_scratch`, one 64-bit word per line of the source. -/
def romWords (snd : Bool) : List (BitVec 64) :=
  if snd then
    [0x07c0006f00c0006f, 0x0ff0000f04c0006f, 0x7b3510737b241073, 0x00c5551300000517,
     0xf140247300c51513, 0x00a4043310852023, 0x0014741340044403, 0xf140247302041c63,
     0x4004440300a40433, 0xfa041ce300247413, 0x00000517fd5ff06f, 0x00c5151300c55513,
     0x7b30257310052623, 0x001000737b202473, 0x7b30257310052223, 0xa85ff06f7b202473,
     0x10852423f1402473, 0x7b2024737b302573, 0x000000007b200073]
  else
    [0x0500006f00c0006f, 0x0ff0000f0340006f, 0xf14024737b241073, 0x4004440310802023,
     0x0204126300147413, 0x40044403f1402473, 0xfc0418e300247413, 0x10002623fddff06f,
     0x001000737b202473, 0x7b20247310002223, 0xf1402473ab1ff06f, 0x7b20247310802423,
     0x000000007b200073]

/-- `addr_i[$clog2(RomSize)-1+3:3]` -/
def romIndex (snd : Bool) (a : BitVec w) : Nat :=
  (a.toNat / 8) % 2 ^ clog2 (romWords snd).length

/-- `rdata_o` of the ROM -/
def romRdata (p : Params n) (s : State n) : BitVec 64 :=
  (romWords p.hasSndScratch).getD s.romAddr 0

/-- `rdata_o`: the double word of the cycle before, from the ROM or from the register, and on a 32-bit bus the
    half that was addressed. -/
def rdataO (p : Params n) (w : Nat) (s : State n) : BitVec w :=
  let wordMux := if s.fwdRom then romRdata p s else s.rdata
  if w = 64 then wordMux.setWidth w
  else if s.wordEnable32 then (wordMux.extractLsb' 32 32).setWidth w
  else (wordMux.extractLsb' 0 32).setWidth w

/-! ## The edge -/

/-- The ROM's address register has no reset. -/
def reset (romAddr : Nat) : State n :=
  { state := .Idle, halted := 0, resuming := 0, fwdRom := false, rdata := 0, wordEnable32 := false
    romAddr := romAddr }

/-- The edge.  The bits of harts that are not selectable are masked out. -/
def next (p : Params n) (s : State n) (i : Input n w) : State n :=
  { state := stateD p s i
    halted := p.selectableHarts &&& haltedD s i
    resuming := p.selectableHarts &&& resumingD s i
    fwdRom := decide (HaltAddress.setWidth 12 ≤ i.busI.addr)
    rdata := rdataD p s i
    wordEnable32 := i.busI.addrI.getLsbD 2
    romAddr := if i.busI.reqI then romIndex p.hasSndScratch i.busI.addrI else s.romAddr }

/-! ## The state machine, state by state -/

section StateMachine

variable {p : Params n} {s : State n} {i : Input n w}

/-- `Go` is left by a store to `GOING` only, whichever hart it comes from. -/
theorem stateD_go (hs : s.state = .Go) :
    stateD p s i = if going i then .CmdExecuting else .Go := by
  unfold stateD
  rw [hs]

/-- `CmdExecuting` is left by the selected hart's store to `HALTED` only. -/
theorem stateD_executing (hs : s.state = .CmdExecuting) :
    stateD p s i = if haltedAligned i (hartsel i) then .Idle else .CmdExecuting := by
  unfold stateD
  rw [hs]

/-- `Resume` is left when the selected hart has resumed. -/
theorem stateD_resume (hs : s.state = .Resume) :
    stateD p s i = if s.resuming.getLsbD (hartsel i) then .Idle else .Resume := by
  unfold stateD
  rw [hs]

/-- `CmdExecuting` is entered from `Go` only, by a store to `GOING`. -/
theorem stateD_enters (hs : stateD p s i = .CmdExecuting) :
    (s.state = .Go ∧ going i = true) ∨
      (s.state = .CmdExecuting ∧ haltedAligned i (hartsel i) = false) := by
  cases hst : s.state
  · unfold stateD at hs
    rw [hst] at hs
    simp only at hs
    split_ifs at hs
  · left
    rw [stateD_go hst] at hs
    split_ifs at hs with hg
    exact ⟨rfl, hg⟩
  · rw [stateD_resume hst] at hs
    split_ifs at hs
  · right
    rw [stateD_executing hst] at hs
    split_ifs at hs with hg
    exact ⟨rfl, Bool.eq_false_iff.mpr hg⟩

/-- Leaving `Idle` takes a halted hart, for a command as for a resume. -/
theorem selectedHalted_of_leaves (hidle : s.state = .Idle) (hnext : stateD p s i ≠ .Idle) :
    s.halted.getLsbD (hartsel i) = true := by
  by_contra hlow
  apply hnext
  have hsel : selectedHalted s i = false := Bool.eq_false_iff.mpr hlow
  unfold stateD wantsResume
  rw [hidle, hsel]
  simp

end StateMachine

end RiscDbgUart.DmMem
