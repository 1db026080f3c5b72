/-
  The debugger's program.

  The program buffer is eight words that the debugger writes over the DMI and that the harts fetch from
  a page of theirs.  In between the words are a register of 256 bits, read in double words of which a
  32-bit bus gets one half.  Here the program is what it is for, a memory of eight words (`Program`)
  that nobody but the debugger writes: kept beside the whole debug module, it is what the debugger
  reads back and what every hart finds at the address of the buffer, in every cycle of every run, and
  it does not change while a command is under way.  A command that asks for nothing but the program
  sends the hart straight to it.

  `edit` is what a cycle does to the program, `Holds` says that the register holds it, and `holds_next` is
  one cycle.  What the harts get follows from `Holds` alone (`doubleWord_words`, `contains_progbuf`), and so
  does what the debugger reads (`read_program`).  `step_whereTo` is the jump over the transfer part for a
  command that runs the program only.
-/
import RiscDbgUart.DmFetch
import RiscDbgUart.DmTop

set_option linter.unusedVariables false

namespace RiscDbgUart.ProgramBuffer

open Clocked Riscv
open DmMem (Params ProgBufBaseAddr ProgBufEndAddr WhereToAddr)
open DmFetch (dmAddr fetched)

variable {n w f : Nat}

/-! ## The program -/

abbrev Program := Fin ProgBufSize → BitVec 32

/-- The words in the order of their addresses. -/
def words (m : Program) : List (BitVec 32) := List.ofFn m

/-- `dmactive_o` -/
def dmactiveO (s : DmTop.State n) : Bool := s.csrs.regs.dmcontrol.dmactive

/-- The debugger writes word `k`, and no command keeps it from doing so. -/
def writesWord (s : DmTop.State n) (i : DmTop.Input n w) (k : Fin ProgBufSize) : Bool :=
  DmTop.accepts s i && i.dmi.reqI.op == DTM_WRITE && DmCsr.ofAddr i.dmi.reqI.addr == .progBuf k &&
    !DmMem.cmdbusyO s.mem

/-- The program beside the debug module. -/
def edit (m : Program) (s : DmTop.State n) (i : DmTop.Input n w) : Program := fun k =>
  if dmactiveO s then if writesWord s i k then i.dmi.reqI.data else m k else 0

/-- What the harts' side sees in a cycle. -/
def memIn (p : Params n) (s : DmTop.State n) (i : DmTop.Input n w) : DmMem.Input n w :=
  DebugModule.memIn p (DmTop.hartSide s) (DmTop.hartSideIn s i)

/-- A command for the selected hart is under way that asks for the program and no transfer. -/
def runsOnlyProgram (s : DmTop.State n) : Bool :=
  DmMem.cmdbusyO s.mem && s.csrs.regs.command.cmdtype == AccessRegister &&
    !(AcArCmd.ofControl s.csrs.regs.command.control).transfer &&
    (AcArCmd.ofControl s.csrs.regs.command.control).postexec

/-- The program is the debugger's, and what the harts get is the program. -/
structure Right (w : Nat) (p : Params n) (m : Program) (s : DmTop.State n) (i : DmTop.Input n w) :
    Prop where
  /-- a read of a word is answered with it -/
  answers : ∀ k, DmTop.accepts s i = true → i.dmi.reqI.op = DTM_READ →
    DmCsr.ofAddr i.dmi.reqI.addr = .progBuf k →
      (DmRegs.csrReadWrite s.csrs (DmTop.csrsIn p s i)).respQueueData = m k
  /-- the harts find the program at its address -/
  code : Contains (fetched p s.mem (memIn p s i)) (dmAddr w p ProgBufBaseAddr) (words m)
  /-- while a command is under way the program stays -/
  stays : dmactiveO s = true → DmMem.cmdbusyO s.mem = true → edit m s i = m
  /-- a hart at the jump goes to it, when the command asks for nothing else -/
  jumps : runsOnlyProgram s = true → ∀ (ext : Extensions f) (h : Hart w f),
    h.pc = dmAddr w p WhereToAddr →
      step ext (fetched p s.mem (memIn p s i)) h = .next { h with pc := dmAddr w p ProgBufBaseAddr }

/-! ## The registers -/

/-- The register holds the program. -/
def Holds (m : Program) (s : DmTop.State n) : Prop := ∀ k : Fin ProgBufSize,
  getWord s.csrs.regs.progbuf k = m k

theorem getWord_none (j : Nat) : getWord (0 : BitVec 256) j = 0 := by
  apply BitVec.eq_of_getLsbD_eq
  intro b hb
  have hzero {k : Nat} (j : Nat) : (0 : BitVec k).getLsbD j = false := BitVec.getLsbD_zero
  rw [getWord, BitVec.getLsbD_extractLsb', hzero, hzero, Bool.and_false]

theorem holds_reset (romAddr : Nat) : Holds (fun _ => 0) (DmTop.reset romAddr : DmTop.State n) := by
  intro k
  exact getWord_none k

/-- The register after a cycle of the active module: the word that is written is the debugger's, and every
    other one stays. -/
theorem progbuf_next (p : Params n) {s : DmTop.State n} (i : DmTop.Input n w)
    (hact : dmactiveO s = true) (k : Fin ProgBufSize) :
    getWord (DmTop.next p s i).csrs.regs.progbuf k
      = if writesWord s i k then i.dmi.reqI.data else getWord s.csrs.regs.progbuf k := by
  have hregs : (DmTop.next p s i).csrs.regs.progbuf
      = (DmRegs.csrReadWrite s.csrs (DmTop.csrsIn p s i)).d.progbuf := by
    show (DmRegs.nextRegs p.selectableHarts s.csrs (DmTop.csrsIn p s i)).progbuf = _
    rw [DmRegs.nextRegs_active s.csrs (DmTop.csrsIn p s i) p.selectableHarts hact]
  have hk : 32 * k.val + 32 ≤ 256 := by
    have hlt : k.val < 8 := k.isLt
    omega
  have hoverwrites (j : Fin ProgBufSize) :
      DmRegs.overwrites s.csrs (DmTop.csrsIn p s i) (.progBuf j) = writesWord s i j := rfl
  have haddr : DmRegs.dmCsrAddr (DmTop.csrsIn p s i) = DmCsr.ofAddr i.dmi.reqI.addr := rfl
  rw [hregs, DmRegs.progbuf_d, haddr]
  -- a write of a word of the program moves that word only
  cases hc : DmCsr.ofAddr i.dmi.reqI.addr with
  | progBuf j =>
    show getWord (if DmRegs.overwrites s.csrs (DmTop.csrsIn p s i) (.progBuf j) then _ else _) k = _
    rw [hoverwrites]
    by_cases hkj : k = j
    · subst hkj
      split_ifs
      · exact (getWord_setWord _ _ _ hk).trans (if_pos rfl)
      · rfl
    · have hother : writesWord s i k = false := by
        rw [writesWord, hc]
        have hne : (DmCsr.progBuf j == DmCsr.progBuf k) = false := by
          rw [beq_eq_false_iff_ne]
          exact fun heq => hkj (DmCsr.progBuf.inj heq).symm
        rw [hne, Bool.and_false, Bool.false_and]
      rw [hother, if_neg Bool.false_ne_true]
      split_ifs
      · exact (getWord_setWord _ _ _ hk).trans (if_neg fun heq => hkj (Fin.ext heq))
      · rfl
  | _ =>
    have hnone : writesWord s i k = false := by
      rw [writesWord, hc]
      simp
    rw [hnone]
    rfl

/-- **One cycle** keeps the register what the debugger has made it. -/
theorem holds_next (p : Params n) {m : Program} {s : DmTop.State n} (i : DmTop.Input n w)
    (h : Holds m s) : Holds (edit m s i) (DmTop.next p s i) := by
  intro k
  cases hact : dmactiveO s with
  | true =>
    rw [progbuf_next p i hact, edit, hact, if_pos rfl, h k]
  | false =>
    have hregs : (DmTop.next p s i).csrs.regs.progbuf = 0 := by
      show (DmRegs.nextRegs p.selectableHarts s.csrs (DmTop.csrsIn p s i)).progbuf = 0
      rw [DmRegs.nextRegs_inactive s.csrs (DmTop.csrsIn p s i) p.selectableHarts hact]
      rfl
    rw [hregs, edit, hact, if_neg Bool.false_ne_true]
    exact getWord_none k

/-! ## What the harts get -/

/-- A double word is two words, the one with the even number at the bottom. -/
theorem doubleWord_words {k : Nat} (v : BitVec k) (j : Nat) :
    v.extractLsb' (64 * j) 64 = getWord v (2 * j + 1) ++ getWord v (2 * j) := by
  have hlow : 64 * j = 32 * (2 * j) := by omega
  have hhigh : 32 * (2 * j + 1) = 32 * (2 * j) + 32 := by omega
  rw [getWord, getWord, hlow]
  exact (BitVec.extractLsb'_append_extractLsb'_eq_extractLsb' hhigh).symm

/-- **The program** is at its address, whatever the harts' side is doing: the memory map looks at the
    address alone. -/
theorem contains_progbuf (p : Params n) (s : DmMem.State n) (i : DmMem.Input n w)
    (hw : w = 32 ∨ w = 64) (hpage : 4096 ∣ p.dmBaseAddress.toNat) {m : Program}
    (hm : ∀ k : Fin ProgBufSize, getWord i.progbufI k = m k) :
    Contains (fetched p s i) (dmAddr w p ProgBufBaseAddr) (words m) := by
  have hmap : ∀ j < 8, ∀ b : BitVec 12, b = ProgBufBaseAddr + BitVec.ofNat 12 (4 * j) →
      ¬ HaltAddress.setWidth 12 ≤ b ∧ b ≠ WhereToAddr ∧
      ¬ (DmMem.DataBaseAddr ≤ b ∧ b ≤ DmMem.DataEndAddr) ∧
      (ProgBufBaseAddr ≤ b ∧ b ≤ ProgBufEndAddr) ∧
      (b.extractLsb' 3 9 - ProgBufBaseAddr.extractLsb' 3 9).toNat % 8 = j / 2 := by
    intro j hj b hb
    subst hb
    revert j
    decide
  have hlength : (words m).length = 8 := List.length_ofFn
  have hgetD (k : Nat) (hk : k < 8) : (words m).getD k 0 = getWord i.progbufI k := by
    rw [List.getD_eq_getElem?_getD, words, List.getElem?_ofFn, dif_pos hk, Option.getD_some]
    exact (hm ⟨k, hk⟩).symm
  apply contains_of_getD
  intro j hj
  rw [hlength] at hj
  obtain ⟨hrom, hwhere, hdata, hprog, hword⟩ := hmap j hj _ rfl
  have hbase : ProgBufBaseAddr.toNat = 0x360 := rfl
  refine DmFetch.fetched_getD p s i hw hpage _ _ j (by omega) rfl ?_
  have haddr : (DmFetch.request i (dmAddr w p (ProgBufBaseAddr + BitVec.ofNat 12 (4 * j)))).busI.addr
      = ProgBufBaseAddr + BitVec.ofNat 12 (4 * j) := DmFetch.dmAddr_setWidth p hw hpage _
  rw [DmFetch.answer_registers p s i (by rw [DmFetch.dmAddr_setWidth p hw hpage]; exact hrom),
    DmMem.rdataD, haddr, if_pos (DmFetch.request_load i _), if_neg hwhere, if_neg hdata, if_pos hprog,
    DmMem.doubleWord, haddr, hword, hgetD _ (by omega), hgetD _ (by omega)]
  exact doubleWord_words i.progbufI (j / 2)

/-- **The jump** goes to the program when the command asks for nothing else. -/
theorem step_whereTo (p : Params n) {s : DmMem.State n} {i : DmMem.Input n w} (hw : w = 32 ∨ w = 64)
    (hpage : 4096 ∣ p.dmBaseAddress.toNat) (hbusy : DmMem.cmdbusyO s = true)
    (hcmd : (i.cmdI.cmdtype == AccessRegister && !(AcArCmd.ofControl i.cmdI.control).transfer &&
      (AcArCmd.ofControl i.cmdI.control).postexec) = true) (ext : Extensions f) {h : Hart w f}
    (hpc : h.pc = dmAddr w p WhereToAddr) :
    step ext (fetched p s i) h = .next { h with pc := dmAddr w p ProgBufBaseAddr } := by
  have haddr : (DmFetch.request i (dmAddr w p WhereToAddr)).busI.addr = WhereToAddr :=
    DmFetch.dmAddr_setWidth p hw hpage _
  have hanswer : DmFetch.answer p s i (dmAddr w p WhereToAddr)
      = (0 : BitVec 32) ++ jal 0 (ProgBufBaseAddr.setWidth 21 - WhereToAddr.setWidth 21) := by
    rw [DmFetch.answer_registers p s i (by rw [DmFetch.dmAddr_setWidth p hw hpage]; decide),
      DmMem.rdataD, haddr, if_pos (DmFetch.request_load i _), if_pos rfl, DmMem.whereTo, if_pos hbusy]
    exact if_pos hcmd
  have hbit : (dmAddr w p WhereToAddr).getLsbD 2 = false := by
    have hlow := congrArg (BitVec.getLsbD · 2) (DmFetch.dmAddr_setWidth p hw hpage WhereToAddr)
    simp only [BitVec.getLsbD_setWidth] at hlow
    exact hlow
  have hdec : decode (fetched p s i h.pc) = some (.jal 0 0x60) := by
    rw [hpc, DmFetch.fetched_half p hw, hbit, if_neg Bool.false_ne_true, hanswer,
      BitVec.extractLsb'_append_eq_right]
    decide
  have hdest : dmAddr w p WhereToAddr + (0x60 : BitVec 21).signExtend w = dmAddr w p ProgBufBaseAddr := by
    have hoff : (0x60 : BitVec 21).signExtend w = BitVec.ofNat w 0x60 := by
      rcases hw with rfl | rfl <;> decide
    rw [hoff, DmFetch.dmAddr_add p hw WhereToAddr 0x60 (by decide)]
    rfl
  rw [step, hdec]
  show Outcome.next { h.setX 0 (h.pc + 4) with pc := h.pc + (0x60 : BitVec 21).signExtend w } = _
  rw [hpc, hdest]
  rfl

/-! ## Runs -/

/-- A read of a word is answered with it, in the cycle in which it is accepted. -/
theorem read_program (p : Params n) {m : Program} {s : DmTop.State n} {i : DmTop.Input n w}
    (hm : Holds m s) (hacc : DmTop.accepts s i = true) (hop : i.dmi.reqI.op = DTM_READ)
    {k : Fin ProgBufSize} (haddr : DmCsr.ofAddr i.dmi.reqI.addr = .progBuf k) :
    (DmRegs.csrReadWrite s.csrs (DmTop.csrsIn p s i)).respQueueData = m k := by
  have hreads : DmRegs.reads s.csrs (DmTop.csrsIn p s i) = true := by
    rw [DmRegs.reads, Bool.and_eq_true, beq_iff_eq]
    exact ⟨hacc, hop⟩
  have haddr' : DmRegs.dmCsrAddr (DmTop.csrsIn p s i) = .progBuf k := haddr
  rw [DmRegs.respQueueData_eq, if_pos hreads, haddr']
  exact hm k

theorem right_of_holds (p : Params n) {m : Program} {s : DmTop.State n} (hw : w = 32 ∨ w = 64)
    (hpage : 4096 ∣ p.dmBaseAddress.toNat) (hm : Holds m s) (i : DmTop.Input n w) :
    Right (f := f) w p m s i where
  answers := fun k hacc hop haddr => read_program p hm hacc hop haddr
  code := contains_progbuf p s.mem _ hw hpage hm
  stays := by
    intro hact hbusy
    funext k
    have hnone : writesWord s i k = false := by
      rw [writesWord, hbusy, Bool.not_true, Bool.and_false]
    rw [edit, hact, if_pos rfl, hnone, if_neg Bool.false_ne_true]
  jumps := by
    intro hruns ext h hpc
    rw [runsOnlyProgram, Bool.and_assoc, Bool.and_assoc, Bool.and_eq_true, ← Bool.and_assoc] at hruns
    exact step_whereTo p hw hpage hruns.1 hruns.2 ext hpc

/-- **The program buffer holds the debugger's program.**  In every cycle of every run of the debug
    module, whatever goes on on the DMI, the harts' bus and the system bus, what the debugger has
    written and no one else is what it reads and what the harts execute. -/
theorem program_delivered (p : Params n) (hw : w = 32 ∨ w = 64) (hpage : 4096 ∣ p.dmBaseAddress.toNat)
    (romAddr : Nat) (is : List (DmTop.Input n w)) :
    Always (watched (DmTop.next p) edit) (fun c i => Right (f := f) w p c.1 c.2 i)
      (fun _ => 0, DmTop.reset romAddr) is :=
  always_of_step (fun c : Program × DmTop.State n => Holds c.1 c.2) (fun _ _ => True) _
    (fun _ i hc _ => holds_next p i hc) (fun _ i hc _ => right_of_holds p hw hpage hc i) is _
    (holds_reset romAddr) (always_true _ _ is)

/-- A write of the debugger. -/
def writing (a : BitVec 7) (x : BitVec 32) : DmTop.Input 1 32 :=
  { dmi := { reqValidI := true, reqI := ⟨a, DTM_WRITE, x⟩ } }

/-- The module is activated and gets a program of two instructions, and the command to run it. -/
def loading : List (DmTop.Input 1 32) :=
  [writing 0x10 1, writing 0x20 0x00148493, writing 0x21 0x00100073, writing 0x17 0x00240000]

theorem program_delivered_loading :
    Always (watched (DmTop.next { selectableHarts := 1, dmBaseAddress := 0x1000 }) edit)
      (fun c i => Right (f := 64) 32 { selectableHarts := 1, dmBaseAddress := 0x1000 } c.1 c.2 i)
      (fun _ => 0, DmTop.reset 0) loading :=
  program_delivered _ (Or.inl rfl) (by decide) 0 loading

end RiscDbgUart.ProgramBuffer
