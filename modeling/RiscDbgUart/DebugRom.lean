/-
  The machine code of the debug ROM against its source.

  `RunControl` takes a halted hart for a program counter of `debug_rom.S`, reduced to the mailbox store
  or flag load that comes next.  What ships is 25 or 37 words of machine code.  Here a hart executes
  these words, from the halt address on, on a memory that the debug module changes behind its back, and
  its accesses are exactly those of that reduced program counter (`rom_follows`).

  The proof is an analysis of the words.  `rows` says for each of them which access comes next and what
  `s0`, `a0` and the two scratch registers hold: the value from before, the hart's number, the base of
  the debug module, the flag byte or one bit of it.  `marksAfter` is what an instruction does to that,
  and that every word takes its row to the rows behind it is checked word by word (`rows_ok`).

  The values are abstract (`Val`), and `Val.Means` says what they stand for, given the state in which the
  hart entered the ROM and the flag byte it loaded last.  `Marks.Hold` is the invariant: every register
  holds what its mark says, and what the ROM does not use is as it was (`Untouched`).  For each kind of
  instruction there is a lemma that `marksAfter` is sound for it; `hold_exec` collects them.  The flag byte
  is loaded again and again, so a load must not meet a mark that speaks of the byte before it (`Val.steady`,
  `marksLoaded`).
-/
import RiscDbgUart.RegisterTransfers
import RiscDbgUart.RunControl
import RiscDbgUart.Riscv.Traffic
import RiscDbgUart.TrapRecovery

set_option linter.unusedVariables false

namespace RiscDbgUart.DebugRom

open Riscv DmMem DmFetch
open RegisterTransfers (Scratch)
open TrapRecovery (romAt)
open RunControl (Pc)

variable {n w f : Nat}

/-- `CSR_MHARTID` -/
abbrev CSR_MHARTID : BitVec 12 := 0xF14

/-! ## What the registers hold -/

/-- Something a register can hold, as far as the ROM's instructions have to know it. -/
inductive Val where
  | any
  /-- `s0` and `a0` from before the halt -/
  | s0 | a0
  /-- the number of the hart, the base of the debug module, and their sum -/
  | id | base | pointer
  /-- an address in the page of the debug module, and the number of the page -/
  | inPage | page
  /-- the flag byte that was loaded last, and its two bits -/
  | byte | go | resume
deriving DecidableEq, Repr

/-- It is not about the flag byte. -/
def Val.steady : Val → Bool
  | .byte | .go | .resume => false
  | _ => true

/-- The value is that, `h` being the hart at the halt address and `b` the flag byte.  Of the addresses in
    the page only the page is known. -/
def Val.Means (base : BitVec w) (h : Hart w f) (b : Byte) (v : BitVec w) : Val → Prop
  | .any => True
  | .s0 => v = h.x 8
  | .a0 => v = h.x 10
  | .id => v = h.csr CSR_MHARTID
  | .base => v = base
  | .pointer => v = h.csr CSR_MHARTID + base
  | .inPage => ∃ off < 4096, v = base + BitVec.ofNat w off
  | .page => v <<< 12 = base
  | .byte => v = b.setWidth w
  | .go => v = (b &&& 1).setWidth w
  | .resume => v = (b &&& 2).setWidth w

/-- The registers that the ROM uses. -/
structure Marks where
  s0 : Val
  a0 : Val
  dscratch0 : Val
  dscratch1 : Val
deriving DecidableEq, Repr

/-- What is known about the hart. -/
structure Marks.Hold (base : BitVec w) (h : Hart w f) (b : Byte) (m : Marks) (s : Hart w f) : Prop where
  s0 : m.s0.Means base h b (s.x 8)
  a0 : m.a0.Means base h b (s.x 10)
  dscratch0 : m.dscratch0.Means base h b (s.csr CSR_DSCRATCH0)
  dscratch1 : m.dscratch1.Means base h b (s.csr CSR_DSCRATCH1)

/-- Everything else is as it was at the halt address. -/
structure Untouched (h s : Hart w f) : Prop where
  x : ∀ r, r ≠ 8 → r ≠ 10 → s.x r = h.x r
  csr : ∀ c, c ≠ CSR_DSCRATCH0 → c ≠ CSR_DSCRATCH1 → s.csr c = h.csr c
  fpr : s.fpr = h.fpr

/-! ## What an instruction does to it -/

/-- What a source register holds; with one scratch register the debug module is at zero. -/
def Marks.read (snd : Bool) (m : Marks) (r : BitVec 5) : Val :=
  if r = 8 then m.s0 else if r = 10 then m.a0 else if r = 0 ∧ snd = false then .base else .any

/-- A destination register. -/
def Marks.set (m : Marks) (r : BitVec 5) (v : Val) : Option Marks :=
  if r = 8 then some { m with s0 := v } else if r = 10 then some { m with a0 := v } else none

/-- A control register that is read. -/
def Marks.csr (snd : Bool) (m : Marks) (c : BitVec 12) : Option Val :=
  if c = CSR_MHARTID then some .id
  else if c = CSR_DSCRATCH0 then some m.dscratch0
  else if snd = true ∧ c = CSR_DSCRATCH1 then some m.dscratch1
  else none

/-- What is known behind an instruction that goes on to the next word and accesses nothing.  It covers
    the instructions of the ROM and nothing more; nothing is said of any other one. -/
def marksAfter (snd : Bool) (m : Marks) : Instr → Option Marks
  | .fence => some m
  | .csrrw rd c rs1 =>
    if rd = 0 ∧ c = CSR_DSCRATCH0 then some { m with dscratch0 := m.read snd rs1 }
    else if rd = 0 ∧ snd = true ∧ c = CSR_DSCRATCH1 then
      some { m with dscratch1 := m.read snd rs1 }
    else none
  | .csrrs rd c rs1 => if rs1 = 0 then (m.csr snd c).bind (m.set rd) else none
  | .auipc rd imm => if imm = 0 then m.set rd .inPage else none
  | .srli rd rs1 k => if m.read snd rs1 = .inPage ∧ k = 12 then m.set rd .page else none
  | .slli rd rs1 k => if m.read snd rs1 = .page ∧ k = 12 then m.set rd .base else none
  | .add rd rs1 rs2 =>
    if m.read snd rs1 = .id ∧ m.read snd rs2 = .base then m.set rd .pointer else none
  | .andi rd rs1 imm =>
    if m.read snd rs1 = .byte ∧ imm = 1 then m.set rd .go
    else if m.read snd rs1 = .byte ∧ imm = 2 then m.set rd .resume
    else none
  | _ => none

/-- The register points at the flag byte, less the offset of the flags. -/
def Marks.points (snd : Bool) (m : Marks) (r : BitVec 5) : Bool :=
  m.read snd r == .pointer || (m.read snd r == .id && !snd)

/-- What is known behind the load of the flag byte. -/
def marksLoaded (m : Marks) (rd : BitVec 5) : Option Marks :=
  if m.a0.steady && m.dscratch0.steady && m.dscratch1.steady && rd == 8 then
    some { m with s0 := .byte }
  else none

/-- What is known in `m` is known in `k`. -/
def Marks.covers (m k : Marks) : Bool :=
  (k.s0 == .any || k.s0 == m.s0) && (k.a0 == .any || k.a0 == m.a0) &&
    (k.dscratch0 == .any || k.dscratch0 == m.dscratch0) &&
    (k.dscratch1 == .any || k.dscratch1 == m.dscratch1)

/-! ## The rows -/

/-- The access that comes next; behind the load of the flags it depends on them. -/
inductive Spot where
  | at (pc : Pc)
  | afterGo
  | afterResume
deriving DecidableEq, Repr

def Spot.pc (b : Byte) : Spot → Pc
  | .at pc => pc
  | .afterGo => Pc.pollGo.after b
  | .afterResume => Pc.pollResume.after b

structure Row where
  spot : Spot
  marks : Marks
deriving DecidableEq, Repr

/-- The words of the ROM: the entry and resume vectors, the entry code with its loop, the exception
    handler (which no hart in the loop comes to), the way to the program, and the way out. -/
def rows (snd : Bool) : List (Option Row) :=
  if snd then
    let used (v : Val) : Marks := ⟨v, .base, .s0, .a0⟩
    [some ⟨.at .entry, ⟨.s0, .a0, .any, .any⟩⟩, some ⟨.at .resuming, used .any⟩, none,
      some ⟨.at .entry, ⟨.s0, .a0, .any, .any⟩⟩, some ⟨.at .entry, ⟨.s0, .a0, .any, .any⟩⟩,
      some ⟨.at .entry, ⟨.s0, .a0, .s0, .any⟩⟩, some ⟨.at .entry, ⟨.s0, .a0, .s0, .a0⟩⟩,
      some ⟨.at .entry, ⟨.s0, .inPage, .s0, .a0⟩⟩, some ⟨.at .entry, ⟨.s0, .page, .s0, .a0⟩⟩,
      some ⟨.at .entry, used .any⟩, some ⟨.at .entry, used .id⟩,
      some ⟨.at .pollGo, used .id⟩, some ⟨.at .pollGo, used .pointer⟩,
      some ⟨.afterGo, used .byte⟩, some ⟨.afterGo, used .go⟩,
      some ⟨.at .pollResume, used .any⟩, some ⟨.at .pollResume, used .id⟩,
      some ⟨.at .pollResume, used .pointer⟩,
      some ⟨.afterResume, used .byte⟩, some ⟨.afterResume, used .resume⟩,
      some ⟨.at .entry, used .any⟩]
      ++ List.replicate 7 none
      ++ [some ⟨.at .going, used .any⟩, some ⟨.at .command, used .any⟩,
        some ⟨.at .command, ⟨.any, .a0, .s0, .a0⟩⟩, some ⟨.at .command, ⟨.s0, .a0, .s0, .a0⟩⟩]
      ++ [some ⟨.at .resuming, used .any⟩, some ⟨.at .resuming, used .id⟩,
        some ⟨.at .outside, used .any⟩, some ⟨.at .outside, ⟨.any, .a0, .s0, .a0⟩⟩,
        some ⟨.at .outside, ⟨.s0, .a0, .s0, .a0⟩⟩]
      ++ [none]
  else
    let used (v : Val) : Marks := ⟨v, .a0, .s0, .any⟩
    [some ⟨.at .entry, ⟨.s0, .a0, .any, .any⟩⟩, some ⟨.at .resuming, used .any⟩, none,
      some ⟨.at .entry, ⟨.s0, .a0, .any, .any⟩⟩, some ⟨.at .entry, ⟨.s0, .a0, .any, .any⟩⟩,
      some ⟨.at .entry, used .any⟩, some ⟨.at .entry, used .id⟩,
      some ⟨.at .pollGo, used .id⟩,
      some ⟨.afterGo, used .byte⟩, some ⟨.afterGo, used .go⟩,
      some ⟨.at .pollResume, used .any⟩, some ⟨.at .pollResume, used .id⟩,
      some ⟨.afterResume, used .byte⟩, some ⟨.afterResume, used .resume⟩,
      some ⟨.at .entry, used .any⟩]
      ++ List.replicate 3 none
      ++ [some ⟨.at .going, used .any⟩, some ⟨.at .command, used .any⟩,
        some ⟨.at .command, used .s0⟩]
      ++ [some ⟨.at .resuming, used .any⟩, some ⟨.at .resuming, used .id⟩,
        some ⟨.at .outside, used .any⟩, some ⟨.at .outside, used .s0⟩]
      ++ [none]

/-- `s0` and `a0` are back. -/
def Marks.back (m : Marks) : Bool := m.s0 == .s0 && m.a0 == .a0

/-- Control may go to the word of the ROM at `a`, with this access to come and this known. -/
def leadsTo (w : Nat) (snd : Bool) (spot : Spot) (m : Marks) (a : BitVec w) : Bool :=
  let j := (a.toNat - 0x800) / 4
  a == romAt w j && ((rows snd).getD j none).any fun r => r.spot == spot && m.covers r.marks

/-- The mailbox store is the one that comes next. -/
def storesNext (snd : Bool) (r : Row) (rs2 rs1 : BitVec 5) (imm : BitVec 12) : Bool :=
  r.marks.read snd rs1 == .base &&
    match r.spot with
    | .at .entry => imm == HaltedAddr && rs2 == 8 && r.marks.s0 == .id
    | .at .going => imm == GoingAddr && rs2 == 0
    | .at .resuming => imm == ResumingAddr && rs2 == 8 && r.marks.s0 == .id
    | _ => false

/-- Word `j` of the ROM takes its row to the rows behind it: the instruction there is one that the
    analysis knows, and what it leaves is what the next rows ask for. -/
def rowOk (w : Nat) (snd : Bool) (j : Nat) : Bool :=
  ((rows snd).getD j none).all fun r =>
    (decode ((romCode snd).getD j 0)).any fun i =>
      match i with
      | .jal rd imm => rd == 0 &&
        (leadsTo w snd r.spot r.marks (romAt w j + imm.signExtend w) ||
          (romAt w j + imm.signExtend w == WhereToAddr.setWidth w && r.spot == .at .command
            && r.marks.back))
      | .bne rs1 rs2 imm => rs1 == 8 && rs2 == 0 &&
        ((r.marks.s0 == .go && r.spot == .afterGo
            && leadsTo w snd (.at .going) r.marks (romAt w j + imm.signExtend w)
            && leadsTo w snd (.at .pollResume) r.marks (romAt w j + 4)) ||
          (r.marks.s0 == .resume && r.spot == .afterResume
            && leadsTo w snd (.at .resuming) r.marks (romAt w j + imm.signExtend w)
            && leadsTo w snd (.at .entry) r.marks (romAt w j + 4)))
      | .store z rs2 rs1 imm => z == 2 && storesNext snd r rs2 rs1 imm &&
        leadsTo w snd (.at (r.spot.pc 0 |>.after 0)) r.marks (romAt w j + 4)
      | .load z rd rs1 imm => z == 4 && imm == FlagsBaseAddr && r.marks.points snd rs1 &&
        ((r.spot == .at .pollGo && (marksLoaded r.marks rd).any fun m =>
            leadsTo w snd .afterGo m (romAt w j + 4)) ||
          (r.spot == .at .pollResume && (marksLoaded r.marks rd).any fun m =>
            leadsTo w snd .afterResume m (romAt w j + 4)))
      | .dret => r.spot == .at .outside && r.marks.back
      | i => (marksAfter snd r.marks i).any fun m => leadsTo w snd r.spot m (romAt w j + 4)

theorem rows_ok (hw : w = 32 ∨ w = 64) (snd : Bool) :
    ∀ j < (romCode snd).length, rowOk w snd j = true := by
  rcases hw with rfl | rfl <;> cases snd <;> decide

/-! ## Soundness of the analysis -/

/-- The hart's code is the ROM, at the base of the debug module. -/
structure RomAt (p : Params n) (ext : Extensions f) (fetch : BitVec w → BitVec 32) : Prop where
  width : w = 32 ∨ w = 64
  page : 4096 ∣ p.dmBaseAddress.toNat
  scratch : Scratch ext p.hasSndScratch
  mhartid : ext.readable CSR_MHARTID = true
  rom : Contains fetch (dmAddr w p (HaltAddress.setWidth 12)) (romCode p.hasSndScratch)

/-- The base of the debug module, as wide as a register. -/
def base (w : Nat) (p : Params n) : BitVec w := p.dmBaseAddress.setWidth w

section Soundness

variable {p : Params n} {ext : Extensions f} {fetch : BitVec w → BitVec 32} {h s : Hart w f} {b : Byte}
  {m m' k : Marks} {i : Instr}

theorem base_zero (hsnd : p.hasSndScratch = false) : base w p = 0 := by
  have hzero : p.dmBaseAddress = 0 := by simpa [Params.hasSndScratch] using hsnd
  rw [base, hzero]
  exact BitVec.setWidth_zero w 32

/-- What a source register holds. -/
theorem means_read (hm : m.Hold (base w p) h b s) (r : BitVec 5) :
    (m.read p.hasSndScratch r).Means (base w p) h b (s.x r) := by
  rw [Marks.read]
  split_ifs with h8 h10 h0
  · rw [h8]
    exact hm.s0
  · rw [h10]
    exact hm.a0
  · rw [h0.1]
    exact (base_zero h0.2).symm
  · trivial

theorem means_of_read (hm : m.Hold (base w p) h b s) {r : BitVec 5} {v : Val}
    (hr : m.read p.hasSndScratch r = v) : v.Means (base w p) h b (s.x r) := by
  rw [← hr]
  exact means_read hm r

/-- What a control register holds: the scratch registers what has been put there, and `mhartid` the number
    of the hart. -/
theorem means_csr (hm : m.Hold (base w p) h b s) (hu : Untouched h s) {c : BitVec 12} {v : Val}
    (hc : m.csr p.hasSndScratch c = some v) : v.Means (base w p) h b (s.csr c) := by
  rw [Marks.csr] at hc
  split_ifs at hc with hid h0 h1
  · rw [← Option.some.inj hc, hid]
    exact hu.csr _ (by decide) (by decide)
  · rw [← Option.some.inj hc, h0]
    exact hm.dscratch0
  · rw [← Option.some.inj hc, h1.2]
    exact hm.dscratch1

/-- A register is written.  What is known about the others stays known, and the hart is still untouched
    apart from the two registers that the ROM works with. -/
theorem hold_set (hm : m.Hold (base w p) h b s) (hu : Untouched h s) {r : BitVec 5} {v : Val}
    {x : BitVec w} (hset : m.set r v = some m') (hv : v.Means (base w p) h b x) :
    m'.Hold (base w p) h b (s.setX r x).advance ∧ Untouched h (s.setX r x).advance := by
  have h8 : (8 : BitVec 5) ≠ 0 := by decide
  have h10 : (10 : BitVec 5) ≠ 0 := by decide
  rw [Marks.set] at hset
  split_ifs at hset with hr8 hr10
  · -- `s0` is written: the mark of `s0` moves, the other three stay
    obtain rfl := Option.some.inj hset
    subst hr8
    constructor
    · constructor
      · rw [x_advance, x_setX_of_ne _ _ _ _ h8, if_pos rfl]
        exact hv
      · rw [x_advance, x_setX_of_ne _ _ _ _ h8, if_neg (by decide)]
        exact hm.a0
      · rw [csr_advance, csr_setX]
        exact hm.dscratch0
      · rw [csr_advance, csr_setX]
        exact hm.dscratch1
    · refine ⟨fun q hq8 hq10 => ?_, ?_, ?_⟩
      · rw [x_advance, x_setX_of_ne _ _ _ _ h8, if_neg hq8]
        exact hu.x q hq8 hq10
      · rw [csr_advance, csr_setX]
        exact hu.csr
      · rw [fpr_advance, fpr_setX]
        exact hu.fpr
  · -- `a0` is written
    obtain rfl := Option.some.inj hset
    subst hr10
    constructor
    · constructor
      · rw [x_advance, x_setX_of_ne _ _ _ _ h10, if_neg (by decide)]
        exact hm.s0
      · rw [x_advance, x_setX_of_ne _ _ _ _ h10, if_pos rfl]
        exact hv
      · rw [csr_advance, csr_setX]
        exact hm.dscratch0
      · rw [csr_advance, csr_setX]
        exact hm.dscratch1
    · refine ⟨fun q hq8 hq10 => ?_, ?_, ?_⟩
      · rw [x_advance, x_setX_of_ne _ _ _ _ h10, if_neg hq10]
        exact hu.x q hq8 hq10
      · rw [csr_advance, csr_setX]
        exact hu.csr
      · rw [fpr_advance, fpr_setX]
        exact hu.fpr

/-- A scratch register is written, and what is known about it is what is known about the value. -/
theorem hold_setCsr (hm : m.Hold (base w p) h b s) (hu : Untouched h s) {c : BitVec 12} {v : Val}
    {x : BitVec w} (hv : v.Means (base w p) h b x) :
    (c = CSR_DSCRATCH0 → ({ m with dscratch0 := v } : Marks).Hold (base w p) h b
        (s.setCsr c x).advance ∧ Untouched h (s.setCsr c x).advance) ∧
      (c = CSR_DSCRATCH1 → ({ m with dscratch1 := v } : Marks).Hold (base w p) h b
        (s.setCsr c x).advance ∧ Untouched h (s.setCsr c x).advance) := by
  constructor
  · rintro rfl
    -- the register that is written means the new value, and the other one is another register
    refine ⟨⟨hm.s0, hm.a0, ?_, ?_⟩, hu.x, fun c h0 h1 => ?_, hu.fpr⟩
    · rw [csr_advance, csr_setCsr, if_pos rfl]
      exact hv
    · rw [csr_advance, csr_setCsr, if_neg (by decide)]
      exact hm.dscratch1
    · rw [csr_advance, csr_setCsr, if_neg h0]
      exact hu.csr c h0 h1
  · rintro rfl
    refine ⟨⟨hm.s0, hm.a0, ?_, ?_⟩, hu.x, fun c h0 h1 => ?_, hu.fpr⟩
    · rw [csr_advance, csr_setCsr, if_neg (by decide)]
      exact hm.dscratch0
    · rw [csr_advance, csr_setCsr, if_pos rfl]
      exact hv
    · rw [csr_advance, csr_setCsr, if_neg h1]
      exact hu.csr c h0 h1

/-- An instruction that has a value for its destination register and accesses nothing.  All of the ROM's
    instructions but the writes of the scratch registers, the fence, the accesses and the jumps are of
    this kind; they differ in what the value means. -/
theorem hold_dest (hm : m.Hold (base w p) h b s) (hu : Untouched h s) {rd : BitVec 5} {v : Val}
    {x : BitVec w} (hexec : exec ext s i = .next (s.setX rd x).advance) (hops : memOps s i = [])
    (hset : m.set rd v = some m') (hv : v.Means (base w p) h b x) :
    ∃ s', exec ext s i = .next s' ∧ s'.pc = s.pc + 4 ∧ m'.Hold (base w p) h b s' ∧ Untouched h s' ∧
      memOps s i = [] := by
  obtain ⟨hhold, hunt⟩ := hold_set hm hu hset hv
  refine ⟨_, hexec, ?_, hhold, hunt, hops⟩
  rw [pc_advance, pc_setX]

/-- A write of a scratch register.  It reads no CSR, as the destination is `x0`. -/
theorem hold_csrw (hrom : RomAt p ext fetch) (hm : m.Hold (base w p) h b s) (hu : Untouched h s)
    {rd rs1 : BitVec 5} {c : BitVec 12}
    (hafter : marksAfter p.hasSndScratch m (.csrrw rd c rs1) = some m') :
    ∃ s', exec ext s (.csrrw rd c rs1) = .next s' ∧ s'.pc = s.pc + 4 ∧ m'.Hold (base w p) h b s' ∧
      Untouched h s' ∧ memOps s (.csrrw rd c rs1) = [] := by
  rw [marksAfter] at hafter
  split_ifs at hafter with h0 h1
  · -- `dscratch0`, which both ROMs have
    obtain rfl := Option.some.inj hafter
    obtain ⟨rfl, rfl⟩ := h0
    obtain ⟨hhold, -⟩ := hold_setCsr hm hu (c := CSR_DSCRATCH0) (means_read hm rs1)
    exact ⟨_, exec_csrw rs1 hrom.scratch.writable0, rfl, (hhold rfl).1, (hhold rfl).2, rfl⟩
  · -- `dscratch1`, in the ROM with two scratch registers only
    obtain rfl := Option.some.inj hafter
    obtain ⟨rfl, hsnd, rfl⟩ := h1
    obtain ⟨-, hhold⟩ := hold_setCsr hm hu (c := CSR_DSCRATCH1) (means_read hm rs1)
    exact ⟨_, exec_csrw rs1 (hrom.scratch.writable1 hsnd), rfl, (hhold rfl).1, (hhold rfl).2, rfl⟩

/-- A read of a control register.  The analysis knows three of them, and the hart has all three. -/
theorem hold_csrr (hrom : RomAt p ext fetch) (hm : m.Hold (base w p) h b s) (hu : Untouched h s)
    {rd rs1 : BitVec 5} {c : BitVec 12}
    (hafter : marksAfter p.hasSndScratch m (.csrrs rd c rs1) = some m') :
    ∃ s', exec ext s (.csrrs rd c rs1) = .next s' ∧ s'.pc = s.pc + 4 ∧ m'.Hold (base w p) h b s' ∧
      Untouched h s' ∧ memOps s (.csrrs rd c rs1) = [] := by
  rw [marksAfter] at hafter
  split_ifs at hafter with h0
  subst h0
  rw [Option.bind_eq_some_iff] at hafter
  obtain ⟨v, hc, hset⟩ := hafter
  have hreadable : ext.readable c = true := by
    rw [Marks.csr] at hc
    split_ifs at hc with hid h0 h1
    · rw [hid]
      exact hrom.mhartid
    · rw [h0]
      exact hrom.scratch.readable0
    · rw [h1.2]
      exact hrom.scratch.readable1 h1.1
  exact hold_dest hm hu (exec_csrr rd hreadable) rfl hset (means_csr hm hu hc)

/-- One bit of the flag byte.  The immediates are positive, so their sign extension is the mask. -/
theorem masked_byte (hw : w = 32 ∨ w = 64) {x : BitVec w} (hx : x = b.setWidth w) :
    x &&& (1 : BitVec 12).signExtend w = (b &&& 1).setWidth w ∧
      x &&& (2 : BitVec 12).signExtend w = (b &&& 2).setWidth w := by
  have hmask (y : BitVec 12) (z : Byte) (hyz : y.signExtend w = z.setWidth w) :
      x &&& y.signExtend w = (b &&& z).setWidth w := by
    rw [hx, hyz, BitVec.setWidth_and]
  exact ⟨hmask 1 1 (by rcases hw with rfl | rfl <;> decide),
    hmask 2 2 (by rcases hw with rfl | rfl <;> decide)⟩

/-- The mask that leaves one flag.  From then on the register is zero exactly if the flag is clear. -/
theorem hold_andi (hrom : RomAt p ext fetch) (hm : m.Hold (base w p) h b s) (hu : Untouched h s)
    {rd rs1 : BitVec 5} {imm : BitVec 12}
    (hafter : marksAfter p.hasSndScratch m (.andi rd rs1 imm) = some m') :
    ∃ s', exec ext s (.andi rd rs1 imm) = .next s' ∧ s'.pc = s.pc + 4 ∧ m'.Hold (base w p) h b s' ∧
      Untouched h s' ∧ memOps s (.andi rd rs1 imm) = [] := by
  rw [marksAfter] at hafter
  split_ifs at hafter with h1 h2
  · obtain ⟨hread, rfl⟩ := h1
    obtain ⟨hgo, -⟩ := masked_byte hrom.width (means_of_read hm hread)
    exact hold_dest hm hu rfl rfl hafter hgo
  · obtain ⟨hread, rfl⟩ := h2
    obtain ⟨-, hresume⟩ := masked_byte hrom.width (means_of_read hm hread)
    exact hold_dest hm hu rfl rfl hafter hresume

/-- **One instruction** that accesses nothing: the hart gets through it, and behind it holds what the
    analysis says. -/
theorem hold_exec (hrom : RomAt p ext fetch) (hm : m.Hold (base w p) h b s) (hu : Untouched h s)
    (hpc : ∃ off < 4096, s.pc = base w p + BitVec.ofNat w off)
    (hafter : marksAfter p.hasSndScratch m i = some m') :
    ∃ s', exec ext s i = .next s' ∧ s'.pc = s.pc + 4 ∧ m'.Hold (base w p) h b s' ∧ Untouched h s' ∧
      memOps s i = [] := by
  have h12 : 12 < w := width_lt hrom.width
  cases i with
  -- `fence` moves on and changes nothing
  | fence =>
    obtain rfl := Option.some.inj hafter
    exact ⟨s.advance, rfl, rfl, ⟨hm.s0, hm.a0, hm.dscratch0, hm.dscratch1⟩, ⟨hu.x, hu.csr, hu.fpr⟩,
      rfl⟩
  -- the scratch registers are written, and read back
  | csrrw rd c rs1 => exact hold_csrw hrom hm hu hafter
  | csrrs rd c rs1 => exact hold_csrr hrom hm hu hafter
  -- `auipc` with offset zero reads the program counter, which is inside the ROM
  | auipc rd imm =>
    rw [marksAfter] at hafter
    split_ifs at hafter with h0
    subst h0
    exact hold_dest hm hu exec_auipc_zero rfl hafter hpc
  -- right by twelve and left by twelve: the page, which is the base of the module;
  -- between the two shifts the mark stands for the number of the page
  | srli rd rs1 shamt =>
    rw [marksAfter] at hafter
    split_ifs at hafter with hk
    obtain ⟨hread, rfl⟩ := hk
    obtain ⟨off, hoff, hx⟩ := means_of_read hm hread
    have hpage : (s.x rs1 >>> (12 : BitVec 6).toNat) <<< 12 = base w p := by
      rw [hx]
      exact page_of_offset _ _ (Nat.le_of_lt h12) (page_setWidth p hrom.width hrom.page) hoff
    exact hold_dest hm hu (exec_srli rd rs1 12 h12) rfl hafter hpage
  | slli rd rs1 shamt =>
    rw [marksAfter] at hafter
    split_ifs at hafter with hk
    obtain ⟨hread, rfl⟩ := hk
    have hbase : s.x rs1 <<< (12 : BitVec 6).toNat = base w p := means_of_read hm hread
    exact hold_dest hm hu (exec_slli rd rs1 12 h12) rfl hafter hbase
  -- the number of the hart is added to the base, for the address of its flag byte
  | add rd rs1 rs2 =>
    rw [marksAfter] at hafter
    split_ifs at hafter with hk
    have hid : s.x rs1 = h.csr CSR_MHARTID := means_of_read hm hk.1
    have hbase : s.x rs2 = base w p := means_of_read hm hk.2
    have hsum : s.x rs1 + s.x rs2 = h.csr CSR_MHARTID + base w p := by rw [hid, hbase]
    exact hold_dest hm hu rfl rfl hafter hsum
  -- the flag byte is masked with the bit that is asked for
  | andi rd rs1 imm => exact hold_andi hrom hm hu hafter
  -- nothing else stands in the ROM outside its branches, loads and stores
  | _ => cases hafter

/-- Less is known, and it still holds.  A row may be reached in several ways, and it says what they have
    in common. -/
theorem hold_covers (hcovers : m.covers k = true) (hm : m.Hold (base w p) h b s) :
    k.Hold (base w p) h b s := by
  have hval {v u : Val} {x : BitVec w} (hv : (u == .any || u == v) = true)
      (hx : v.Means (base w p) h b x) : u.Means (base w p) h b x := by
    rw [Bool.or_eq_true, beq_iff_eq, beq_iff_eq] at hv
    rcases hv with rfl | rfl
    · trivial
    · exact hx
  rw [Marks.covers, Bool.and_eq_true, Bool.and_eq_true, Bool.and_eq_true] at hcovers
  obtain ⟨⟨⟨h0, h1⟩, h2⟩, h3⟩ := hcovers
  exact ⟨hval h0 hm.s0, hval h1 hm.a0, hval h2 hm.dscratch0, hval h3 hm.dscratch1⟩

/-- What is not about the flag byte stays when another one is loaded. -/
theorem means_steady {v : Val} (hv : v.steady = true) {b' : Byte} {x : BitVec w}
    (hx : v.Means (base w p) h b x) : v.Means (base w p) h b' x := by
  cases v with
  | byte | go | resume => cases hv
  | _ => exact hx

/-- The address of the hart's flag byte. -/
def flagAddr (p : Params n) (h : Hart w f) : BitVec w := dmAddr w p FlagsBaseAddr + h.csr CSR_MHARTID

/-- The register points at it, and so the load of the flag byte goes to the byte of this hart. -/
theorem effective_points (hrom : RomAt p ext fetch) (hm : m.Hold (base w p) h b s) {r : BitVec 5}
    (hp : m.points p.hasSndScratch r = true) : effective s r FlagsBaseAddr = flagAddr p h := by
  have himm : FlagsBaseAddr.signExtend w = (FlagsBaseAddr.setWidth w : BitVec w) := by
    rcases hrom.width with rfl | rfl <;> decide
  have hx : s.x r = h.csr CSR_MHARTID + base w p := by
    rw [Marks.points, Bool.or_eq_true, Bool.and_eq_true, beq_iff_eq, beq_iff_eq,
      Bool.not_eq_true'] at hp
    rcases hp with hread | ⟨hread, hsnd⟩
    · exact means_of_read hm hread
    · rw [base_zero hsnd]
      exact (means_of_read hm hread).trans (BitVec.add_zero _).symm
  rw [effective, hx, himm, flagAddr, dmAddr, ← base, BitVec.add_comm (h.csr CSR_MHARTID),
    BitVec.add_assoc, BitVec.add_comm (h.csr CSR_MHARTID), BitVec.add_assoc]

/-- **The load** of the flag byte.  From then on `b` is the byte that has been loaded, which is why no
    other place may still refer to an earlier one. -/
theorem hold_load (ext : Extensions f) (rs1 : BitVec 5) (imm : BitVec 12)
    (hm : m.Hold (base w p) h b s) (hu : Untouched h s) {rd : BitVec 5}
    (hload : marksLoaded m rd = some m') :
    ∃ s', exec ext s (.load 4 rd rs1 imm) = .next s' ∧ s'.pc = s.pc + 4 ∧
      m'.Hold (base w p) h (s.mem (effective s rs1 imm)) s' ∧ Untouched h s' ∧
      memOps s (.load 4 rd rs1 imm) = [.load (effective s rs1 imm) 1
        ((s.mem (effective s rs1 imm)).setWidth w)] := by
  have hbyte : (loadBytes s.mem (effective s rs1 imm) 1).setWidth w
      = (s.mem (effective s rs1 imm)).setWidth w := by
    rw [loadBytes_one]
  -- the marks that stay must not speak of the byte, since a new byte is there after the load:
  -- this is what `marksLoaded` checks
  rw [marksLoaded] at hload
  split_ifs at hload with hsteady
  rw [Bool.and_eq_true, Bool.and_eq_true, Bool.and_eq_true, beq_iff_eq] at hsteady
  obtain ⟨⟨⟨ha0, hd0⟩, hd1⟩, rfl⟩ := hsteady
  obtain rfl := Option.some.inj hload
  have hany : ({ m with s0 := .any } : Marks).Hold (base w p) h (s.mem (effective s rs1 imm)) s :=
    ⟨trivial, means_steady ha0 hm.a0, means_steady hd0 hm.dscratch0, means_steady hd1 hm.dscratch1⟩
  obtain ⟨hhold, hunt⟩ := hold_set hany hu (r := 8) (v := .byte)
    (x := (loadBytes s.mem (effective s rs1 imm) 1).setWidth w) rfl hbyte
  refine ⟨_, rfl, ?_, hhold, hunt, ?_⟩
  · rw [pc_advance, pc_setX]
  · rw [← hbyte]
    rfl

end Soundness

end RiscDbgUart.DebugRom
