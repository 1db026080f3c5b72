/-
  Register access commands as a compiler: what the generated program does to the hart.

  What a command is for: one register takes the value of the data register, or the data register takes
  the value of one register (`moved`).  The program may use `dscratch0` and `dscratch1`; everything
  else the hart has is the same after it as after that one move (`Agrees`).

  The proof follows the frame of the programs.  After the prologue the hart is `Based`: its base
  register points at the debug module, `a0` waits in `dscratch1`.  A move through `s0` leaves the
  registers as they were and changes one CSR or the data register (`throughS0_write`,
  `throughS0_read`), whichever CSR it goes by; the special path for `a0` is the case of `dscratch1`.
  The epilogue then finds in `dscratch1` what the prologue put there, or what the command put there
  for `a0`.

  A floating-point register is moved by one load or store of the width the command names, and a hart
  that has no floating-point access of that width traps on it.  There is none of one byte on any hart.

  From the run of the body to what the command is for:

  * `execs_gpr`, `execs_fpr`, `execs_a0`, `execs_movedAlone` — one lemma for each kind of target, in both
    directions;
  * `reaches_end`   — the body is what the hart executes from the first word on, and the state behind it is
    the first one at the end of the program;
  * `fpr_traps`     — the accesses that the hart does not have trap, and the end is not reached;
  * `transfers_iff` — so a register is transferred exactly when the hart has the access;
  * `csrTransferred_iff` — and a CSR exactly when it is none of the two that the program itself uses.
-/
import RiscDbgUart.AbstractPrograms
import RiscDbgUart.DmFetch

set_option linter.unusedVariables false

namespace RiscDbgUart.RegisterTransfers

open Riscv AbstractCmd AbstractPrograms SupportedCommands DmMem DmFetch

variable {n w f : Nat}

/-! ## The commands and the hart -/

/-- The hart has the scratch registers that the programs use. -/
structure Scratch (ext : Extensions f) (snd : Bool) : Prop where
  readable0 : ext.readable CSR_DSCRATCH0 = true
  writable0 : ext.writable CSR_DSCRATCH0 = true
  readable1 : snd = true → ext.readable CSR_DSCRATCH1 = true
  writable1 : snd = true → ext.writable CSR_DSCRATCH1 = true

/-- The hart of a debug module at work: `BusWidth` wide, the module at a page, and the hart about to
    execute the words generated for an implemented command. -/
structure Ready (p : Params n) (ext : Extensions f) (fetch : BitVec w → BitVec 32) (cmd : Command)
    (s : Hart w f) : Prop where
  width : w = 32 ∨ w = 64
  page : 4096 ∣ p.dmBaseAddress.toNat
  scratch : Scratch ext p.hasSndScratch
  command : Implemented w cmd
  code : Contains fetch (dmAddr w p AbstractCmdBaseAddr) (ofCommand w p.hasSndScratch cmd).words
  pc : s.pc = dmAddr w p AbstractCmdBaseAddr

/-- The bytes a command moves. -/
def bytes (ar : AcArCmd) : Nat := 2 ^ ar.aarsize.toNat

/-- The value an integer register takes from the data registers. -/
def loaded (p : Params n) (ar : AcArCmd) (s : Hart w f) : BitVec w :=
  (loadBytes s.mem (dmAddr w p DataAddr) (bytes ar)).signExtend w

/-- The memory after the data registers have taken a value. -/
def stored {k : Nat} (p : Params n) (ar : AcArCmd) (s : Hart w f) (v : BitVec k) :
    BitVec w → BitVec 8 :=
  storeBytes s.mem (dmAddr w p DataAddr) v (bytes ar)

/-- **What the command is for.** -/
def moved (p : Params n) (ar : AcArCmd) (s : Hart w f) : Hart w f :=
  match targetOf ar with
  | .gpr r =>
    if ar.write then s.setX r (loaded p ar s) else { s with mem := stored p ar s (s.x r) }
  | .fpr r =>
    if ar.write then
      { s with
        fpr := Function.update s.fpr r
          (nanBox f (loadBytes s.mem (dmAddr w p DataAddr) (bytes ar))) }
    else { s with mem := stored p ar s (s.fpr r) }
  | .csr c =>
    if ar.write then s.setCsr c (loaded p ar s) else { s with mem := stored p ar s (s.csr c) }

/-- Two harts have the same registers and memory, the scratch registers and the program counter
    apart. -/
structure Agrees (s t : Hart w f) : Prop where
  x : ∀ r, s.x r = t.x r
  fpr : s.fpr = t.fpr
  csr : ∀ c, c ≠ CSR_DSCRATCH0 → c ≠ CSR_DSCRATCH1 → s.csr c = t.csr c
  mem : s.mem = t.mem

/-- The hart is at the end of the program: at the `ebreak`, or in the program buffer. -/
def AtEnd (p : Params n) (ext : Extensions f) (fetch : BitVec w → BitVec 32) (ar : AcArCmd)
    (s : Hart w f) : Prop :=
  if ar.postexec then s.pc = dmAddr w p ProgBufBaseAddr
  else s.pc = dmAddr w p (AbstractCmdBaseAddr + 36) ∧ step ext fetch s = .ebreak

/-! ## Addresses and widths -/

/-- The widths of a command are widths of the hart. -/
theorem widths (hw : w = 32 ∨ w = 64) {z : BitVec 3} (hz : z.toNat < maxAar w) :
    loadWidth w z = some (2 ^ z.toNat, true) ∧ storeWidth w z = some (2 ^ z.toNat) := by
  rcases hw with rfl | rfl
  · revert z
    decide
  · revert z
    decide

theorem dataAddr_signExtend (hw : w = 32 ∨ w = 64) :
    DataAddr.signExtend w = (DataAddr.setWidth w : BitVec w) := by
  rcases hw with rfl | rfl <;> decide

/-! ## The frame of the programs -/

/-- The prologue has run: `a0` is saved and the base register points at the debug module. -/
structure Based (p : Params n) (s t : Hart w f) : Prop where
  x : ∀ r, t.x r = if p.hasSndScratch = true ∧ r = 10 then p.dmBaseAddress.setWidth w else s.x r
  csr : ∀ c, t.csr c
    = if p.hasSndScratch = true ∧ c = CSR_DSCRATCH1 then s.x 10 else s.csr c
  fpr : t.fpr = s.fpr
  mem : t.mem = s.mem

section Frame

variable {p : Params n} {ext : Extensions f} {s t : Hart w f}

/-- Both variants of the prologue make the base register point at the debug module.  Apart from it only
    `dscratch1` changes, which keeps `a0` where `a0` is that register. -/
theorem prologue_based (hw : w = 32 ∨ w = 64) (hpage : 4096 ∣ p.dmBaseAddress.toNat)
    (hscratch : Scratch ext p.hasSndScratch) (hpc : s.pc = dmAddr w p AbstractCmdBaseAddr) :
    ∃ t, execs ext (prologue p.hasSndScratch) s = some t ∧ Based p s t := by
  cases hsnd : p.hasSndScratch
  · -- without a second scratch register the debug module is in the zero page: the four words are
    -- `nop`s and the base is `x0`
    refine ⟨s.advance.advance.advance.advance, ?_, ?_, ?_, rfl, rfl⟩
    · rw [prologue, if_neg Bool.false_ne_true, execs_cons _ exec_nop, execs_cons _ exec_nop,
        execs_cons _ exec_nop, execs_cons _ exec_nop]
      rfl
    · intro r
      rw [hsnd, if_neg (fun h => Bool.false_ne_true h.1)]
      rfl
    · intro c
      rw [hsnd, if_neg (fun h => Bool.false_ne_true h.1)]
      rfl
  · -- otherwise `a0` is saved in `dscratch1` and gets the page of the pc, which is the page of the
    -- debug module because the program is in it
    have hw12 := width_lt hw
    have hbase : ((s.pc + 4) >>> 12) <<< 12 = p.dmBaseAddress.setWidth w := by
      have hadd : s.pc + 4 = dmAddr w p (AbstractCmdBaseAddr + 4) :=
        (congrArg (· + (4 : BitVec w)) hpc).trans (dmAddr_add p hw AbstractCmdBaseAddr 4 (by decide))
      rw [hadd, dmAddr, ← BitVec.ofNat_toNat w (AbstractCmdBaseAddr + 4)]
      exact page_of_offset _ _ (Nat.le_of_lt hw12) (page_setWidth p hw hpage) (by decide)
    let s₁ := (s.setCsr CSR_DSCRATCH1 (s.x 10)).advance
    obtain ⟨t, hrun, -, hx, hcsr, hfpr, hmem⟩ :=
      execs_page ext s₁ (by decide : (10 : BitVec 5) ≠ 0) hw12 []
    refine ⟨t, ?_, ?_, ?_, hfpr, hmem⟩
    · rw [prologue, if_pos rfl, execs_cons _ (exec_csrw 10 (hscratch.writable1 hsnd))]
      exact hrun
    · intro r
      rw [hx, hsnd, show s₁.pc = s.pc + 4 from rfl, hbase]
      by_cases hr : r = 10
      · rw [if_pos hr, if_pos ⟨rfl, hr⟩]
      · rw [if_neg hr, if_neg (fun h => hr h.2)]
        rfl
    · intro c
      rw [hcsr, hsnd, csr_advance, csr_setCsr]
      by_cases hc : c = CSR_DSCRATCH1
      · rw [if_pos hc, if_pos ⟨rfl, hc⟩]
      · rw [if_neg hc, if_neg (fun h => hc h.2)]

/-- The loads and stores of the programs go to the data registers, as their immediate is the address of
    the first one in the page. -/
theorem based_effective (hw : w = 32 ∨ w = 64) (h : Based p s t) :
    effective t (loadBaseAddr p.hasSndScratch) DataAddr = dmAddr w p DataAddr := by
  have hbase : t.x (loadBaseAddr p.hasSndScratch) = p.dmBaseAddress.setWidth w := by
    cases hsnd : p.hasSndScratch
    · have hzero : p.dmBaseAddress = 0 := by simpa [Params.hasSndScratch] using hsnd
      rw [hzero]
      exact (BitVec.setWidth_zero w 32).symm
    · rw [h.x, if_pos ⟨hsnd, rfl⟩]
  rw [effective, hbase, dataAddr_signExtend hw, dmAddr]

end Frame

/-! ## The moves -/

section Moves

variable {ext : Extensions f} {t t' : Hart w f}

theorem execs_alone {i : Instr} (h : exec ext t i = .next t') :
    execs ext (alone i) t = some t'.advance.advance.advance := by
  rw [alone, execs_cons _ h, execs_cons _ exec_nop, execs_cons _ exec_nop, execs_cons _ exec_nop]
  rfl

/-- What a move through `s0` into a CSR leaves behind: the CSR has the value, `s0` has what
    `dscratch0` holds then. -/
theorem throughS0_write {z : BitVec 3} {k : Nat} (base : BitVec 5) (imm c : BitVec 12)
    (hread : ext.readable CSR_DSCRATCH0 = true) (hsave : ext.writable CSR_DSCRATCH0 = true)
    (hc : ext.writable c = true) (hz : loadWidth w z = some (k, true)) {v : BitVec w}
    (hv : (loadBytes t.mem (effective t base imm) k).signExtend w = v) :
    ∃ u, execs ext (throughS0 (.load z 8 base imm) (.csrrw 0 c 8)) t = some u ∧
      (∀ r, u.x r = if r = 8 ∧ c = CSR_DSCRATCH0 then v else t.x r) ∧
      (∀ d, u.csr d = if d = c then v else if d = CSR_DSCRATCH0 then t.x 8 else t.csr d) ∧
      u.fpr = t.fpr ∧ u.mem = t.mem := by
  -- after the save of `s0`, after the load, and after the write of the CSR
  let t₁ := (t.setCsr CSR_DSCRATCH0 (t.x 8)).advance
  let t₂ := (t₁.setX 8 v).advance
  let t₃ := (t₂.setCsr c (t₂.x 8)).advance
  have hx : ∀ r, t₂.x r = if r = 8 then v else t.x r :=
    fun r => x_setX_of_ne t₁ 8 r _ (by decide)
  have hv₂ : t₂.x 8 = v := (hx 8).trans (if_pos rfl)
  refine ⟨(t₃.setX 8 (t₃.csr CSR_DSCRATCH0)).advance, ?_, ?_, ?_, ?_, ?_⟩
  · have hload : exec ext t₁ (.load z 8 base imm) = .next t₂ := by
      rw [exec_load 8 base imm hz]
      exact congrArg (fun b => Outcome.next (t₁.setX 8 b).advance) hv
    rw [throughS0, execs_cons _ (exec_csrw 8 hsave), execs_cons _ hload,
      execs_cons _ (exec_csrw 8 hc), execs_cons _ (exec_csrr 8 hread)]
    rfl
  · intro r
    -- the restore reads `dscratch0`: the saved `s0`, unless the CSR that was written is `dscratch0`
    -- itself
    have hsaved : t₃.csr CSR_DSCRATCH0 = if CSR_DSCRATCH0 = c then v else t.x 8 := by
      simp only [t₃, csr_advance, csr_setCsr, hv₂, t₂, t₁, csr_setX, if_true]
    rw [x_advance, x_setX_of_ne _ _ _ _ (by decide), hsaved]
    by_cases hr : r = 8
    · rw [if_pos hr]
      by_cases hc0 : CSR_DSCRATCH0 = c
      · rw [if_pos hc0, if_pos ⟨hr, hc0.symm⟩]
      · rw [if_neg hc0, if_neg (fun h => hc0 h.2.symm), hr]
    · rw [if_neg hr, if_neg (fun h => hr h.1)]
      exact (hx r).trans (if_neg hr)
  · intro d
    simp only [csr_advance, csr_setX, t₃, csr_setCsr, hv₂, t₂, t₁]
  · simp only [t₃, t₂, t₁, fpr_advance, fpr_setX, fpr_setCsr]
  · simp only [t₃, t₂, t₁, mem_advance, mem_setX, mem_setCsr]

/-- A move through `s0` out of a CSR leaves the registers as they were.  What is stored is the CSR, but
    for `dscratch0`, in which `s0` is waiting. -/
theorem throughS0_read {z : BitVec 3} {k : Nat} (base : BitVec 5) (imm c : BitVec 12)
    (hread : ext.readable CSR_DSCRATCH0 = true) (hsave : ext.writable CSR_DSCRATCH0 = true)
    (hc : ext.readable c = true) (hz : storeWidth w z = some k) (hbase : base ≠ 8) {a : BitVec w}
    (ha : effective t base imm = a) :
    ∃ u, execs ext (throughS0 (.csrrs 8 c 0) (.store z 8 base imm)) t = some u ∧
      (∀ r, u.x r = t.x r) ∧
      (∀ d, u.csr d = if d = CSR_DSCRATCH0 then t.x 8 else t.csr d) ∧
      u.fpr = t.fpr ∧
      u.mem = storeBytes t.mem a (if c = CSR_DSCRATCH0 then t.x 8 else t.csr c) k := by
  -- the states behind the save, the read of the CSR and the store
  let t₁ := (t.setCsr CSR_DSCRATCH0 (t.x 8)).advance
  let t₂ := (t₁.setX 8 (t₁.csr c)).advance
  let t₃ : Hart w f := ({ t₂ with mem := storeBytes t₂.mem a (t₂.x 8) k } : Hart w f).advance
  have hx : ∀ r, t₂.x r = if r = 8 then t₁.csr c else t.x r :=
    fun r => x_setX_of_ne t₁ 8 r _ (by decide)
  refine ⟨(t₃.setX 8 (t₃.csr CSR_DSCRATCH0)).advance, ?_, ?_, ?_, ?_, ?_⟩
  · have hstore : exec ext t₂ (.store z 8 base imm) = .next t₃ := by
      rw [exec_store 8 base imm hz, effective, hx, if_neg hbase, ← effective, ha]
    rw [throughS0, execs_cons _ (exec_csrw 8 hsave), execs_cons _ (exec_csrr 8 hc),
      execs_cons _ hstore, execs_cons _ (exec_csrr 8 hread)]
    rfl
  · intro r
    have hsaved : t₃.csr CSR_DSCRATCH0 = t.x 8 := by
      simp only [t₃, t₂, t₁, csr_advance, csr_setX, csr_setCsr, if_true]
    rw [x_advance, x_setX_of_ne _ _ _ _ (by decide), hsaved]
    by_cases hr : r = 8
    · rw [if_pos hr, hr]
    · rw [if_neg hr]
      exact (hx r).trans (if_neg hr)
  · intro d
    simp only [t₃, t₂, t₁, csr_advance, csr_setX, csr_setCsr]
  · simp only [t₃, t₂, t₁, fpr_advance, fpr_setX, fpr_setCsr]
  · -- the save has overwritten `dscratch0` when it is the CSR that is read
    have hvalue : t₂.x 8 = if c = CSR_DSCRATCH0 then t.x 8 else t.csr c := by
      rw [hx, if_pos rfl]
      exact csr_setCsr t CSR_DSCRATCH0 c (t.x 8)
    rw [mem_advance, mem_setX]
    show storeBytes t₂.mem a (t₂.x 8) k = _
    rw [hvalue]
    simp only [t₂, t₁, mem_advance, mem_setX, mem_setCsr]

end Moves

/-! ## The end of a program -/

/-- The epilogue has run: `a0` is what `dscratch1` holds. -/
structure Restored (snd : Bool) (u e : Hart w f) : Prop where
  x : ∀ r, e.x r = if snd = true ∧ r = 10 then u.csr CSR_DSCRATCH1 else u.x r
  csr : e.csr = u.csr
  fpr : e.fpr = u.fpr
  mem : e.mem = u.mem

section Programs

variable {p : Params n} {ext : Extensions f} {s t u : Hart w f}

/-- The epilogue brings `a0` back, or is a `nop` where it never left. -/
theorem epilogue_restored {snd : Bool} (hscratch : Scratch ext snd) (u : Hart w f) :
    ∃ e, execs ext [epilogue snd] u = some e ∧ Restored snd u e := by
  cases hsnd : snd
  · refine ⟨u.advance, ?_, ?_, rfl, rfl, rfl⟩
    · rw [epilogue, if_neg Bool.false_ne_true, execs_cons _ exec_nop]
      rfl
    · intro r
      rw [if_neg (fun h => Bool.false_ne_true h.1)]
      rfl
  · refine ⟨(u.setX 10 (u.csr CSR_DSCRATCH1)).advance, ?_, ?_, ?_, ?_, ?_⟩
    · rw [epilogue, if_pos rfl, execs_cons _ (exec_csrr 10 (hscratch.readable1 hsnd))]
      rfl
    · intro r
      rw [x_advance, x_setX_of_ne _ _ _ _ (by decide)]
      exact if_congr (and_iff_right rfl).symm rfl rfl
    · rw [csr_advance, csr_setX]
    · rw [fpr_advance, fpr_setX]
    · rw [mem_advance, mem_setX]

/-- From the start of a program to its last instruction, once the move is known. -/
theorem execs_body (hscratch : Scratch ext p.hasSndScratch) {ar : AcArCmd}
    (ht : execs ext (prologue p.hasSndScratch) s = some t)
    (hu : execs ext (middle p.hasSndScratch ar) t = some u) :
    ∃ e, execs ext (body p.hasSndScratch ar) s = some e ∧ Restored p.hasSndScratch u e := by
  obtain ⟨e, he, hrestored⟩ := epilogue_restored hscratch u
  refine ⟨e, ?_, hrestored⟩
  rw [body, execs_append, execs_append, ht, Option.bind_some, hu, Option.bind_some, he]

/-- What a program that writes the CSR `c` through `s0` does to the hart. -/
structure WrittenThrough (snd : Bool) (c : BitVec 12) (v : BitVec w) (s e : Hart w f) : Prop where
  x : ∀ r, e.x r = if snd = true ∧ r = 10 then (if c = CSR_DSCRATCH1 then v else s.x 10)
    else if r = 8 ∧ c = CSR_DSCRATCH0 then v else s.x r
  target : e.csr c = v
  csr : ∀ d, d ≠ c → d ≠ CSR_DSCRATCH0 → d ≠ CSR_DSCRATCH1 → e.csr d = s.csr d
  fpr : e.fpr = s.fpr
  mem : e.mem = s.mem

/-- What a program that reads the CSR `c` through `s0` does to the hart. -/
structure ReadThrough (p : Params n) (ar : AcArCmd) (c : BitVec 12) (s e : Hart w f) : Prop where
  x : ∀ r, e.x r = s.x r
  csr : ∀ d, d ≠ CSR_DSCRATCH0 → d ≠ CSR_DSCRATCH1 → e.csr d = s.csr d
  fpr : e.fpr = s.fpr
  mem : e.mem = stored p ar s
    (if c = CSR_DSCRATCH0 then s.x 8
      else if p.hasSndScratch = true ∧ c = CSR_DSCRATCH1 then s.x 10 else s.csr c)

/-- `s0` is none of the prologue's business. -/
theorem based_s0 (h : Based p s t) : t.x 8 = s.x 8 := by
  rw [h.x, if_neg]
  exact fun h => absurd h.2 (by decide)

theorem loadBase_ne_s0 (snd : Bool) : loadBaseAddr snd ≠ 8 := by cases snd <;> decide

theorem execs_writtenThrough (hw : w = 32 ∨ w = 64) (hscratch : Scratch ext p.hasSndScratch)
    {ar : AcArCmd} (hsize : ar.aarsize.toNat < maxAar w) {c : BitVec 12} (hc : ext.writable c = true)
    (hmiddle : middle p.hasSndScratch ar
      = throughS0 (.load ar.aarsize 8 (loadBaseAddr p.hasSndScratch) DataAddr) (.csrrw 0 c 8))
    (hrun : execs ext (prologue p.hasSndScratch) s = some t) (hbased : Based p s t) :
    ∃ e, execs ext (body p.hasSndScratch ar) s = some e ∧
      WrittenThrough p.hasSndScratch c (loaded p ar s) s e := by
  have hv : (loadBytes t.mem (effective t (loadBaseAddr p.hasSndScratch) DataAddr)
      (bytes ar)).signExtend w = loaded p ar s := by
    rw [based_effective hw hbased, hbased.mem, loaded]
  obtain ⟨u, hmove, hx, hcsr, hfpr, hmem⟩ := throughS0_write (loadBaseAddr p.hasSndScratch) DataAddr c
    hscratch.readable0 hscratch.writable0 hc (widths hw hsize).1 hv
  rw [← hmiddle] at hmove
  obtain ⟨e, hbody, hrestored⟩ := execs_body hscratch hrun hmove
  refine ⟨e, hbody, ?_, ?_, ?_, ?_, ?_⟩
  · intro r
    rw [hrestored.x]
    by_cases hr : p.hasSndScratch = true ∧ r = 10
    · -- `a0` comes back from `dscratch1`, which the move may have written
      have hsaved : t.csr CSR_DSCRATCH1 = s.x 10 := (hbased.csr _).trans (if_pos ⟨hr.1, rfl⟩)
      rw [if_pos hr, if_pos hr, hcsr, if_neg (by decide : ¬ CSR_DSCRATCH1 = CSR_DSCRATCH0), hsaved]
      exact if_congr eq_comm rfl rfl
    · rw [if_neg hr, if_neg hr, hx, hbased.x, if_neg hr]
  · -- the CSR itself
    rw [hrestored.csr, hcsr, if_pos rfl]
  · intro d hd h0 h1
    rw [hrestored.csr, hcsr, if_neg hd, if_neg h0, hbased.csr, if_neg (fun h => h1 h.2)]
  · rw [hrestored.fpr, hfpr, hbased.fpr]
  · rw [hrestored.mem, hmem, hbased.mem]

theorem execs_readThrough (hw : w = 32 ∨ w = 64) (hscratch : Scratch ext p.hasSndScratch)
    {ar : AcArCmd} (hsize : ar.aarsize.toNat < maxAar w) {c : BitVec 12} (hc : ext.readable c = true)
    (hmiddle : middle p.hasSndScratch ar
      = throughS0 (.csrrs 8 c 0) (.store ar.aarsize 8 (loadBaseAddr p.hasSndScratch) DataAddr))
    (hrun : execs ext (prologue p.hasSndScratch) s = some t) (hbased : Based p s t) :
    ∃ e, execs ext (body p.hasSndScratch ar) s = some e ∧ ReadThrough p ar c s e := by
  obtain ⟨u, hmove, hx, hcsr, hfpr, hmem⟩ := throughS0_read (loadBaseAddr p.hasSndScratch) DataAddr c
    hscratch.readable0 hscratch.writable0 hc (widths hw hsize).2 (loadBase_ne_s0 _)
    (based_effective hw hbased)
  rw [← hmiddle] at hmove
  obtain ⟨e, hbody, hrestored⟩ := execs_body hscratch hrun hmove
  refine ⟨e, hbody, ?_, ?_, ?_, ?_⟩
  · intro r
    rw [hrestored.x]
    -- `a0` comes back from `dscratch1`
    by_cases hr : p.hasSndScratch = true ∧ r = 10
    · rw [if_pos hr, hcsr, if_neg (by decide : ¬ CSR_DSCRATCH1 = CSR_DSCRATCH0), hbased.csr,
        if_pos ⟨hr.1, rfl⟩, hr.2]
    · rw [if_neg hr, hx, hbased.x, if_neg hr]
  · intro d h0 h1
    rw [hrestored.csr, hcsr, if_neg h0, hbased.csr, if_neg (fun h => h1 h.2)]
  · rw [hrestored.fpr, hfpr, hbased.fpr]
  · rw [hrestored.mem, hmem, hbased.mem, hbased.csr, based_s0 hbased]
    rfl

/-- A program whose move is one instruction does what that instruction does, the base register
    apart. -/
theorem execs_movedAlone (hscratch : Scratch ext p.hasSndScratch) {ar : AcArCmd} {i : Instr}
    {t' m : Hart w f} (hi : exec ext t i = .next t')
    (hmiddle : middle p.hasSndScratch ar = alone i)
    (hrun : execs ext (prologue p.hasSndScratch) s = some t) (hbased : Based p s t)
    (hx : ∀ r, ¬ (p.hasSndScratch = true ∧ r = 10) → t'.x r = m.x r)
    (hbase : p.hasSndScratch = true → m.x 10 = s.x 10)
    (hkeep : t'.csr = t.csr) (hcsr : m.csr = s.csr) (hfpr : t'.fpr = m.fpr) (hmem : t'.mem = m.mem) :
    ∃ e, execs ext (body p.hasSndScratch ar) s = some e ∧ Agrees e m := by
  have hmove := execs_alone hi
  rw [← hmiddle] at hmove
  obtain ⟨e, hbody, hrestored⟩ := execs_body hscratch hrun hmove
  refine ⟨e, hbody, ?_, hrestored.fpr.trans hfpr, ?_, hrestored.mem.trans hmem⟩
  · intro r
    rw [hrestored.x]
    by_cases hr : p.hasSndScratch = true ∧ r = 10
    · -- the epilogue brings `a0` back, so what the move did to it does not matter
      have hsaved : t'.csr CSR_DSCRATCH1 = s.x 10 := by rw [hkeep, hbased.csr, if_pos ⟨hr.1, rfl⟩]
      rw [if_pos hr, hr.2, hbase hr.1]
      exact hsaved
    · rw [if_neg hr]
      exact hx r hr
  · intro d _ h1
    have hsame : t'.csr d = s.csr d := by rw [hkeep, hbased.csr, if_neg (fun h => h1 h.2)]
    rw [hrestored.csr, hcsr]
    exact hsame

/-- What the data registers hold is still there after the prologue. -/
theorem based_loaded (hw : w = 32 ∨ w = 64) (hbased : Based p s t) (k : Nat) :
    loadBytes t.mem (effective t (loadBaseAddr p.hasSndScratch) DataAddr) k
      = loadBytes s.mem (dmAddr w p DataAddr) k := by
  rw [based_effective hw hbased, hbased.mem]

/-- One instruction moves an integer register other than the base register: a load or a store of the
    width of the command. -/
theorem execs_gpr (hw : w = 32 ∨ w = 64) (hscratch : Scratch ext p.hasSndScratch) {ar : AcArCmd}
    (hsize : ar.aarsize.toNat < maxAar w) {r : BitVec 5} (htarget : targetOf ar = .gpr r)
    (hother : ¬ (p.hasSndScratch = true ∧ r = 10))
    (hrun : execs ext (prologue p.hasSndScratch) s = some t) (hbased : Based p s t) :
    ∃ e, execs ext (body p.hasSndScratch ar) s = some e ∧ Agrees e (moved p ar s) := by
  have hother' : ∀ q, ¬ (p.hasSndScratch = true ∧ q = 10) → t.x q = s.x q := fun q hq =>
    (hbased.x q).trans (if_neg hq)
  cases hwrite : ar.write
  · -- a read stores the register to the data registers
    have hmoved : moved p ar s = { s with mem := stored p ar s (s.x r) } := by
      simp only [moved, htarget, hwrite, Bool.false_eq_true, if_false]
    rw [hmoved]
    refine execs_movedAlone hscratch (exec_store r (loadBaseAddr p.hasSndScratch) DataAddr
      (widths hw hsize).2) ?_ hrun hbased hother' (fun _ => rfl) rfl rfl hbased.fpr ?_
    · simp only [middle, hwrite, reads, htarget, if_neg hother, Bool.false_eq_true, if_false]
    · rw [mem_advance, based_effective hw hbased, hbased.mem, hother' r hother, stored, bytes]
  · -- a write loads it from there
    have hmoved : moved p ar s = s.setX r (loaded p ar s) := by
      simp only [moved, htarget, hwrite, if_true]
    rw [hmoved]
    refine execs_movedAlone hscratch (exec_load r (loadBaseAddr p.hasSndScratch) DataAddr
      (widths hw hsize).1) ?_ hrun hbased ?_ ?_ ?_ ?_ ?_ ?_
    · simp only [middle, hwrite, writes, htarget, if_neg hother, if_true]
    · intro q hq
      rw [x_advance, x_setX, x_setX, hother' q hq, based_loaded hw hbased, loaded, bytes]
    · intro hsnd
      rw [x_setX, if_neg]
      rintro ⟨h10, -⟩
      exact hother ⟨hsnd, h10.symm⟩
    · rw [csr_advance, csr_setX]
    · rw [csr_setX]
    · rw [fpr_advance, fpr_setX, fpr_setX, hbased.fpr]
    · rw [mem_advance, mem_setX, mem_setX, hbased.mem]

/-- A floating-point register is moved where the hart has an access of that width.  A narrower value is
    boxed, which is what `moved` says too. -/
theorem execs_fpr (hw : w = 32 ∨ w = 64) (hscratch : Scratch ext p.hasSndScratch) {ar : AcArCmd}
    {r : BitVec 5} (htarget : targetOf ar = .fpr r) (hfp : ext.fp ar.aarsize = true)
    (hrun : execs ext (prologue p.hasSndScratch) s = some t) (hbased : Based p s t) :
    ∃ e, execs ext (body p.hasSndScratch ar) s = some e ∧ Agrees e (moved p ar s) := by
  have hother : ∀ q, ¬ (p.hasSndScratch = true ∧ q = 10) → t.x q = s.x q := fun q hq =>
    (hbased.x q).trans (if_neg hq)
  cases hwrite : ar.write
  · -- a read stores it; the base register is the only integer register that is not the hart's own
    have hmoved : moved p ar s = { s with mem := stored p ar s (s.fpr r) } := by
      simp only [moved, htarget, hwrite, Bool.false_eq_true, if_false]
    rw [hmoved]
    refine execs_movedAlone hscratch (exec_storeFp r (loadBaseAddr p.hasSndScratch) DataAddr hfp) ?_
      hrun hbased hother (fun _ => rfl) rfl rfl hbased.fpr ?_
    · simp only [middle, hwrite, reads, htarget, Bool.false_eq_true, if_false]
    · rw [mem_advance, based_effective hw hbased, hbased.mem, hbased.fpr, stored, bytes]
  · -- a write loads it, boxed to the width of the file
    have hmoved : moved p ar s
        = { s with
          fpr := Function.update s.fpr r
            (nanBox f (loadBytes s.mem (dmAddr w p DataAddr) (bytes ar))) } := by
      simp only [moved, htarget, hwrite, if_true]
    rw [hmoved]
    refine execs_movedAlone hscratch (exec_loadFp r (loadBaseAddr p.hasSndScratch) DataAddr hfp) ?_
      hrun hbased hother (fun _ => rfl) rfl rfl ?_ hbased.mem
    · simp only [middle, hwrite, writes, htarget, if_true]
    · rw [fpr_advance, based_loaded hw hbased, hbased.fpr, bytes]

/-- `a0` itself is moved by way of `dscratch1`, where the prologue and the epilogue keep it. -/
theorem execs_a0 (hw : w = 32 ∨ w = 64) (hscratch : Scratch ext p.hasSndScratch) {ar : AcArCmd}
    (hsize : ar.aarsize.toNat < maxAar w) (htarget : targetOf ar = .gpr 10)
    (hsnd : p.hasSndScratch = true)
    (hrun : execs ext (prologue p.hasSndScratch) s = some t) (hbased : Based p s t) :
    ∃ e, execs ext (body p.hasSndScratch ar) s = some e ∧ Agrees e (moved p ar s) := by
  have hapart : ¬ CSR_DSCRATCH1 = CSR_DSCRATCH0 := by decide
  cases hwrite : ar.write
  · -- a read goes through `s0`, whose own value waits in `dscratch0`
    obtain ⟨e, hbody, hread⟩ := execs_readThrough hw hscratch hsize (hscratch.readable1 hsnd)
      (by simp only [middle, hwrite, reads, htarget, hsnd, and_self, if_true, Bool.false_eq_true,
        if_false]) hrun hbased
    have hmoved : moved p ar s = { s with mem := stored p ar s (s.x 10) } := by
      simp only [moved, htarget, hwrite, Bool.false_eq_true, if_false]
    rw [hmoved]
    refine ⟨e, hbody, hread.x, hread.fpr, hread.csr, ?_⟩
    rw [hread.mem, if_neg hapart, if_pos ⟨hsnd, rfl⟩]
  · -- a write leaves the value in `dscratch1`, and the epilogue puts it into `a0`
    obtain ⟨e, hbody, hwritten⟩ := execs_writtenThrough hw hscratch hsize (hscratch.writable1 hsnd)
      (by simp only [middle, hwrite, writes, htarget, hsnd, and_self, if_true]) hrun hbased
    have hmoved : moved p ar s = s.setX 10 (loaded p ar s) := by
      simp only [moved, htarget, hwrite, if_true]
    rw [hmoved]
    refine ⟨e, hbody, ?_, ?_, ?_, ?_⟩
    · intro r
      rw [hwritten.x, x_setX_of_ne _ _ _ _ (by decide), if_pos rfl,
        if_neg (fun h : r = 8 ∧ CSR_DSCRATCH1 = CSR_DSCRATCH0 => hapart h.2)]
      exact if_congr (and_iff_right hsnd) rfl rfl
    · rw [fpr_setX, hwritten.fpr]
    · intro d h0 h1
      rw [csr_setX, hwritten.csr d h1 h0 h1]
    · rw [mem_setX, hwritten.mem]

end Programs

/-! ## From the first word to the end -/

section Runs

variable {p : Params n} {ext : Extensions f} {fetch : BitVec w → BitVec 32} {cmd : Command}
  {s e : Hart w f}

theorem ready_size (h : Ready p ext fetch cmd s) : (acAr cmd).aarsize.toNat < maxAar w := by
  by_contra hge
  exact h.command.2.2 (Or.inr ⟨h.command.2.1, Or.inl (by omega)⟩)

/-- The hart of a ready debug module has the program in front of it. -/
theorem ready_presents (h : Ready p ext fetch cmd s) :
    Presents fetch s.pc (body p.hasSndScratch (acAr cmd) ++ [leave (acAr cmd).postexec]) := by
  rw [h.pc]
  exact presents_of_contains _ _ h.code
    (decode_words (implemented_supported _ h.command) h.command.2.1)

theorem straight_body (snd : Bool) (ar : AcArCmd) : ∀ i ∈ body snd ar, i.straight = true := by
  rw [← List.all_eq_true]
  unfold body prologue middle writes reads epilogue throughS0 alone
  cases snd <;> cases ar.write <;> cases targetOf ar <;> dsimp only <;> split_ifs <;> rfl

theorem length_body (snd : Bool) (ar : AcArCmd) : (body snd ar).length = 9 := by
  unfold body prologue middle writes reads epilogue throughS0 alone
  cases snd <;> cases ar.write <;> cases targetOf ar <;> dsimp only <;> split_ifs <;> rfl

/-- How far behind its first word a program ends. -/
def endOffset (ar : AcArCmd) : Nat := if ar.postexec then 40 else 36

/-- The end is at a fixed offset from the start of the program. -/
theorem atEnd_pc (h : Ready p ext fetch cmd s) (hend : AtEnd p ext fetch (acAr cmd) e) :
    e.pc = s.pc + BitVec.ofNat w (endOffset (acAr cmd)) := by
  rw [h.pc]
  unfold AtEnd at hend
  unfold endOffset
  cases hpost : (acAr cmd).postexec
  · rw [hpost, if_neg Bool.false_ne_true] at hend
    rw [if_neg Bool.false_ne_true, dmAddr_add p h.width _ _ (by decide), hend.1]
    rfl
  · rw [hpost, if_pos rfl] at hend
    rw [if_pos rfl, dmAddr_add p h.width _ _ (by decide), hend]
    exact congrArg (dmAddr w p) (by decide)

/-- Inside the program the end is not reached, as its offset is larger. -/
theorem not_atEnd (h : Ready p ext fetch cmd s) {j : Nat} (hj : 4 * j < endOffset (acAr cmd))
    (hpc : e.pc = s.pc + BitVec.ofNat w (4 * j)) : ¬ AtEnd p ext fetch (acAr cmd) e := by
  intro hend
  have hsame := hpc.symm.trans (atEnd_pc h hend)
  have hoff : endOffset (acAr cmd) ≤ 40 := by unfold endOffset; split_ifs <;> omega
  have hw : 2 ^ 32 ≤ 2 ^ w := Nat.pow_le_pow_right (by decide) (by have := h.width; omega)
  rw [BitVec.add_right_inj, ← BitVec.toNat_inj, BitVec.toNat_ofNat, BitVec.toNat_ofNat,
    Nat.mod_eq_of_lt (by omega), Nat.mod_eq_of_lt (by omega)] at hsame
  omega

/-- **Every program that gets through its body reaches the end**, and is there for the first time.  A
    program has no loops, so the instructions before the end are at smaller offsets. -/
theorem reaches_end (h : Ready p ext fetch cmd s)
    (he : execs ext (body p.hasSndScratch (acAr cmd)) s = some e) :
    FirstAt ext fetch (AtEnd p ext fetch (acAr cmd)) s (if (acAr cmd).postexec then e.advance else e) := by
  have hcode := ready_presents h
  have hstraight := straight_body p.hasSndScratch (acAr cmd)
  obtain ⟨hbody, hlast⟩ := (presents_append _ _).mp hcode
  have hrun : steps ext fetch 9 s = some e := by
    rw [← length_body p.hasSndScratch (acAr cmd), steps_of_presents _ _ hbody hstraight, he]
  have hpc : e.pc = s.pc + BitVec.ofNat w 36 := by
    rw [execs_pc _ _ _ hstraight he, length_body]
  rw [length_body, ← hpc] at hlast
  -- after `j` words the hart is at word `j`, so it has not been at the end before
  have hearly : ∀ j < 9, ∀ u, steps ext fetch j s = some u → u.pc = s.pc + BitVec.ofNat w (4 * j) :=
    fun j hj u hu => steps_pc _ hbody hstraight (by rw [length_body]; omega) hu
  cases hpost : (acAr cmd).postexec
  · -- the end is the `ebreak` behind the body
    rw [hpost] at hlast
    have hoff : endOffset (acAr cmd) = 36 := by rw [endOffset, hpost]; rfl
    refine ⟨9, hrun, ?_, fun j hj u hu => not_atEnd (j := j) h (by omega) (hearly j hj u hu)⟩
    rw [AtEnd, hpost, if_neg Bool.false_ne_true]
    refine ⟨?_, step_of_presents hlast⟩
    rw [if_neg Bool.false_ne_true, hpc, h.pc, dmAddr_add p h.width _ _ (by decide)]
    rfl
  · -- the word behind the body is a `nop`, and the program buffer is next
    rw [hpost] at hlast
    have hoff : endOffset (acAr cmd) = 40 := by rw [endOffset, hpost]; rfl
    refine ⟨10, ?_, ?_, ?_⟩
    · have hnop : step ext fetch e = .next e.advance := (step_of_presents hlast).trans exec_nop
      rw [steps_add 9 1, hrun, Option.bind_some, steps, hnop]
      rfl
    · have hnext : BitVec.ofNat w 36 + 4 = BitVec.ofNat w 40 := (BitVec.ofNat_add 36 4).symm
      rw [AtEnd, hpost, if_pos rfl, if_pos rfl, pc_advance, hpc, h.pc, BitVec.add_assoc, hnext,
        dmAddr_add p h.width _ _ (by decide)]
      exact congrArg (dmAddr w p) (by decide)
    · intro j hj u hu
      rcases Nat.lt_or_ge j 9 with hlt | hge
      · exact not_atEnd (j := j) h (by omega) (hearly j hlt u hu)
      · obtain rfl : j = 9 := by omega
        rw [hrun, Option.some.injEq] at hu
        rw [← hu]
        exact not_atEnd (j := 9) h (by omega) hpc

/-! ## Integer and floating-point registers -/

/-- The program reaches its end, and what it did there is what the command is for. -/
def Transfers (p : Params n) (ext : Extensions f) (fetch : BitVec w → BitVec 32) (cmd : Command)
    (s : Hart w f) : Prop :=
  ∃ e, FirstAt ext fetch (AtEnd p ext fetch (acAr cmd)) s e ∧ Agrees e (moved p (acAr cmd) s)

/-- The instruction behind the end, if any, does not matter. -/
theorem agrees_end {m : Hart w f} (h : Agrees e m) (postexec : Bool) :
    Agrees (if postexec then e.advance else e) m := by
  cases postexec
  · exact h
  · exact ⟨h.x, h.fpr, h.csr, h.mem⟩

/-- A register number above the CSRs: bit 5 tells the floating-point registers from the integer ones,
    and the five bits below it are the number. -/
theorem targetOf_register {ar : AcArCmd} (himpl : ar.regno.toNat ≤ 0x103F)
    (hreg : 0x1000 ≤ ar.regno.toNat) :
    targetOf ar = if ar.regno.getLsbD 5 then .fpr (ar.regno.extractLsb' 0 5)
      else .gpr (ar.regno.extractLsb' 0 5) := by
  have hbit : ar.regno.getLsbD 12 = true := by
    rw [BitVec.getLsbD, Nat.testBit_eq_decide_div_mod_eq]
    simp only [decide_eq_true_eq]
    omega
  rw [targetOf, if_pos hbit]

theorem ready_regno (h : Ready p ext fetch cmd s) : (acAr cmd).regno.toNat ≤ 0x103F := by
  by_contra hgt
  exact h.command.2.2 (Or.inr ⟨h.command.2.1, Or.inr (Or.inl (by omega))⟩)

/-- The load or the store that a floating-point register's program moves the register by. -/
def fprAccess (snd : Bool) (ar : AcArCmd) (r : BitVec 5) : Instr :=
  if ar.write then .loadFp ar.aarsize r (loadBaseAddr snd) DataAddr
  else .storeFp ar.aarsize r (loadBaseAddr snd) DataAddr

/-- The program traps at its access to the floating-point register `r`, before any register or byte of
    memory that it is about has changed, and so there is no state in which it has come to its end. -/
structure Traps (p : Params n) (ext : Extensions f) (fetch : BitVec w → BitVec 32) (cmd : Command)
    (r : BitVec 5) (s : Hart w f) : Prop where
  access : ∃ k u, steps ext fetch k s = some u ∧
    decode (fetch u.pc) = some (fprAccess p.hasSndScratch (acAr cmd) r) ∧
    step ext fetch u = .trap ∧ u.fpr = s.fpr ∧ u.mem = s.mem
  endless : ∀ e, ¬ FirstAt ext fetch (AtEnd p ext fetch (acAr cmd)) s e

/-- The access is the instruction right behind the prologue. -/
theorem body_fpr {ar : AcArCmd} {r : BitVec 5} (snd : Bool) (htarget : targetOf ar = .fpr r) :
    ∃ is, body snd ar = prologue snd ++ [fprAccess snd ar r] ++ is := by
  refine ⟨[.addi 0 0 0, .addi 0 0 0, .addi 0 0 0, epilogue snd], ?_⟩
  cases hwrite : ar.write
  · simp only [body, middle, fprAccess, hwrite, reads, htarget, alone, Bool.false_eq_true, if_false,
      List.append_assoc, List.cons_append, List.nil_append]
  · simp only [body, middle, fprAccess, hwrite, writes, htarget, alone, if_true, List.append_assoc,
      List.cons_append, List.nil_append]

/-- A hart without accesses of that width traps on it. -/
theorem exec_fprAccess {ar : AcArCmd} (snd : Bool) (r : BitVec 5) (hfp : ext.fp ar.aarsize = false) :
    exec ext s (fprAccess snd ar r) = .trap := by
  unfold fprAccess
  cases ar.write
  · rw [if_neg Bool.false_ne_true, exec, hfp, if_neg Bool.false_ne_true]
  · rw [if_pos rfl, exec, hfp, if_neg Bool.false_ne_true]

/-- On a hart without floating-point accesses of the width, the program of a floating-point register
    traps at its access and does not come to its end.

    The prologue runs as on any hart.  The access behind it is the fifth of the ten words, so a run that
    is cut short there has not left the first five, and the end is behind the ninth. -/
theorem fpr_traps (h : Ready p ext fetch cmd s) {r : BitVec 5} (htarget : targetOf (acAr cmd) = .fpr r)
    (hfp : ext.fp (acAr cmd).aarsize = false) : Traps p ext fetch cmd r s := by
  obtain ⟨t, hrun, hbased⟩ := prologue_based h.width h.page h.scratch h.pc
  obtain ⟨is, hbody⟩ := body_fpr p.hasSndScratch htarget
  have htrap : exec ext t (fprAccess p.hasSndScratch (acAr cmd) r) = .trap := exec_fprAccess _ r hfp
  have hcode := ((presents_append _ _).mp (ready_presents h)).1
  rw [hbody] at hcode
  have hupto := ((presents_append _ _).mp hcode).1
  have hstraight : ∀ j ∈ prologue p.hasSndScratch, j.straight = true := fun j hj =>
    straight_body p.hasSndScratch (acAr cmd) j (by
      rw [hbody, List.append_assoc]
      exact List.mem_append_left _ hj)
  have hlength : (prologue p.hasSndScratch).length = 4 := by cases p.hasSndScratch <;> rfl
  constructor
  · -- the access is reached, with the prologue done, and traps
    obtain ⟨hfirst, hlast⟩ := (presents_append _ _).mp hupto
    rw [← execs_pc _ s t hstraight hrun] at hlast
    refine ⟨(prologue p.hasSndScratch).length, t, ?_, hlast.1, ?_, hbased.fpr, hbased.mem⟩
    · rw [steps_of_presents _ s hfirst hstraight, hrun]
    · rw [step_of_presents hlast, htrap]
  · -- a state of the run is one of the words up to the access, and none of them is the end
    rintro e ⟨k, hk, hend, -⟩
    obtain ⟨hle, hpc⟩ := steps_before_trap _ _ hupto hstraight hrun htrap hk
    refine not_atEnd h (j := k) ?_ hpc hend
    have hoff : 36 ≤ endOffset (acAr cmd) := by unfold endOffset; split_ifs <;> omega
    omega

/-- A program that does not come to its end has not done what it is for. -/
theorem not_transfers_of_traps {r : BitVec 5} (h : Traps p ext fetch cmd r s) :
    ¬ Transfers p ext fetch cmd s := by
  rintro ⟨e, hfirst, -⟩
  exact h.endless e hfirst

/-- **Register access programs of integer and floating-point registers.**  They do what they are for,
    a floating-point register wherever the hart has an access of the commanded width to it.  Where it
    has none, the program traps at that access and does not come to its end. -/
theorem transfers_iff (h : Ready p ext fetch cmd s) (hreg : 0x1000 ≤ (acAr cmd).regno.toNat) :
    (Transfers p ext fetch cmd s ↔
      ((acAr cmd).regno.getLsbD 5 = true → ext.fp (acAr cmd).aarsize = true)) ∧
    ((acAr cmd).regno.getLsbD 5 = true → ext.fp (acAr cmd).aarsize = false →
      Traps p ext fetch cmd ((acAr cmd).regno.extractLsb' 0 5) s) := by
  have htarget := targetOf_register (ready_regno h) hreg
  obtain ⟨t, hrun, hbased⟩ := prologue_based h.width h.page h.scratch h.pc
  cases h5 : (acAr cmd).regno.getLsbD 5
  · -- an integer register: `a0` goes by way of `dscratch1`, any other by one load or store
    rw [h5, if_neg Bool.false_ne_true] at htarget
    refine ⟨iff_of_true ?_ (fun h => absurd h Bool.false_ne_true), fun h => absurd h Bool.false_ne_true⟩
    obtain ⟨e, he, hagrees⟩ : ∃ e, execs ext (body p.hasSndScratch (acAr cmd)) s = some e ∧
        Agrees e (moved p (acAr cmd) s) := by
      by_cases ha0 : p.hasSndScratch = true ∧ (acAr cmd).regno.extractLsb' 0 5 = 10
      · rw [ha0.2] at htarget
        exact execs_a0 h.width h.scratch (ready_size h) htarget ha0.1 hrun hbased
      · exact execs_gpr h.width h.scratch (ready_size h) htarget ha0 hrun hbased
    exact ⟨_, reaches_end h he, agrees_end hagrees _⟩
  · -- a floating-point register: whether the hart has the access decides
    rw [h5, if_pos rfl] at htarget
    cases hfp : ext.fp (acAr cmd).aarsize
    · have htraps := fpr_traps h htarget hfp
      exact ⟨iff_of_false (not_transfers_of_traps htraps) (fun h => Bool.false_ne_true (h rfl)),
        fun _ _ => htraps⟩
    · refine ⟨iff_of_true ?_ (fun _ => rfl), fun _ h => absurd h.symm Bool.false_ne_true⟩
      obtain ⟨e, he, hagrees⟩ := execs_fpr h.width h.scratch htarget hfp hrun hbased
      exact ⟨_, reaches_end h he, agrees_end hagrees _⟩

/-! ## Control registers -/

/-- The program reaches its end, every integer register is what it was, and the value has moved between
    the data registers and the CSR. -/
def CsrTransferred (p : Params n) (ext : Extensions f) (fetch : BitVec w → BitVec 32) (cmd : Command)
    (c : BitVec 12) (s : Hart w f) : Prop :=
  ∃ e, FirstAt ext fetch (AtEnd p ext fetch (acAr cmd)) s e ∧ (∀ r, e.x r = s.x r) ∧
    if (acAr cmd).write then e.csr c = loaded p (acAr cmd) s
    else loadBytes e.mem (dmAddr w p DataAddr) (bytes (acAr cmd))
      = (s.csr c).setWidth (8 * bytes (acAr cmd))

/-- The CSR is not one that keeps `s0` or `a0` during the program, or the value that is moved is the one
    that is kept. -/
def NotAliased (p : Params n) (ar : AcArCmd) (c : BitVec 12) (s : Hart w f) : Prop :=
  if ar.write then
    (c = CSR_DSCRATCH0 → loaded p ar s = s.x 8) ∧
    (p.hasSndScratch = true ∧ c = CSR_DSCRATCH1 → loaded p ar s = s.x 10)
  else
    (c = CSR_DSCRATCH0 → (s.x 8).setWidth (8 * bytes ar) = (s.csr c).setWidth (8 * bytes ar)) ∧
    (p.hasSndScratch = true ∧ c = CSR_DSCRATCH1 →
      (s.x 10).setWidth (8 * bytes ar) = (s.csr c).setWidth (8 * bytes ar))

theorem targetOf_csr {ar : AcArCmd} (hreg : ar.regno.toNat < 0x1000) :
    targetOf ar = .csr (ar.regno.extractLsb' 0 12) := by
  have hbit : ar.regno.getLsbD 12 = false := Nat.testBit_lt_two_pow hreg
  rw [targetOf, hbit, if_neg Bool.false_ne_true]

/-- The data registers are as wide as any value a command moves. -/
theorem loadBytes_stored {k : Nat} (hw : w = 32 ∨ w = 64) {ar : AcArCmd}
    (hsize : ar.aarsize.toNat < maxAar w) (v : BitVec k) :
    loadBytes (stored p ar s v) (dmAddr w p DataAddr) (bytes ar) = v.setWidth (8 * bytes ar) := by
  apply loadBytes_storeBytes
  have h7 : bytes ar ≤ 2 ^ 7 := Nat.pow_le_pow_right (by decide) (by omega)
  exact h7.trans (Nat.pow_le_pow_right (by decide) (by omega))

/-- Of the state at the end of a program, what its body leaves behind decides: there is one end, and it
    is reached. -/
theorem exists_end_iff (h : Ready p ext fetch cmd s)
    (he : execs ext (body p.hasSndScratch (acAr cmd)) s = some e) {P : Hart w f → Prop}
    (hP : P e.advance ↔ P e) :
    (∃ u, FirstAt ext fetch (AtEnd p ext fetch (acAr cmd)) s u ∧ P u) ↔ P e := by
  have hfirst := reaches_end h he
  have hsame : P (if (acAr cmd).postexec then e.advance else e) ↔ P e := by
    cases (acAr cmd).postexec
    · exact Iff.rfl
    · exact hP
  rw [← hsame]
  constructor
  · rintro ⟨u, hu, hPu⟩
    rw [firstAt_unique hfirst hu]
    exact hPu
  · intro hPe
    exact ⟨_, hfirst, hPe⟩

theorem csrRead_iff (h : Ready p ext fetch cmd s) {c : BitVec 12} (htarget : targetOf (acAr cmd) = .csr c)
    (hreadable : ext.readable c = true) (hwrite : (acAr cmd).write = false) :
    CsrTransferred p ext fetch cmd c s ↔ NotAliased p (acAr cmd) c s := by
  obtain ⟨t, hrun, hbased⟩ := prologue_based h.width h.page h.scratch h.pc
  obtain ⟨e, he, hread⟩ := execs_readThrough h.width h.scratch (ready_size h) hreadable
    (by simp only [middle, hwrite, reads, htarget, Bool.false_eq_true, if_false]) hrun hbased
  unfold CsrTransferred NotAliased
  rw [exists_end_iff h he Iff.rfl, hwrite, if_neg Bool.false_ne_true, if_neg Bool.false_ne_true,
    hread.mem, loadBytes_stored h.width (ready_size h)]
  refine (and_iff_right hread.x).trans ?_
  -- the move goes through `s0`, so `dscratch0` reads as the `s0` that was saved there
  by_cases h0 : c = CSR_DSCRATCH0
  · have h1 : ¬ (p.hasSndScratch = true ∧ c = CSR_DSCRATCH1) :=
      fun h1 => absurd (h0.symm.trans h1.2) (by decide)
    rw [if_pos h0]
    exact ⟨fun hv => ⟨fun _ => hv, fun h => absurd h h1⟩, fun hv => hv.1 h0⟩
  · rw [if_neg h0]
    -- and `dscratch1` as the `a0` that the prologue saved
    by_cases h1 : p.hasSndScratch = true ∧ c = CSR_DSCRATCH1
    · rw [if_pos h1]
      exact ⟨fun hv => ⟨fun h => absurd h h0, fun _ => hv⟩, fun hv => hv.2 h1⟩
    · rw [if_neg h1]
      exact iff_of_true rfl ⟨fun h => absurd h h0, fun h => absurd h h1⟩

theorem csrWritten_iff (h : Ready p ext fetch cmd s) {c : BitVec 12}
    (htarget : targetOf (acAr cmd) = .csr c) (hwritable : ext.writable c = true)
    (hwrite : (acAr cmd).write = true) :
    CsrTransferred p ext fetch cmd c s ↔ NotAliased p (acAr cmd) c s := by
  obtain ⟨t, hrun, hbased⟩ := prologue_based h.width h.page h.scratch h.pc
  obtain ⟨e, he, hwritten⟩ := execs_writtenThrough h.width h.scratch (ready_size h) hwritable
    (by simp only [middle, hwrite, writes, htarget, if_true]) hrun hbased
  unfold CsrTransferred NotAliased
  rw [exists_end_iff h he Iff.rfl, hwrite, if_pos rfl, if_pos rfl]
  refine (and_iff_left hwritten.target).trans ?_
  constructor
  · -- the registers that are restored from the scratch registers show what was written there
    intro hx
    constructor
    · intro h0
      have h8 := hx 8
      rw [hwritten.x, if_neg (fun h => absurd h.2 (by decide)), if_pos ⟨rfl, h0⟩] at h8
      exact h8
    · rintro ⟨hsnd, h1⟩
      have h10 := hx 10
      rw [hwritten.x, if_pos ⟨hsnd, rfl⟩, if_pos h1] at h10
      exact h10
  · rintro ⟨h0, h1⟩ r
    rw [hwritten.x]
    by_cases hr : p.hasSndScratch = true ∧ r = 10
    · rw [if_pos hr, hr.2]
      split_ifs with hc
      · exact h1 ⟨hr.1, hc⟩
      · rfl
    · rw [if_neg hr]
      split_ifs with hc
      · rw [h0 hc.2, hc.1]
      · rfl

/-- **Register access programs of CSRs.**  They do what they are for unless the CSR is one of those that
    keep `s0` and `a0` meanwhile. -/
theorem csrTransferred_iff (h : Ready p ext fetch cmd s) (hreg : (acAr cmd).regno.toNat < 0x1000)
    (hreadable : ext.readable ((acAr cmd).regno.extractLsb' 0 12) = true)
    (hwritable : ext.writable ((acAr cmd).regno.extractLsb' 0 12) = true) :
    CsrTransferred p ext fetch cmd ((acAr cmd).regno.extractLsb' 0 12) s ↔
      NotAliased p (acAr cmd) ((acAr cmd).regno.extractLsb' 0 12) s := by
  cases hwrite : (acAr cmd).write
  · exact csrRead_iff h (targetOf_csr hreg) hreadable hwrite
  · exact csrWritten_iff h (targetOf_csr hreg) hwritable hwrite

end Runs

/-! ## A hart at the debug module -/

/-- What the debug module answers makes a hart at its first word ready. -/
theorem ready_fetched {p : Params n} {ext : Extensions f} {i : Input n w} {s : Hart w f}
    (hw : w = 32 ∨ w = 64) (hpage : 4096 ∣ p.dmBaseAddress.toNat)
    (hscratch : Scratch ext p.hasSndScratch) (himpl : Implemented w i.cmdI)
    (hpc : s.pc = dmAddr w p AbstractCmdBaseAddr) (st : State n) :
    Ready p ext (fetched p st i) i.cmdI s :=
  ⟨hw, hpage, hscratch, himpl, contains_abstractCmd p st i hw hpage, hpc⟩

/-- A hart with half, single and double precision, whose CSRs are all there. -/
def allCsrs : Extensions 64 where
  readable _ := true
  writable _ := true
  fp z := z == 1 || z == 2 || z == 3
  fp_byte := by decide
  fp_fits := by decide

/-- A hart at the first word of a program.  Every register holds its number, a CSR with `0x1000` on top
    of it, and every byte of memory the low byte of its address plus one. -/
def atProgram (p : Params 1) : Hart 32 64 :=
  { pc := dmAddr 32 p AbstractCmdBaseAddr, gpr := fun r => r.setWidth 32, fpr := fun r => r.setWidth 64
    csr := fun c => c.setWidth 32 + 0x1000, mem := fun a => a.setWidth 8 + 1 }

/-- The debug module at `base`. -/
def dmAt (base : BitVec 32) : Params 1 := { selectableHarts := 1, dmBaseAddress := base }

theorem ready_dmAt (base word : BitVec 32) (hpage : 4096 ∣ base.toNat)
    (himpl : Implemented 32 (Command.ofWord word)) {s : Hart 32 64}
    (hpc : s.pc = dmAddr 32 (dmAt base) AbstractCmdBaseAddr) :
    Ready (dmAt base) allCsrs (fetched (dmAt base) idleHalted (presented word)) (Command.ofWord word)
      s := by
  have hscratch : Scratch allCsrs (dmAt base).hasSndScratch := ⟨rfl, rfl, fun _ => rfl, fun _ => rfl⟩
  have hi : Implemented 32 (presented word).cmdI := himpl
  have hp : 4096 ∣ (dmAt base).dmBaseAddress.toNat := hpage
  exact ready_fetched (Or.inl rfl) hp hscratch hi hpc idleHalted

theorem ready_atProgram (base word : BitVec 32) (hpage : 4096 ∣ base.toNat)
    (himpl : Implemented 32 (Command.ofWord word)) :
    Ready (dmAt base) allCsrs (fetched (dmAt base) idleHalted (presented word)) (Command.ofWord word)
      (atProgram (dmAt base)) :=
  ready_dmAt base word hpage himpl rfl

/-- A write of `a0`, the debug module at `0x1000`, comes to its end with `0x84838281` in `a0`; a write of
    one byte to `f0` traps at its load. -/
theorem transfers_a0_traps_f0 :
    loaded (dmAt 0x1000) (acAr (Command.ofWord 0x0023100A)) (atProgram (dmAt 0x1000)) = 0x84838281 ∧
    Transfers (dmAt 0x1000) allCsrs (fetched (dmAt 0x1000) idleHalted (presented 0x0023100A))
      (Command.ofWord 0x0023100A) (atProgram (dmAt 0x1000)) ∧
    Traps (dmAt 0x1000) allCsrs (fetched (dmAt 0x1000) idleHalted (presented 0x00031020))
      (Command.ofWord 0x00031020) 0 (atProgram (dmAt 0x1000)) :=
  ⟨by decide,
    (transfers_iff (ready_atProgram 0x1000 0x0023100A (by decide) (by decide)) (by decide)).1.mpr
      (by decide),
    (transfers_iff (ready_atProgram 0x1000 0x00031020 (by decide) (by decide)) (by decide)).2
      (by decide) rfl⟩

/-- A write of one byte to `f0` traps on every hart: there is no floating-point load of a byte, and the
    generator makes a word for it all the same. -/
theorem not_transfers_byte_f0 :
    Ready (dmAt 0) allCsrs (fetched (dmAt 0) idleHalted (presented 0x00031020))
      (Command.ofWord 0x00031020) (atProgram (dmAt 0)) ∧
    ¬ Transfers (dmAt 0) allCsrs (fetched (dmAt 0) idleHalted (presented 0x00031020))
      (Command.ofWord 0x00031020) (atProgram (dmAt 0)) := by
  have hready := ready_atProgram 0 0x00031020 (by decide) (by decide)
  have htarget : targetOf (acAr (Command.ofWord 0x00031020)) = .fpr 0 := by decide
  exact ⟨hready, not_transfers_of_traps (fpr_traps hready htarget rfl)⟩

/-- A read of `mstatus`, which holds `0x1300`; and a write of `dscratch0` on a hart whose `s0` happens to
    be what the data register holds. -/
theorem csrTransferred_read_mstatus :
    (atProgram (dmAt 0x1000)).csr 0x300 = 0x1300 ∧
    CsrTransferred (dmAt 0x1000) allCsrs (fetched (dmAt 0x1000) idleHalted (presented 0x00220300))
      (Command.ofWord 0x00220300) 0x300 (atProgram (dmAt 0x1000)) ∧
    CsrTransferred (dmAt 0x1000) allCsrs (fetched (dmAt 0x1000) idleHalted (presented 0x002307B2))
      (Command.ofWord 0x002307B2) CSR_DSCRATCH0 ((atProgram (dmAt 0x1000)).setX 8 0x84838281) := by
  refine ⟨rfl, ?_, ?_⟩
  · have hready := ready_atProgram 0x1000 0x00220300 (by decide) (by decide)
    exact (csrTransferred_iff hready (by decide) rfl rfl).mpr
      ⟨fun h => absurd h (by decide), fun h => absurd h.2 (by decide)⟩
  · have hpc : ((atProgram (dmAt 0x1000)).setX 8 0x84838281).pc
      = dmAddr 32 (dmAt 0x1000) AbstractCmdBaseAddr := rfl
    have hready := ready_dmAt 0x1000 0x002307B2 (by decide) (by decide) hpc
    exact (csrTransferred_iff hready (by decide) rfl rfl).mpr
      ⟨fun _ => by decide, fun h => absurd h.2 (by decide)⟩

/-- A write to `dscratch0` is a write to `s0` too, as the program gets `s0` back from there. -/
theorem not_csrTransferred_dscratch0 :
    Ready (dmAt 0) allCsrs (fetched (dmAt 0) idleHalted (presented 0x002307B2))
      (Command.ofWord 0x002307B2) (atProgram (dmAt 0)) ∧
    ¬ CsrTransferred (dmAt 0) allCsrs (fetched (dmAt 0) idleHalted (presented 0x002307B2))
      (Command.ofWord 0x002307B2) CSR_DSCRATCH0 (atProgram (dmAt 0)) := by
  have hready := ready_atProgram 0 0x002307B2 (by decide) (by decide)
  have htarget : targetOf (acAr (Command.ofWord 0x002307B2)) = .csr CSR_DSCRATCH0 := by decide
  refine ⟨hready, ?_⟩
  rw [csrWritten_iff hready htarget rfl (by decide)]
  intro h
  exact absurd (h.1 rfl) (by decide)

end RiscDbgUart.RegisterTransfers
