/-
  The programs `p_abstract_cmd_rom` generates for register accesses, as instructions.

  Every program has the same frame: `a0` is saved and made to point at the debug module, four
  instructions move the register, and `a0` comes back (`prologue`, `middle`, `epilogue`).  With the
  debug module in the zero page the frame is empty and `x0` is the base.  Two of the four-instruction
  middles exist: one instruction that moves the register itself, or a move through `s0`, which is
  saved in `dscratch0` meanwhile (`alone`, `throughS0`).

  `decode_words` connects this to the generator: the words it makes for a supported command decode to
  exactly this program.

  The way there is by words: `writeRegister_words` and `readRegister_words` are the assignments of the
  source for the two directions, evaluated once for all registers and sizes, `ofCommand_words` puts the
  three parts of a program together, and `decode_movingWords` decodes the part in the middle for each kind
  of target.
-/
import RiscDbgUart.Riscv.Run
import RiscDbgUart.SupportedCommands

set_option linter.unusedVariables false

namespace RiscDbgUart.AbstractPrograms

open Riscv AbstractCmd SupportedCommands

/-! ## Targets -/

/-- The register a register number names, of one of the three kinds. -/
inductive Target where
  | gpr (r : BitVec 5)
  | fpr (r : BitVec 5)
  | csr (c : BitVec 12)
deriving DecidableEq, Repr

def targetOf (ar : AcArCmd) : Target :=
  if ar.regno.getLsbD 12 then
    if ar.regno.getLsbD 5 then .fpr (ar.regno.extractLsb' 0 5) else .gpr (ar.regno.extractLsb' 0 5)
  else .csr (ar.regno.extractLsb' 0 12)

/-! ## Programs -/

def prologue (snd : Bool) : List Instr :=
  if snd then
    [.csrrw 0 CSR_DSCRATCH1 10, .auipc 10 0, .srli 10 10 12, .slli 10 10 12]
  else [.addi 0 0 0, .addi 0 0 0, .addi 0 0 0, .addi 0 0 0]

/-- One instruction moves the register. -/
def alone (i : Instr) : List Instr := [i, .addi 0 0 0, .addi 0 0 0, .addi 0 0 0]

/-- The register is moved through `s0`. -/
def throughS0 (i j : Instr) : List Instr :=
  [.csrrw 0 CSR_DSCRATCH0 8, i, j, .csrrs 8 CSR_DSCRATCH0 0]

/-- The move from the data register.  A CSR cannot be loaded, and neither can `a0` while it is the base, so
    these two go through `s0`. -/
def writes (snd : Bool) (z : BitVec 3) : Target → List Instr
  | .gpr r =>
    if snd = true ∧ r = 10 then
      throughS0 (.load z 8 (loadBaseAddr snd) DataAddr) (.csrrw 0 CSR_DSCRATCH1 8)
    else alone (.load z r (loadBaseAddr snd) DataAddr)
  | .fpr r => alone (.loadFp z r (loadBaseAddr snd) DataAddr)
  | .csr c => throughS0 (.load z 8 (loadBaseAddr snd) DataAddr) (.csrrw 0 c 8)

/-- The move to the data register, with the same two detours. -/
def reads (snd : Bool) (z : BitVec 3) : Target → List Instr
  | .gpr r =>
    if snd = true ∧ r = 10 then
      throughS0 (.csrrs 8 CSR_DSCRATCH1 0) (.store z 8 (loadBaseAddr snd) DataAddr)
    else alone (.store z r (loadBaseAddr snd) DataAddr)
  | .fpr r => alone (.storeFp z r (loadBaseAddr snd) DataAddr)
  | .csr c => throughS0 (.csrrs 8 c 0) (.store z 8 (loadBaseAddr snd) DataAddr)

def middle (snd : Bool) (ar : AcArCmd) : List Instr :=
  if ar.write then writes snd ar.aarsize (targetOf ar) else reads snd ar.aarsize (targetOf ar)

def epilogue (snd : Bool) : Instr := if snd then .csrrs 10 CSR_DSCRATCH1 0 else .addi 0 0 0

/-- What comes behind: out of the program, or on into the program buffer. -/
def leave (postexec : Bool) : Instr := if postexec then .addi 0 0 0 else .ebreak

/-- The program up to its last instruction. -/
def body (snd : Bool) (ar : AcArCmd) : List Instr := prologue snd ++ middle snd ar ++ [epilogue snd]

/-! ## The words of the generator -/

/-- The words of the move, in the order of the generator's branches. -/
def movingWords (snd : Bool) (ar : AcArCmd) : List (BitVec 32) :=
  let z := ar.aarsize
  let base := loadBaseAddr snd
  let r := ar.regno.extractLsb' 0 5
  let viaS0 (x y : BitVec 32) := [csrw CSR_DSCRATCH0 8, x, y, csrr CSR_DSCRATCH0 8]
  if isA0 snd ar then
    if ar.write then viaS0 (load z 8 base DataAddr) (csrw CSR_DSCRATCH1 8)
    else viaS0 (csrr CSR_DSCRATCH1 8) (store z 8 base DataAddr)
  else if ar.regno.getLsbD 12 then
    if ar.regno.getLsbD 5 then
      [if ar.write then floatLoad z r base DataAddr else floatStore z r base DataAddr, nop, nop, nop]
    else [if ar.write then load z r base DataAddr else store z r base DataAddr, nop, nop, nop]
  else if ar.write then
    viaS0 (load z 8 base DataAddr) (csrw (ar.regno.extractLsb' 0 12) 8)
  else viaS0 (csrr (ar.regno.extractLsb' 0 12) 8) (store z 8 base DataAddr)

/-- The words around it. -/
def startWords (snd : Bool) : List (BitVec 32) :=
  if snd then [csrw CSR_DSCRATCH1 10, auipc 10 0, srli 10 10 12, slli 10 10 12]
  else [nop, nop, nop, nop]

def endWords (snd postexec : Bool) : List (BitVec 32) :=
  [if snd then csrr CSR_DSCRATCH1 10 else nop, if postexec then nop else ebreak]

section Words

variable {snd : Bool} {ar : AcArCmd}

theorem writeRegister_words (hwrite : ar.write = true) (htop : ar.regno.extractLsb' 14 2 = 0) :
    (writeRegister snd ar (initial snd)).words
      = startWords snd ++ movingWords snd ar ++ endWords snd false := by
  unfold writeRegister movingWords
  cases snd <;>
    simp only [htop, hwrite, bne_self_eq_false, Bool.false_eq_true, if_false, if_true] <;>
    split_ifs <;> rfl

theorem readRegister_words (hwrite : ar.write = false) (htop : ar.regno.extractLsb' 14 2 = 0) :
    (readRegister snd ar (initial snd)).words
      = startWords snd ++ movingWords snd ar ++ endWords snd false := by
  unfold readRegister movingWords
  cases snd <;>
    simp only [htop, hwrite, bne_self_eq_false, Bool.false_eq_true, if_false, if_true] <;>
    split_ifs <;> rfl

/-- The program buffer is reached by one more `nop` in the place of the `ebreak`. -/
theorem words_postexec (a : AbstractCmd) (hlen : (startWords snd ++ movingWords snd ar).length = 8)
    (h : a.words = startWords snd ++ movingWords snd ar ++ endWords snd false) :
    (a.set 9 nop).words = startWords snd ++ movingWords snd ar ++ endWords snd true := by
  show a.words.set 9 nop = _
  rw [h, List.set_append_right _ _ (by omega), hlen]
  rfl

theorem length_moving : (startWords snd ++ movingWords snd ar).length = 8 := by
  unfold movingWords startWords
  dsimp only
  split_ifs <;> rfl

end Words

/-- **The words generated for a command** that is supported and transfers: start, move and end. -/
theorem ofCommand_words {w : Nat} {snd : Bool} {cmd : Command}
    (hsup : unsupportedCommand w snd cmd = false) (htransfer : (acAr cmd).transfer = true) :
    (ofCommand w snd cmd).words
      = startWords snd ++ movingWords snd (acAr cmd) ++ endWords snd (acAr cmd).postexec := by
  have hrefused := (unsupportedCommand_iff w snd cmd).not.mp (Bool.eq_false_iff.mp hsup)
  push Not at hrefused
  obtain ⟨htype, hsize, hregno, -⟩ := hrefused
  -- the upper bits of the number are zero, so the check of bits 15:14 does not refuse it
  have htop : (acAr cmd).regno.extractLsb' 14 2 = 0 := by
    apply BitVec.eq_of_toNat_eq
    rw [BitVec.extractLsb'_toNat, Nat.shiftRight_eq_div_pow, Nat.div_eq_of_lt (hregno htransfer)]
    rfl
  have hwords : (transferRegister w snd (acAr cmd) (initial snd)).words
      = startWords snd ++ movingWords snd (acAr cmd) ++ endWords snd false := by
    unfold transferRegister
    rw [htransfer, decide_eq_true hsize]
    cases hwrite : (acAr cmd).write
    · exact readRegister_words hwrite htop
    · exact writeRegister_words hwrite htop
  -- the register access has not been refused, so the words stay
  have hkeep : (transferRegister w snd (acAr cmd) (initial snd)).unsupportedCommand = false := by
    rw [unsupportedCommand, ofCommand, if_pos htype, accessRegister] at hsup
    split_ifs at hsup <;> exact hsup
  rw [ofCommand, if_pos htype, accessRegister]
  rw [hkeep]
  cases (acAr cmd).postexec
  · exact hwords
  · exact words_postexec _ length_moving hwords

/-! ## The instructions -/

/-- The register number of `a0`, which is special only where `a0` is the base register. -/
theorem isA0_iff (snd : Bool) (ar : AcArCmd) :
    isA0 snd ar = true ↔ snd = true ∧ targetOf ar = .gpr 10 := by
  unfold isA0 targetOf
  cases snd <;> cases ar.regno.getLsbD 12 <;> cases ar.regno.getLsbD 5 <;> simp

theorem decode_startWords (snd : Bool) : (startWords snd).map decode = (prologue snd).map some := by
  cases snd <;> decide

theorem decode_endWords (snd postexec : Bool) :
    (endWords snd postexec).map decode = [epilogue snd, leave postexec].map some := by
  cases snd <;> cases postexec <;> decide

theorem decode_alone {x : BitVec 32} {i : Instr} (h : decode x = some i) :
    [x, nop, nop, nop].map decode = (alone i).map some := by
  have hnop : decode nop = some (.addi 0 0 0) := by decide
  simp only [List.map_cons, List.map_nil, h, hnop, alone]

theorem decode_throughS0 {x y : BitVec 32} {i j : Instr} (hx : decode x = some i)
    (hy : decode y = some j) :
    [csrw CSR_DSCRATCH0 8, x, y, csrr CSR_DSCRATCH0 8].map decode = (throughS0 i j).map some := by
  have hsave : decode (csrw CSR_DSCRATCH0 8) = some (.csrrw 0 CSR_DSCRATCH0 8) := by decide
  have hback : decode (csrr CSR_DSCRATCH0 8) = some (.csrrs 8 CSR_DSCRATCH0 0) := by decide
  simp only [List.map_cons, List.map_nil, hx, hy, hsave, hback, throughS0]

theorem decode_movingWords (snd : Bool) (ar : AcArCmd) :
    (movingWords snd ar).map decode = (middle snd ar).map some := by
  have hload (d b : BitVec 5) : decode (load ar.aarsize d b DataAddr)
      = some (.load ar.aarsize d b DataAddr) := decode_load _ _ _ _
  have hstore (d b : BitVec 5) : decode (store ar.aarsize d b DataAddr)
      = some (.store ar.aarsize d b DataAddr) := decode_store _ _ _ _
  have hloadFp (d b : BitVec 5) : decode (floatLoad ar.aarsize d b DataAddr)
      = some (.loadFp ar.aarsize d b DataAddr) := decode_loadFp _ _ _ _
  have hstoreFp (d b : BitVec 5) : decode (floatStore ar.aarsize d b DataAddr)
      = some (.storeFp ar.aarsize d b DataAddr) := decode_storeFp _ _ _ _
  have hcsrw (c : BitVec 12) (r : BitVec 5) : decode (csrw c r) = some (.csrrw 0 c r) :=
    decode_csrrw _ _ _
  have hcsrr (c : BitVec 12) (r : BitVec 5) : decode (csrr c r) = some (.csrrs r c 0) :=
    decode_csrrs _ _ _
  unfold movingWords middle
  -- `a0` of the small ROM goes through `s0`
  by_cases hA0 : isA0 snd ar = true
  · obtain ⟨rfl, htarget⟩ := (isA0_iff snd ar).mp hA0
    rw [htarget]
    cases ar.write
    · simp only [if_pos hA0, reads, if_true, Bool.false_eq_true, if_false, and_self]
      exact decode_throughS0 (hcsrr _ _) (hstore _ _)
    · simp only [if_pos hA0, writes, if_true, and_self]
      exact decode_throughS0 (hload _ _) (hcsrw _ _)
  -- otherwise bit 12 tells the registers from the CSRs, and bit 5 the floating-point ones
  by_cases h12 : ar.regno.getLsbD 12 = true
  · by_cases h5 : ar.regno.getLsbD 5 = true
    · have htarget : targetOf ar = .fpr (ar.regno.extractLsb' 0 5) := by
        rw [targetOf, if_pos h12, if_pos h5]
      rw [htarget]
      cases ar.write
      · simp only [if_neg hA0, if_pos h12, if_pos h5, reads, Bool.false_eq_true, if_false]
        exact decode_alone (hstoreFp _ _)
      · simp only [if_neg hA0, if_pos h12, if_pos h5, writes, if_true]
        exact decode_alone (hloadFp _ _)
    · have htarget : targetOf ar = .gpr (ar.regno.extractLsb' 0 5) := by
        rw [targetOf, if_pos h12, if_neg h5]
      have hnot : ¬ (snd = true ∧ ar.regno.extractLsb' 0 5 = 10) := by
        rintro ⟨hsnd, h10⟩
        exact hA0 ((isA0_iff snd ar).mpr ⟨hsnd, by rw [htarget, h10]⟩)
      rw [htarget]
      cases ar.write
      · simp only [if_neg hA0, if_pos h12, if_neg h5, reads, if_neg hnot, Bool.false_eq_true,
          if_false]
        exact decode_alone (hstore _ _)
      · simp only [if_neg hA0, if_pos h12, if_neg h5, writes, if_neg hnot, if_true]
        exact decode_alone (hload _ _)
  · have htarget : targetOf ar = .csr (ar.regno.extractLsb' 0 12) := by
      rw [targetOf, if_neg h12]
    rw [htarget]
    cases ar.write
    · simp only [if_neg hA0, if_neg h12, reads, Bool.false_eq_true, if_false]
      exact decode_throughS0 (hcsrr _ _) (hstore _ _)
    · simp only [if_neg hA0, if_neg h12, writes, if_true]
      exact decode_throughS0 (hload _ _) (hcsrw _ _)

/-- **The generated words are the program**, for every supported command that transfers, in all widths and
    with either number of scratch registers. -/
theorem decode_words {w : Nat} {snd : Bool} {cmd : Command}
    (hsup : unsupportedCommand w snd cmd = false) (htransfer : (acAr cmd).transfer = true) :
    (ofCommand w snd cmd).words.map decode
      = (body snd (acAr cmd) ++ [leave (acAr cmd).postexec]).map some := by
  rw [ofCommand_words hsup htransfer, List.map_append, List.map_append, decode_startWords,
    decode_movingWords, decode_endWords, body, ← List.map_append, ← List.map_append]
  simp

end RiscDbgUart.AbstractPrograms
