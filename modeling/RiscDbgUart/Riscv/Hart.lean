/-
  A RISC-V hart, as far as straight-line monitor code needs one.

  `w` is XLEN (32 or 64), `f` is FLEN.  Integer, floating-point and control registers and a byte
  memory are the state; instruction fetch is a function of its own, because the code such a hart runs
  here is not writable.  `decode` reads the base formats of the manual; `exec` gives every instruction
  its effect, or `trap` where the hart does not implement it: a width the hart does not have, or a
  control register that is not there.

  A control register that can be written is plain storage: the write is read back and changes nothing
  else.

  `Extensions` says which widths of floating-point access and which CSRs the hart has.  The register
  updates have the usual lemmas, tagged for the simplifier, and memory has two: a load sees the bytes it
  covers (`loadBytes_congr`), and it sees a store of the same width (`loadBytes_storeBytes`).
-/
import Mathlib.Tactic

set_option linter.unusedVariables false

namespace Riscv

variable {w f : Nat}

/-! ## State -/

structure Hart (w f : Nat) where
  pc : BitVec w
  gpr : BitVec 5 → BitVec w
  fpr : BitVec 5 → BitVec f
  csr : BitVec 12 → BitVec w
  mem : BitVec w → BitVec 8

/-- What a hart implements beside the base instructions: which control registers it lets read and
    written, and the widths of its floating-point loads and stores (the width code is the `funct3`
    field).  No floating-point extension has one of a single byte. -/
structure Extensions (f : Nat) where
  readable : BitVec 12 → Bool
  writable : BitVec 12 → Bool
  fp : BitVec 3 → Bool
  fp_byte : fp 0 = false
  fp_fits : ∀ z, fp z = true → 8 * 2 ^ z.toNat ≤ f

namespace Hart

/-- `x0` reads as zero. -/
def x (s : Hart w f) (r : BitVec 5) : BitVec w := if r = 0 then 0 else s.gpr r

/-- A write to `x0` is dropped. -/
def setX (s : Hart w f) (r : BitVec 5) (v : BitVec w) : Hart w f :=
  if r = 0 then s else { s with gpr := Function.update s.gpr r v }

def setCsr (s : Hart w f) (c : BitVec 12) (v : BitVec w) : Hart w f :=
  { s with csr := Function.update s.csr c v }

/-- On to the next instruction. -/
def advance (s : Hart w f) : Hart w f := { s with pc := s.pc + 4 }

end Hart

/-- The `n` bytes from `a` on, little-endian. -/
def loadBytes (m : BitVec w → BitVec 8) (a : BitVec w) : (n : Nat) → BitVec (8 * n)
  | 0 => 0
  | n + 1 => (m (a + BitVec.ofNat w n) ++ loadBytes m a n).cast (Nat.add_comm 8 (8 * n))

/-- The low `n` bytes of `v` from `a` on. -/
def storeBytes {k : Nat} (m : BitVec w → BitVec 8) (a : BitVec w) (v : BitVec k) :
    Nat → BitVec w → BitVec 8
  | 0 => m
  | n + 1 => Function.update (storeBytes m a v n) (a + BitVec.ofNat w n) (v.extractLsb' (8 * n) 8)

/-! ## Instructions -/

inductive Instr where
  | auipc (rd : BitVec 5) (imm : BitVec 20)
  | jal (rd : BitVec 5) (imm : BitVec 21)
  | bne (rs1 rs2 : BitVec 5) (imm : BitVec 13)
  | load (width : BitVec 3) (rd rs1 : BitVec 5) (imm : BitVec 12)
  | store (width : BitVec 3) (rs2 rs1 : BitVec 5) (imm : BitVec 12)
  | loadFp (width : BitVec 3) (rd rs1 : BitVec 5) (imm : BitVec 12)
  | storeFp (width : BitVec 3) (rs2 rs1 : BitVec 5) (imm : BitVec 12)
  | addi (rd rs1 : BitVec 5) (imm : BitVec 12)
  | andi (rd rs1 : BitVec 5) (imm : BitVec 12)
  | slli (rd rs1 : BitVec 5) (shamt : BitVec 6)
  | srli (rd rs1 : BitVec 5) (shamt : BitVec 6)
  | add (rd rs1 rs2 : BitVec 5)
  | fence
  | csrrw (rd : BitVec 5) (csr : BitVec 12) (rs1 : BitVec 5)
  | csrrs (rd : BitVec 5) (csr : BitVec 12) (rs1 : BitVec 5)
  | ebreak
  | dret
deriving DecidableEq, Repr

def decode (i : BitVec 32) : Option Instr :=
  let opcode := i.extractLsb' 0 7
  let rd := i.extractLsb' 7 5
  let funct3 := i.extractLsb' 12 3
  let rs1 := i.extractLsb' 15 5
  let rs2 := i.extractLsb' 20 5
  let immI := i.extractLsb' 20 12
  let immS := i.extractLsb' 25 7 ++ i.extractLsb' 7 5
  let immB := i.extractLsb' 31 1 ++ i.extractLsb' 7 1 ++ i.extractLsb' 25 6 ++ i.extractLsb' 8 4
    ++ (0 : BitVec 1)
  let immJ := i.extractLsb' 31 1 ++ i.extractLsb' 12 8 ++ i.extractLsb' 20 1 ++ i.extractLsb' 21 10
    ++ (0 : BitVec 1)
  if opcode = 0x17 then some (.auipc rd (i.extractLsb' 12 20))
  else if opcode = 0x6F then some (.jal rd immJ)
  else if opcode = 0x63 ∧ funct3 = 1 then some (.bne rs1 rs2 immB)
  else if opcode = 0x03 then some (.load funct3 rd rs1 immI)
  else if opcode = 0x23 then some (.store funct3 rs2 rs1 immS)
  else if opcode = 0x07 then some (.loadFp funct3 rd rs1 immI)
  else if opcode = 0x27 then some (.storeFp funct3 rs2 rs1 immS)
  else if opcode = 0x13 ∧ funct3 = 0 then some (.addi rd rs1 immI)
  else if opcode = 0x13 ∧ funct3 = 7 then some (.andi rd rs1 immI)
  else if opcode = 0x13 ∧ funct3 = 1 ∧ i.extractLsb' 26 6 = 0 then
    some (.slli rd rs1 (i.extractLsb' 20 6))
  else if opcode = 0x13 ∧ funct3 = 5 ∧ i.extractLsb' 26 6 = 0 then
    some (.srli rd rs1 (i.extractLsb' 20 6))
  else if opcode = 0x33 ∧ funct3 = 0 ∧ i.extractLsb' 25 7 = 0 then some (.add rd rs1 rs2)
  else if opcode = 0x0F ∧ funct3 = 0 then some .fence
  else if opcode = 0x73 ∧ funct3 = 1 then some (.csrrw rd immI rs1)
  else if opcode = 0x73 ∧ funct3 = 2 then some (.csrrs rd immI rs1)
  else if i = 0x00100073 then some .ebreak
  else if i = 0x7B200073 then some .dret
  else none

/-! ## Instruction formats -/

/-- An I-type word. -/
abbrev iType (imm : BitVec 12) (rs1 : BitVec 5) (funct3 : BitVec 3) (rd : BitVec 5)
    (opcode : BitVec 7) : BitVec 32 := imm ++ rs1 ++ funct3 ++ rd ++ opcode

/-- An S-type word. -/
abbrev sType (imm : BitVec 12) (rs2 rs1 : BitVec 5) (funct3 : BitVec 3) (opcode : BitVec 7) :
    BitVec 32 :=
  imm.extractLsb' 5 7 ++ rs2 ++ rs1 ++ funct3 ++ imm.extractLsb' 0 5 ++ opcode

/-- A field above the lowest part of a word is a field of what is above that part. -/
theorem field_above {m n : Nat} (x : BitVec m) (y : BitVec n) (k len : Nat) :
    (x ++ y).extractLsb' (n + k) len = x.extractLsb' k len := by
  rw [BitVec.extractLsb'_append_eq_of_le (Nat.le_add_right n k), Nat.add_sub_cancel_left]

section Formats

variable (imm : BitVec 12) (rs1 rs2 rd : BitVec 5) (funct3 : BitVec 3) (opcode : BitVec 7)

/-- The fields of an I-type word, each where `decode` looks for it. -/
theorem iType_fields :
    (iType imm rs1 funct3 rd opcode).extractLsb' 0 7 = opcode ∧
    (iType imm rs1 funct3 rd opcode).extractLsb' 7 5 = rd ∧
    (iType imm rs1 funct3 rd opcode).extractLsb' 12 3 = funct3 ∧
    (iType imm rs1 funct3 rd opcode).extractLsb' 15 5 = rs1 ∧
    (iType imm rs1 funct3 rd opcode).extractLsb' 20 12 = imm := by
  have above (k len : Nat) : (iType imm rs1 funct3 rd opcode).extractLsb' (7 + k) len
      = (imm ++ rs1 ++ funct3 ++ rd).extractLsb' k len := field_above _ opcode k len
  refine ⟨BitVec.extractLsb'_append_eq_right, ?_, ?_, ?_, ?_⟩
  · exact (above 0 5).trans BitVec.extractLsb'_append_eq_right
  · rw [above 5 3, field_above _ rd 0 3]
    exact BitVec.extractLsb'_append_eq_right
  · rw [above 8 5, field_above _ rd 3 5, field_above _ funct3 0 5]
    exact BitVec.extractLsb'_append_eq_right
  · rw [above 13 12, field_above _ rd 8 12, field_above _ funct3 5 12]
    exact BitVec.extractLsb'_append_eq_left

/-- The fields of an S-type word, each where `decode` looks for it.  The immediate is in two parts. -/
theorem sType_fields :
    (sType imm rs2 rs1 funct3 opcode).extractLsb' 0 7 = opcode ∧
    (sType imm rs2 rs1 funct3 opcode).extractLsb' 12 3 = funct3 ∧
    (sType imm rs2 rs1 funct3 opcode).extractLsb' 15 5 = rs1 ∧
    (sType imm rs2 rs1 funct3 opcode).extractLsb' 20 5 = rs2 ∧
    (sType imm rs2 rs1 funct3 opcode).extractLsb' 25 7
      ++ (sType imm rs2 rs1 funct3 opcode).extractLsb' 7 5 = imm := by
  -- the opcode is at the bottom; the rest is read seven bits above it
  have above (k len : Nat) : (sType imm rs2 rs1 funct3 opcode).extractLsb' (7 + k) len
      = (imm.extractLsb' 5 7 ++ rs2 ++ rs1 ++ funct3 ++ imm.extractLsb' 0 5).extractLsb' k len :=
    field_above _ opcode k len
  refine ⟨BitVec.extractLsb'_append_eq_right, ?_, ?_, ?_, ?_⟩
  · rw [above 5 3, field_above _ _ 0 3]
    exact BitVec.extractLsb'_append_eq_right
  · rw [above 8 5, field_above _ _ 3 5, field_above _ funct3 0 5]
    exact BitVec.extractLsb'_append_eq_right
  · rw [above 13 5, field_above _ _ 8 5, field_above _ funct3 5 5, field_above _ rs1 0 5]
    exact BitVec.extractLsb'_append_eq_right
  · -- the two halves of the immediate are at both ends of the word
    have hhigh : (sType imm rs2 rs1 funct3 opcode).extractLsb' 25 7 = imm.extractLsb' 5 7 := by
      rw [above 18 7, field_above _ _ 13 7, field_above _ funct3 10 7, field_above _ rs1 5 7]
      exact BitVec.extractLsb'_append_eq_left
    have hlow : (sType imm rs2 rs1 funct3 opcode).extractLsb' 7 5 = imm.extractLsb' 0 5 :=
      (above 0 5).trans BitVec.extractLsb'_append_eq_right
    rw [hhigh, hlow]
    exact BitVec.extractLsb'_append_extractLsb'

theorem decode_load : decode (iType imm rs1 funct3 rd 0x03) = some (.load funct3 rd rs1 imm) := by
  obtain ⟨h0, h1, h2, h3, h4⟩ := iType_fields imm rs1 rd funct3 0x03
  simp only [decode, h0, h1, h2, h3, h4]
  rfl

theorem decode_loadFp :
    decode (iType imm rs1 funct3 rd 0x07) = some (.loadFp funct3 rd rs1 imm) := by
  obtain ⟨h0, h1, h2, h3, h4⟩ := iType_fields imm rs1 rd funct3 0x07
  simp only [decode, h0, h1, h2, h3, h4]
  rfl

theorem decode_csrrw : decode (iType imm rs1 1 rd 0x73) = some (.csrrw rd imm rs1) := by
  obtain ⟨h0, h1, h2, h3, h4⟩ := iType_fields imm rs1 rd 1 0x73
  simp only [decode, h0, h1, h2, h3, h4]
  rfl

theorem decode_csrrs : decode (iType imm rs1 2 rd 0x73) = some (.csrrs rd imm rs1) := by
  obtain ⟨h0, h1, h2, h3, h4⟩ := iType_fields imm rs1 rd 2 0x73
  simp only [decode, h0, h1, h2, h3, h4]
  rfl

theorem decode_store :
    decode (sType imm rs2 rs1 funct3 0x23) = some (.store funct3 rs2 rs1 imm) := by
  obtain ⟨h0, h1, h2, h3, h4⟩ := sType_fields imm rs1 rs2 funct3 0x23
  simp only [decode, h0, h1, h2, h3, h4]
  rfl

theorem decode_storeFp :
    decode (sType imm rs2 rs1 funct3 0x27) = some (.storeFp funct3 rs2 rs1 imm) := by
  obtain ⟨h0, h1, h2, h3, h4⟩ := sType_fields imm rs1 rs2 funct3 0x27
  simp only [decode, h0, h1, h2, h3, h4]
  rfl

end Formats

/-! ## Execution -/

inductive Outcome (w f : Nat) where
  | next (s : Hart w f)
  | ebreak
  | dret
  | trap

open Hart

/-- Bytes and signedness of an integer load.  The loads of a double word and of an unsigned word are those
    of the 64-bit instruction set. -/
def loadWidth (w : Nat) (width : BitVec 3) : Option (Nat × Bool) :=
  if width = 0 then some (1, true)
  else if width = 1 then some (2, true)
  else if width = 2 then some (4, true)
  else if width = 3 ∧ w = 64 then some (8, true)
  else if width = 4 then some (1, false)
  else if width = 5 then some (2, false)
  else if width = 6 ∧ w = 64 then some (4, false)
  else none

/-- Bytes of an integer store. -/
def storeWidth (w : Nat) (width : BitVec 3) : Option Nat :=
  if width = 0 then some 1
  else if width = 1 then some 2
  else if width = 2 then some 4
  else if width = 3 ∧ w = 64 then some 8
  else none

/-- A narrow floating-point value in a wide register: the bits above it are ones. -/
def nanBox {k : Nat} (f : Nat) (v : BitVec k) : BitVec f :=
  v.setWidth f ||| (BitVec.allOnes f <<< k)

def effective (s : Hart w f) (rs1 : BitVec 5) (imm : BitVec 12) : BitVec w :=
  s.x rs1 + imm.signExtend w

def exec (ext : Extensions f) (s : Hart w f) : Instr → Outcome w f
  | .auipc rd imm => .next (s.setX rd (s.pc + (imm ++ (0 : BitVec 12)).signExtend w)).advance
  | .jal rd imm => .next { s.setX rd (s.pc + 4) with pc := s.pc + imm.signExtend w }
  | .bne rs1 rs2 imm =>
    .next (if s.x rs1 = s.x rs2 then s.advance else { s with pc := s.pc + imm.signExtend w })
  | .load width rd rs1 imm =>
    match loadWidth w width with
    | some (n, true) =>
      .next (s.setX rd ((loadBytes s.mem (effective s rs1 imm) n).signExtend w)).advance
    | some (n, false) =>
      .next (s.setX rd ((loadBytes s.mem (effective s rs1 imm) n).setWidth w)).advance
    | none => .trap
  | .store width rs2 rs1 imm =>
    match storeWidth w width with
    | some n =>
      .next ({ s with mem := storeBytes s.mem (effective s rs1 imm) (s.x rs2) n } : Hart w f).advance
    | none => .trap
  | .loadFp width rd rs1 imm =>
    if ext.fp width then
      .next ({ s with
        fpr := Function.update s.fpr rd
          (nanBox f (loadBytes s.mem (effective s rs1 imm) (2 ^ width.toNat))) } : Hart w f).advance
    else .trap
  | .storeFp width rs2 rs1 imm =>
    if ext.fp width then
      .next ({ s with
        mem := storeBytes s.mem (effective s rs1 imm) (s.fpr rs2) (2 ^ width.toNat) } : Hart w f).advance
    else .trap
  | .addi rd rs1 imm => .next (s.setX rd (s.x rs1 + imm.signExtend w)).advance
  | .andi rd rs1 imm => .next (s.setX rd (s.x rs1 &&& imm.signExtend w)).advance
  | .slli rd rs1 shamt =>
    if shamt.toNat < w then .next (s.setX rd (s.x rs1 <<< shamt.toNat)).advance else .trap
  | .srli rd rs1 shamt =>
    if shamt.toNat < w then .next (s.setX rd (s.x rs1 >>> shamt.toNat)).advance else .trap
  | .add rd rs1 rs2 => .next (s.setX rd (s.x rs1 + s.x rs2)).advance
  | .fence => .next s.advance
  | .csrrw rd csr rs1 =>
    if ext.writable csr && (rd == 0 || ext.readable csr) then
      .next ((s.setCsr csr (s.x rs1)).setX rd (s.csr csr)).advance
    else .trap
  | .csrrs rd csr rs1 =>
    if ext.readable csr && (rs1 == 0 || ext.writable csr) then
      .next ((if rs1 = 0 then s else s.setCsr csr (s.csr csr ||| s.x rs1)).setX rd
        (s.csr csr)).advance
    else .trap
  | .ebreak => .ebreak
  | .dret => .dret

/-- One instruction. -/
def step (ext : Extensions f) (fetch : BitVec w → BitVec 32) (s : Hart w f) : Outcome w f :=
  match decode (fetch s.pc) with
  | some i => exec ext s i
  | none => .trap

/-! ## The registers after an update -/

section Updates

variable (s : Hart w f) (r r' : BitVec 5) (c c' : BitVec 12) (v : BitVec w)

theorem x_of_ne (h : r ≠ 0) : s.x r = s.gpr r := if_neg h

/-- Writing a register changes that register, and `x0` not even then. -/
theorem x_setX : (s.setX r v).x r' = if r' = r ∧ r ≠ 0 then v else s.x r' := by
  unfold setX
  by_cases h0 : r = 0
  · rw [if_pos h0, if_neg (fun h => h.2 h0)]
  · rw [if_neg h0]
    by_cases h : r' = r
    · subst h
      rw [if_pos ⟨rfl, h0⟩, x_of_ne _ _ h0]
      exact Function.update_self _ _ _
    · rw [if_neg (fun hr => h hr.1)]
      unfold x
      exact congrArg (fun b => if r' = 0 then 0 else b) (Function.update_of_ne h _ _)

theorem x_setX_of_ne (h : r ≠ 0) : (s.setX r v).x r' = if r' = r then v else s.x r' := by
  rw [x_setX]
  exact if_congr (and_iff_left h) rfl rfl

@[simp] theorem x_advance : s.advance.x r = s.x r := rfl
@[simp] theorem setX_zero : s.setX 0 v = s := if_pos rfl

@[simp] theorem csr_setX : (s.setX r v).csr = s.csr := by unfold setX; split_ifs <;> rfl
@[simp] theorem fpr_setX : (s.setX r v).fpr = s.fpr := by unfold setX; split_ifs <;> rfl
@[simp] theorem mem_setX : (s.setX r v).mem = s.mem := by unfold setX; split_ifs <;> rfl
@[simp] theorem pc_setX : (s.setX r v).pc = s.pc := by unfold setX; split_ifs <;> rfl

theorem csr_setCsr : (s.setCsr c v).csr c' = if c' = c then v else s.csr c' :=
  Function.update_apply s.csr c v c'

@[simp] theorem fpr_setCsr : (s.setCsr c v).fpr = s.fpr := rfl
@[simp] theorem mem_setCsr : (s.setCsr c v).mem = s.mem := rfl

@[simp] theorem csr_advance : s.advance.csr = s.csr := rfl
@[simp] theorem fpr_advance : s.advance.fpr = s.fpr := rfl
@[simp] theorem mem_advance : s.advance.mem = s.mem := rfl
@[simp] theorem pc_advance : s.advance.pc = s.pc + 4 := rfl

end Updates

/-! ## Memory -/

theorem loadBytes_congr (m m' : BitVec w → BitVec 8) (a : BitVec w) (n : Nat)
    (h : ∀ j < n, m (a + BitVec.ofNat w j) = m' (a + BitVec.ofNat w j)) :
    loadBytes m a n = loadBytes m' a n := by
  induction n with
  | zero => rfl
  | succ n ih =>
    rw [loadBytes, loadBytes, h n (Nat.lt_succ_self n), ih fun j hj => h j (Nat.lt_succ_of_lt hj)]

/-- What has been written is read back, as long as the bytes do not wrap around the address space onto each
    other. -/
theorem loadBytes_storeBytes {k : Nat} (m : BitVec w → BitVec 8) (a : BitVec w) (v : BitVec k) (n : Nat)
    (hn : n ≤ 2 ^ w) : loadBytes (storeBytes m a v n) a n = v.setWidth (8 * n) := by
  induction n with
  | zero =>
    apply BitVec.eq_of_getLsbD_eq
    intro b hb
    omega
  | succ n ih =>
    -- the last byte is at another address than the first ones, as they do not wrap
    have hlow : loadBytes (storeBytes m a v (n + 1)) a n = loadBytes (storeBytes m a v n) a n := by
      apply loadBytes_congr
      intro j hj
      rw [storeBytes, Function.update_of_ne]
      intro heq
      rw [BitVec.add_right_inj, ← BitVec.toNat_inj, BitVec.toNat_ofNat, BitVec.toNat_ofNat,
        Nat.mod_eq_of_lt (by omega), Nat.mod_eq_of_lt (by omega)] at heq
      omega
    rw [loadBytes, hlow, ih (by omega), storeBytes, Function.update_self]
    apply BitVec.eq_of_getLsbD_eq
    intro b hb
    rw [BitVec.getLsbD_cast, BitVec.getLsbD_append, BitVec.getLsbD_setWidth, BitVec.getLsbD_setWidth,
      BitVec.getLsbD_extractLsb', decide_eq_true hb]
    split_ifs with h
    · rw [decide_eq_true h]
    · rw [decide_eq_true (by omega), Nat.add_sub_cancel' (by omega)]

end Riscv
