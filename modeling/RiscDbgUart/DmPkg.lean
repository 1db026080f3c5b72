/-
  `dm_pkg.sv`: the registers of the debug module, their bit fields, the command errors and the RISC-V
  instruction words the debug module makes.

  A packed structure of the package is a structure here with an `ofWord`/`toWord` pair that lists the
  fields from the top bit down, in the package's order.  `cmderr` and `cmdtype` can hold values that
  name no enumeration member, so both stay bit vectors and the members are named constants.
-/
import RiscDbgUart.DmiUart

set_option linter.unusedVariables false

namespace RiscDbgUart

/-! ## Sizes and addresses -/

abbrev ProgBufSize : Nat := 8
abbrev DataCount : Nat := 2
abbrev DbgVersion013 : BitVec 4 := 2
/-- The address a hart jumps to when it was requested to halt; the ROM starts here. -/
abbrev HaltAddress : BitVec 64 := 0x800
abbrev ResumeAddress : BitVec 64 := HaltAddress + 4
/-- The address a hart jumps to when it receives an exception while in debug mode. -/
abbrev ExceptionAddress : BitVec 64 := HaltAddress + 8
abbrev DataAddr : BitVec 12 := 0x380

/-- `dm_csr_e`, as far as the debug module has the register.  A register of a bank carries its index:
    `[Data0:DataEnd]` are the two data registers, `[ProgBuf0:ProgBufEnd]` the eight program buffer
    words.  Every other address is `other`. -/
inductive DmCsr where
  | data (k : Fin DataCount)
  | dmControl | dmStatus | hartinfo | haltSum1 | abstractCS | command | abstractAuto
  | progBuf (k : Fin ProgBufSize)
  | haltSum2 | haltSum3 | sbcs | sbAddress0 | sbAddress1 | sbData0 | sbData1 | haltSum0
  | other
deriving DecidableEq, Repr

/-- `dm_csr_e'({1'b0, dmi_req_i.addr})`: the registers that this debug module has.  The enumeration of the
    package names more of them, and an access of these is one of `other`. -/
def DmCsr.ofAddr (addr : BitVec 7) : DmCsr :=
  match addr.toNat with
  | 0x04 => .data 0
  | 0x05 => .data 1
  | 0x10 => .dmControl
  | 0x11 => .dmStatus
  | 0x12 => .hartinfo
  | 0x13 => .haltSum1
  | 0x16 => .abstractCS
  | 0x17 => .command
  | 0x18 => .abstractAuto
  | 0x20 => .progBuf 0
  | 0x21 => .progBuf 1
  | 0x22 => .progBuf 2
  | 0x23 => .progBuf 3
  | 0x24 => .progBuf 4
  | 0x25 => .progBuf 5
  | 0x26 => .progBuf 6
  | 0x27 => .progBuf 7
  | 0x34 => .haltSum2
  | 0x35 => .haltSum3
  | 0x38 => .sbcs
  | 0x39 => .sbAddress0
  | 0x3A => .sbAddress1
  | 0x3C => .sbData0
  | 0x3D => .sbData1
  | 0x40 => .haltSum0
  | _ => .other

/-! ## Command errors -/

/-- `cmderr_e` -/
abbrev CmdErr := BitVec 3

abbrev CmdErrNone : CmdErr := 0
abbrev CmdErrBusy : CmdErr := 1
abbrev CmdErrNotSupported : CmdErr := 2
abbrev CmdErrorException : CmdErr := 3
abbrev CmdErrorHaltResume : CmdErr := 4

/-! ## Packed structures -/

/-- `dmcontrol_t`, the highest bit first. -/
structure DmControl where
  haltreq : Bool
  resumereq : Bool
  hartreset : Bool
  ackhavereset : Bool
  zero1 : Bool
  hasel : Bool
  hartsello : BitVec 10
  hartselhi : BitVec 10
  zero0 : BitVec 2
  setresethaltreq : Bool
  clrresethaltreq : Bool
  ndmreset : Bool
  dmactive : Bool
deriving DecidableEq, Repr

def DmControl.ofWord (w : BitVec 32) : DmControl :=
  { haltreq := w.getLsbD 31, resumereq := w.getLsbD 30, hartreset := w.getLsbD 29
    ackhavereset := w.getLsbD 28, zero1 := w.getLsbD 27, hasel := w.getLsbD 26
    hartsello := w.extractLsb' 16 10, hartselhi := w.extractLsb' 6 10, zero0 := w.extractLsb' 4 2
    setresethaltreq := w.getLsbD 3, clrresethaltreq := w.getLsbD 2, ndmreset := w.getLsbD 1
    dmactive := w.getLsbD 0 }

def DmControl.toWord (c : DmControl) : BitVec 32 :=
  BitVec.ofBool c.haltreq ++ BitVec.ofBool c.resumereq ++ BitVec.ofBool c.hartreset
    ++ BitVec.ofBool c.ackhavereset ++ BitVec.ofBool c.zero1 ++ BitVec.ofBool c.hasel
    ++ c.hartsello ++ c.hartselhi ++ c.zero0 ++ BitVec.ofBool c.setresethaltreq
    ++ BitVec.ofBool c.clrresethaltreq ++ BitVec.ofBool c.ndmreset ++ BitVec.ofBool c.dmactive

/-- `command_t` -/
structure Command where
  cmdtype : BitVec 8
  control : BitVec 24
deriving DecidableEq, Repr

def Command.ofWord (w : BitVec 32) : Command :=
  { cmdtype := w.extractLsb' 24 8, control := w.extractLsb' 0 24 }

/-- `cmd_e`: the one command type the debug module executes. -/
abbrev AccessRegister : BitVec 8 := 0

/-- `ac_ar_cmd_t`, the control field of an `AccessRegister` command, the highest bit first. -/
structure AcArCmd where
  zero1 : Bool
  aarsize : BitVec 3
  aarpostincrement : Bool
  postexec : Bool
  transfer : Bool
  write : Bool
  regno : BitVec 16
deriving DecidableEq, Repr

def AcArCmd.ofControl (c : BitVec 24) : AcArCmd :=
  { zero1 := c.getLsbD 23, aarsize := c.extractLsb' 20 3, aarpostincrement := c.getLsbD 19
    postexec := c.getLsbD 18, transfer := c.getLsbD 17, write := c.getLsbD 16
    regno := c.extractLsb' 0 16 }

/-- `abstractauto_t`, the highest bit first. -/
structure AbstractAuto where
  autoexecprogbuf : BitVec 16
  zero0 : BitVec 4
  autoexecdata : BitVec 12
deriving DecidableEq, Repr

def AbstractAuto.toWord (a : AbstractAuto) : BitVec 32 :=
  a.autoexecprogbuf ++ a.zero0 ++ a.autoexecdata

/-- `sbcs_t`, the highest bit first. -/
structure Sbcs where
  sbversion : BitVec 3
  zero0 : BitVec 6
  sbbusyerror : Bool
  sbbusy : Bool
  sbreadonaddr : Bool
  sbaccess : BitVec 3
  sbautoincrement : Bool
  sbreadondata : Bool
  sberror : BitVec 3
  sbasize : BitVec 7
  sbaccess128 : Bool
  sbaccess64 : Bool
  sbaccess32 : Bool
  sbaccess16 : Bool
  sbaccess8 : Bool
deriving DecidableEq, Repr

def Sbcs.ofWord (w : BitVec 32) : Sbcs :=
  { sbversion := w.extractLsb' 29 3, zero0 := w.extractLsb' 23 6, sbbusyerror := w.getLsbD 22
    sbbusy := w.getLsbD 21, sbreadonaddr := w.getLsbD 20, sbaccess := w.extractLsb' 17 3
    sbautoincrement := w.getLsbD 16, sbreadondata := w.getLsbD 15, sberror := w.extractLsb' 12 3
    sbasize := w.extractLsb' 5 7, sbaccess128 := w.getLsbD 4, sbaccess64 := w.getLsbD 3
    sbaccess32 := w.getLsbD 2, sbaccess16 := w.getLsbD 1, sbaccess8 := w.getLsbD 0 }

def Sbcs.toWord (s : Sbcs) : BitVec 32 :=
  s.sbversion ++ s.zero0 ++ BitVec.ofBool s.sbbusyerror ++ BitVec.ofBool s.sbbusy
    ++ BitVec.ofBool s.sbreadonaddr ++ s.sbaccess ++ BitVec.ofBool s.sbautoincrement
    ++ BitVec.ofBool s.sbreadondata ++ s.sberror ++ s.sbasize ++ BitVec.ofBool s.sbaccess128
    ++ BitVec.ofBool s.sbaccess64 ++ BitVec.ofBool s.sbaccess32 ++ BitVec.ofBool s.sbaccess16
    ++ BitVec.ofBool s.sbaccess8

/-! ## Packed arrays

  `logic [k-1:0][31:0]` is a vector of `32 * k` bits; element `j` starts at bit `32 * j`. -/

/-- `v[j]` -/
def getWord {n : Nat} (v : BitVec n) (j : Nat) : BitVec 32 := v.extractLsb' (32 * j) 32

/-- `v[j] = x` -/
def setWord {n : Nat} (v : BitVec n) (j : Nat) (x : BitVec 32) : BitVec n :=
  (v &&& ~~~((0xFFFFFFFF#32).setWidth n <<< (32 * j))) ||| (x.setWidth n <<< (32 * j))

theorem setWord_bit {n : Nat} (v : BitVec n) (j : Nat) (x : BitVec 32) (k : Nat) (hk : k < n) :
    (setWord v j x).getLsbD k
      = if 32 * j ≤ k ∧ k < 32 * j + 32 then x.getLsbD (k - 32 * j) else v.getLsbD k := by
  have hones : ∀ m, (0xFFFFFFFF#32).getLsbD m = decide (m < 32) :=
    fun m => BitVec.getLsbD_allOnes
  simp only [setWord, BitVec.getLsbD_or, BitVec.getLsbD_and, BitVec.getLsbD_not,
    BitVec.getLsbD_shiftLeft, BitVec.getLsbD_setWidth, hk, decide_true, Bool.true_and]
  rcases Nat.lt_or_ge k (32 * j) with hlow | hlow
  · simp [hlow, Nat.not_le.mpr hlow]
  · have hin : k - 32 * j < n := by omega
    rcases Nat.lt_or_ge k (32 * j + 32) with hhigh | hhigh
    · have hword : k - 32 * j < 32 := by omega
      simp [Nat.not_lt.mpr hlow, hlow, hhigh, hin, hones, hword]
    · have hout : ¬ k - 32 * j < 32 := by omega
      have hx : x.getLsbD (k - 32 * j) = false := BitVec.getLsbD_of_ge _ _ (by omega)
      simp [Nat.not_lt.mpr hlow, Nat.not_lt.mpr hhigh, hones, hout, hx]

theorem getWord_setWord {n : Nat} (v : BitVec n) (j : Nat) (x : BitVec 32) {k : Nat}
    (hk : 32 * k + 32 ≤ n) :
    getWord (setWord v j x) k = if k = j then x else getWord v k := by
  apply BitVec.eq_of_getLsbD_eq
  intro b hb
  unfold getWord
  rw [BitVec.getLsbD_extractLsb', setWord_bit _ _ _ _ (by omega)]
  rcases Nat.lt_trichotomy k j with h | h | h
  · rw [if_neg (by omega), if_neg (Nat.ne_of_lt h), BitVec.getLsbD_extractLsb']
  · subst h
    rw [if_pos (by omega), if_pos rfl, Nat.add_sub_cancel_left]
    simp [hb]
  · rw [if_neg (by omega), if_neg (Nat.ne_of_gt h), BitVec.getLsbD_extractLsb']

/-- The word at the bottom of a double word. -/
theorem getWord_zero (v : BitVec 64) : v.setWidth 32 = getWord v 0 := by
  apply BitVec.eq_of_getLsbD_eq
  intro b hb
  unfold getWord
  rw [BitVec.getLsbD_setWidth, BitVec.getLsbD_extractLsb', Nat.mul_zero, Nat.zero_add]

/-- `v[j] = b` for a single bit. -/
def setBit {n : Nat} (v : BitVec n) (j : Nat) (b : Bool) : BitVec n :=
  (v &&& ~~~((1#1).setWidth n <<< j)) ||| ((BitVec.ofBool b).setWidth n <<< j)

theorem setBit_getLsbD {n : Nat} (v : BitVec n) (j : Nat) (b : Bool) (k : Nat) (hk : k < n) :
    (setBit v j b).getLsbD k = if k = j then b else v.getLsbD k := by
  have hone : ∀ (x : BitVec 1) (m : Nat), m ≠ 0 → x.getLsbD m = false :=
    fun x m hm => BitVec.getLsbD_of_ge _ _ (by omega)
  simp only [setBit, BitVec.getLsbD_or, BitVec.getLsbD_and, BitVec.getLsbD_not,
    BitVec.getLsbD_shiftLeft, BitVec.getLsbD_setWidth, hk, decide_true, Bool.true_and]
  rcases Nat.lt_trichotomy k j with h | h | h
  · simp [h, Nat.ne_of_lt h]
  · subst h
    cases b <;> simp [Nat.pos_of_ne_zero (by omega : n ≠ 0)]
  · have hne : k - j ≠ 0 := by omega
    simp [Nat.not_lt.mpr (Nat.le_of_lt h), Nat.ne_of_gt h, hone _ _ hne]

theorem setBit_false {n : Nat} (v : BitVec n) (j : Nat) {k : Nat} (hk : k < n) :
    (setBit v j false).getLsbD k = (k != j && v.getLsbD k) := by
  rw [setBit_getLsbD _ _ _ _ hk]
  split_ifs with h
  · rw [bne_eq_false_iff_eq.mpr h, Bool.false_and]
  · rw [bne_iff_ne.mpr h, Bool.true_and]

theorem setBit_true {n : Nat} (v : BitVec n) (j : Nat) {k : Nat} (hk : k < n) :
    (setBit v j true).getLsbD k = (j == k || v.getLsbD k) := by
  rw [setBit_getLsbD _ _ _ _ hk]
  split_ifs with h
  · rw [beq_iff_eq.mpr h.symm, Bool.true_or]
  · rw [beq_eq_false_iff_ne.mpr (Ne.symm h), Bool.false_or]

/-! ## Instruction words -/

abbrev CSR_DSCRATCH0 : BitVec 12 := 0x7b2
abbrev CSR_DSCRATCH1 : BitVec 12 := 0x7b3

def jal (rd : BitVec 5) (imm : BitVec 21) : BitVec 32 :=
  BitVec.ofBool (imm.getLsbD 20) ++ imm.extractLsb' 1 10 ++ BitVec.ofBool (imm.getLsbD 11)
    ++ imm.extractLsb' 12 8 ++ rd ++ (0x6f : BitVec 7)

def slli (rd rs1 : BitVec 5) (shamt : BitVec 6) : BitVec 32 :=
  (0 : BitVec 6) ++ shamt ++ rs1 ++ (1 : BitVec 3) ++ rd ++ (0x13 : BitVec 7)

def srli (rd rs1 : BitVec 5) (shamt : BitVec 6) : BitVec 32 :=
  (0 : BitVec 6) ++ shamt ++ rs1 ++ (5 : BitVec 3) ++ rd ++ (0x13 : BitVec 7)

def load (size : BitVec 3) (dest base : BitVec 5) (offset : BitVec 12) : BitVec 32 :=
  offset ++ base ++ size ++ dest ++ (0x03 : BitVec 7)

def auipc (rd : BitVec 5) (imm : BitVec 21) : BitVec 32 :=
  BitVec.ofBool (imm.getLsbD 20) ++ imm.extractLsb' 1 10 ++ BitVec.ofBool (imm.getLsbD 11)
    ++ imm.extractLsb' 12 8 ++ rd ++ (0x17 : BitVec 7)

def store (size : BitVec 3) (src base : BitVec 5) (offset : BitVec 12) : BitVec 32 :=
  offset.extractLsb' 5 7 ++ src ++ base ++ size ++ offset.extractLsb' 0 5 ++ (0x23 : BitVec 7)

def floatLoad (size : BitVec 3) (dest base : BitVec 5) (offset : BitVec 12) : BitVec 32 :=
  offset ++ base ++ size ++ dest ++ (0b0000111 : BitVec 7)

def floatStore (size : BitVec 3) (src base : BitVec 5) (offset : BitVec 12) : BitVec 32 :=
  offset.extractLsb' 5 7 ++ src ++ base ++ size ++ offset.extractLsb' 0 5 ++ (0b0100111 : BitVec 7)

def csrw (csr : BitVec 12) (rs1 : BitVec 5) : BitVec 32 :=
  csr ++ rs1 ++ (1 : BitVec 3) ++ (0 : BitVec 5) ++ (0x73 : BitVec 7)

def csrr (csr : BitVec 12) (dest : BitVec 5) : BitVec 32 :=
  csr ++ (0 : BitVec 5) ++ (2 : BitVec 3) ++ dest ++ (0x73 : BitVec 7)

def ebreak : BitVec 32 := 0x00100073
def nop : BitVec 32 := 0x00000013
def illegal : BitVec 32 := 0x00000000

end RiscDbgUart
