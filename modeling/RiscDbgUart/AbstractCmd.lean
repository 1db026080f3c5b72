/-
  `dm_mem.sv`, `p_abstract_cmd_rom`: the program a hart executes for an abstract command, and which
  commands are refused.

  The program is ten 32-bit words; `abstract_cmd[j]` of the source is words `2j` and `2j + 1`.  The
  block assigns default words and then overwrites some of them depending on the command, so a program
  is built here by the same assignments on a list of words.

  With the debug module outside the zero page (`HasSndScratch`) the program loads the module's base
  into `a0`, which it saves in `dscratch1` before.

  Each branch of the source is a definition of its own here: `writeRegister` and `readRegister` for the
  two directions, `transferRegister` for the checks in front of them, `accessRegister` for the way out
  of the program, and `ofCommand` for the choice by the type of the command.  A command that is
  refused has `ebreak` as its first word, so that a hart sent there would come back at once.
-/
import RiscDbgUart.DmPkg

set_option linter.unusedVariables false

namespace RiscDbgUart

/-- `MaxAar` for `BusWidth = w` -/
def maxAar (w : Nat) : Nat := if w = 64 then 4 else 3

/-- `LoadBaseAddr` -/
def loadBaseAddr (hasSndScratch : Bool) : BitVec 5 := if hasSndScratch then 10 else 0

/-- What `p_abstract_cmd_rom` drives. -/
structure AbstractCmd where
  words : List (BitVec 32)
  unsupportedCommand : Bool
deriving DecidableEq, Repr

namespace AbstractCmd

/-- `abstract_cmd[j][63:0]` -/
def word (a : AbstractCmd) (j : Nat) : BitVec 64 :=
  a.words.getD (2 * j + 1) 0 ++ a.words.getD (2 * j) 0

/-- `abstract_cmd[j][31:0] = x` for even, `abstract_cmd[j][63:32] = x` for odd positions. -/
def set (a : AbstractCmd) (k : Nat) (x : BitVec 32) : AbstractCmd := { a with words := a.words.set k x }

/-- `unsupported_command = 1`, and the program leaves at once. -/
def refuse (a : AbstractCmd) : AbstractCmd := { a.set 0 ebreak with unsupportedCommand := true }

/-- The default words: the base of the debug module goes to `a0` and comes back at the end, with four places
    in between.  The first word is no instruction, so a program that nothing is assigned to traps at once. -/
def initial (snd : Bool) : AbstractCmd :=
  { words :=
      [illegal, if snd then auipc 10 0 else nop,
       if snd then srli 10 10 12 else nop, if snd then slli 10 10 12 else nop,
       nop, nop,
       nop, nop,
       if snd then csrr CSR_DSCRATCH1 10 else nop, ebreak]
    unsupportedCommand := false }

/-- The register is `a0`, which the program itself uses. -/
def isA0 (snd : Bool) (ar : AcArCmd) : Bool :=
  snd && ar.regno.getLsbD 12 && !ar.regno.getLsbD 5 && ar.regno.extractLsb' 0 5 == 10

/-- Words 4 to 7 with `s0` saved before and restored after. -/
def viaS0 (a : AbstractCmd) (x y : BitVec 32) : AbstractCmd :=
  (((a.set 4 (csrw CSR_DSCRATCH0 8)).set 5 x).set 6 y).set 7 (csrr CSR_DSCRATCH0 8)

/-- From the data register to the named register: by way of `s0` where the register is a CSR or `a0`
    itself, and directly otherwise. -/
def writeRegister (snd : Bool) (ar : AcArCmd) (a : AbstractCmd) : AbstractCmd :=
  let base := loadBaseAddr snd
  let a := a.set 0 (if snd then csrw CSR_DSCRATCH1 10 else nop)
  -- this range is reserved
  if ar.regno.extractLsb' 14 2 != 0 then a.refuse
  else if isA0 snd ar then
    a.viaS0 (load ar.aarsize 8 base DataAddr) (csrw CSR_DSCRATCH1 8)
  else if ar.regno.getLsbD 12 then
    if ar.regno.getLsbD 5 then
      a.set 4 (floatLoad ar.aarsize (ar.regno.extractLsb' 0 5) base DataAddr)
    else a.set 4 (load ar.aarsize (ar.regno.extractLsb' 0 5) base DataAddr)
  else
    a.viaS0 (load ar.aarsize 8 base DataAddr) (csrw (ar.regno.extractLsb' 0 12) 8)

/-- From the named register to the data register, the other way round. -/
def readRegister (snd : Bool) (ar : AcArCmd) (a : AbstractCmd) : AbstractCmd :=
  let base := loadBaseAddr snd
  let a := a.set 0 (if snd then csrw CSR_DSCRATCH1 base else nop)
  -- this range is reserved
  if ar.regno.extractLsb' 14 2 != 0 then a.refuse
  else if isA0 snd ar then
    a.viaS0 (csrr CSR_DSCRATCH1 8) (store ar.aarsize 8 base DataAddr)
  else if ar.regno.getLsbD 12 then
    if ar.regno.getLsbD 5 then
      a.set 4 (floatStore ar.aarsize (ar.regno.extractLsb' 0 5) base DataAddr)
    else a.set 4 (store ar.aarsize (ar.regno.extractLsb' 0 5) base DataAddr)
  else
    a.viaS0 (csrr (ar.regno.extractLsb' 0 12) 8) (store ar.aarsize 8 base DataAddr)

/-- The `AccessRegister` branch up to the check for `postexec`.  The third condition is reached by commands
    without a transfer, and by those whose size is out of range. -/
def transferRegister (w : Nat) (snd : Bool) (ar : AcArCmd) (a : AbstractCmd) : AbstractCmd :=
  if ar.aarsize.toNat < maxAar w && ar.transfer && ar.write then writeRegister snd ar a
  else if ar.aarsize.toNat < maxAar w && ar.transfer && !ar.write then readRegister snd ar a
  else if maxAar w ≤ ar.aarsize.toNat || ar.aarpostincrement then a.refuse
  else a

/-- The `AccessRegister` branch: the transfer, if any, and the way out of the program. -/
def accessRegister (w : Nat) (snd : Bool) (ar : AcArCmd) : AbstractCmd :=
  let a := transferRegister w snd ar (initial snd)
  -- run into the program buffer, but not with an unsupported command
  if ar.postexec && !a.unsupportedCommand then a.set 9 nop else a

/-- `p_abstract_cmd_rom` -/
def ofCommand (w : Nat) (snd : Bool) (cmd : Command) : AbstractCmd :=
  if cmd.cmdtype = AccessRegister then accessRegister w snd (AcArCmd.ofControl cmd.control)
  else (initial snd).refuse

/-! ## The length of a program -/

@[simp] theorem length_set (a : AbstractCmd) (k : Nat) (x : BitVec 32) :
    (a.set k x).words.length = a.words.length := List.length_set

@[simp] theorem length_refuse (a : AbstractCmd) : a.refuse.words.length = a.words.length :=
  length_set a 0 ebreak

@[simp] theorem length_viaS0 (a : AbstractCmd) (x y : BitVec 32) :
    (a.viaS0 x y).words.length = a.words.length := by
  simp only [viaS0, length_set]

/-- Every program has ten words. -/
theorem length_words (w : Nat) (snd : Bool) (cmd : Command) :
    (ofCommand w snd cmd).words.length = 10 := by
  have hwrite (ar : AcArCmd) (a : AbstractCmd) :
      (writeRegister snd ar a).words.length = a.words.length := by
    unfold writeRegister
    split_ifs <;> simp only [length_set, length_refuse, length_viaS0]
  have hread (ar : AcArCmd) (a : AbstractCmd) :
      (readRegister snd ar a).words.length = a.words.length := by
    unfold readRegister
    split_ifs <;> simp only [length_set, length_refuse, length_viaS0]
  have htransfer (ar : AcArCmd) (a : AbstractCmd) :
      (transferRegister w snd ar a).words.length = a.words.length := by
    unfold transferRegister
    split_ifs <;> simp only [hwrite, hread, length_refuse]
  unfold ofCommand accessRegister
  dsimp only
  split_ifs
  · exact (length_set _ _ _).trans (htransfer _ _)
  · exact htransfer _ _
  · exact length_refuse _

end AbstractCmd

/-- `unsupported_command` -/
def unsupportedCommand (w : Nat) (snd : Bool) (cmd : Command) : Bool :=
  (AbstractCmd.ofCommand w snd cmd).unsupportedCommand

end RiscDbgUart
