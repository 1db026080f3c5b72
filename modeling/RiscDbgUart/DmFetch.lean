/-
  What a hart fetches from the debug module.

  The debug module is one page of the hart's address space.  Its answer to a load is ready in the cycle
  after the request, a double word from the ROM or from the registers, of which a 32-bit bus gets the
  half that was addressed.  `fetched` is the instruction word a hart gets so, and the three theorems at
  the end say where the code is: the ROM at the halt address, the program of the abstract command,
  and the jump to it.

  An instruction fetch is a load of its word.  `answer_registers` is a load below the ROM and `answer_rom`
  one inside it; `fetched_getD` takes the addressed word out of the double word.  `contains_rom`,
  `contains_abstractCmd` and `fetched_whereTo` are the three theorems, for both widths of the bus.
-/
import RiscDbgUart.DmMem
import RiscDbgUart.Riscv.Run

set_option linter.unusedVariables false

namespace RiscDbgUart.DmFetch

open Riscv DmMem

variable {n w : Nat}

/-! ## Addresses -/

/-- An address of the debug module as the hart sees it. -/
def dmAddr (w : Nat) (p : Params n) (a : BitVec 12) : BitVec w :=
  p.dmBaseAddress.setWidth w + a.setWidth w

/-- Addresses within the debug module add up, as long as they stay in its page. -/
theorem dmAddr_add (p : Params n) (hw : w = 32 ∨ w = 64) (a : BitVec 12) (k : Nat)
    (h : a.toNat + k < 4096) :
    dmAddr w p a + BitVec.ofNat w k = dmAddr w p (a + BitVec.ofNat 12 k) := by
  have h12 : 2 ^ 12 ≤ 2 ^ w := by rcases hw with rfl | rfl <;> decide
  unfold dmAddr
  rw [BitVec.add_assoc, BitVec.add_right_inj]
  apply BitVec.eq_of_toNat_eq
  have ha := a.isLt
  rw [BitVec.toNat_add, BitVec.toNat_setWidth, BitVec.toNat_setWidth, BitVec.toNat_add,
    BitVec.toNat_ofNat, BitVec.toNat_ofNat, Nat.mod_eq_of_lt (by omega : a.toNat < 2 ^ w),
    Nat.add_mod_mod, Nat.add_mod_mod, Nat.mod_eq_of_lt (by omega : a.toNat + k < 2 ^ 12)]

theorem width_lt (hw : w = 32 ∨ w = 64) : 12 < w := by omega

/-- The base of the debug module is a page of the hart's address space too. -/
theorem page_setWidth (p : Params n) (hw : w = 32 ∨ w = 64) (hpage : 4096 ∣ p.dmBaseAddress.toNat) :
    4096 ∣ (p.dmBaseAddress.setWidth w : BitVec w).toNat := by
  have hle : 2 ^ 32 ≤ 2 ^ w := Nat.pow_le_pow_right (by decide) (by omega)
  have hlt := p.dmBaseAddress.isLt
  rw [BitVec.toNat_setWidth, Nat.mod_eq_of_lt (by omega)]
  exact hpage

/-- The debug module decodes the low bits of an address, and in an aligned page they are the offset. -/
theorem dmAddr_setWidth (p : Params n) (hw : w = 32 ∨ w = 64) (hpage : 4096 ∣ p.dmBaseAddress.toNat)
    (a : BitVec 12) : (dmAddr w p a).setWidth 12 = a := by
  obtain ⟨m, hm⟩ := page_setWidth p hw hpage
  have h12 : 4096 ∣ 2 ^ w := Nat.pow_dvd_pow 2 (by omega : 12 ≤ w)
  apply BitVec.eq_of_toNat_eq
  rw [BitVec.toNat_setWidth, dmAddr, BitVec.toNat_add, hm, BitVec.toNat_setWidth,
    Nat.mod_mod_of_dvd _ h12, Nat.mul_add_mod, Nat.mod_mod_of_dvd _ h12]
  exact Nat.mod_eq_of_lt a.isLt

/-! ## Instruction fetch -/

/-- The code of the ROM. -/
def romCode (snd : Bool) : List (BitVec 32) :=
  (romWords snd).flatMap fun d => [d.extractLsb' 0 32, d.extractLsb' 32 32]

/-- The cycle in which the hart asks for the word at `a`. -/
def request (i : Input n w) (a : BitVec w) : Input n w := { i with busI := { reqI := true, addrI := a } }

/-- The double word the debug module answers with. -/
def answer (p : Params n) (s : State n) (i : Input n w) (a : BitVec w) : BitVec 64 :=
  if (next p s (request i a)).fwdRom then romRdata p (next p s (request i a))
  else (next p s (request i a)).rdata

/-- The instruction word the hart gets: of a 64-bit answer it takes the half itself. -/
def fetched (p : Params n) (s : State n) (i : Input n w) (a : BitVec w) : BitVec 32 :=
  if w = 64 ∧ a.getLsbD 2 = true then (rdataO p w (next p s (request i a))).extractLsb' 32 32
  else (rdataO p w (next p s (request i a))).extractLsb' 0 32

theorem fetched_half (p : Params n) (hw : w = 32 ∨ w = 64) (s : State n) (i : Input n w)
    (a : BitVec w) :
    fetched p s i a = if a.getLsbD 2 = true then (answer p s i a).extractLsb' 32 32
      else (answer p s i a).extractLsb' 0 32 := by
  rcases hw with rfl | rfl
  · have hdata : rdataO p 32 (next p s (request i a))
        = if a.getLsbD 2 = true then ((answer p s i a).extractLsb' 32 32).setWidth 32
          else ((answer p s i a).extractLsb' 0 32).setWidth 32 := by
      unfold rdataO
      exact if_neg (by decide)
    rw [fetched, hdata, if_neg (fun h => absurd h.1 (by decide)), BitVec.setWidth_eq,
      BitVec.setWidth_eq, BitVec.extractLsb'_eq_self]
  · have hdata : rdataO p 64 (next p s (request i a)) = answer p s i a := by
      unfold rdataO
      exact (if_pos rfl).trans (BitVec.setWidth_eq _)
    rw [fetched, hdata]
    exact if_congr (and_iff_right rfl) rfl rfl

/-- The half of a double word that is word `j` of what it is part of. -/
theorem half_getD {xs : List (BitVec 32)} {d : BitVec 64} {j : Nat}
    (hd : d = xs.getD (2 * (j / 2) + 1) 0 ++ xs.getD (2 * (j / 2)) 0) :
    (if j % 2 = 1 then d.extractLsb' 32 32 else d.extractLsb' 0 32) = xs.getD j 0 := by
  rw [hd]
  split_ifs with hodd
  · rw [BitVec.extractLsb'_append_eq_left]
    exact congrArg (xs.getD · 0) (by omega)
  · rw [BitVec.extractLsb'_append_eq_right]
    exact congrArg (xs.getD · 0) (by omega)

/-- A request is a load. -/
theorem request_load (i : Input n w) (a : BitVec w) :
    ((request i a).busI.reqI && !(request i a).busI.weI) = true := rfl

section Code

variable (p : Params n) (s : State n) (i : Input n w)

/-- Below the halt address the answer comes from the registers. -/
theorem answer_registers {a : BitVec w} (h : ¬ HaltAddress.setWidth 12 ≤ a.setWidth 12) :
    answer p s i a = rdataD p s (request i a) := by
  have hrom : (next p s (request i a)).fwdRom = false := decide_eq_false h
  rw [answer, hrom, if_neg Bool.false_ne_true]
  rfl

/-- From the halt address on the answer comes from the ROM. -/
theorem answer_rom {a : BitVec w} (h : HaltAddress.setWidth 12 ≤ a.setWidth 12) :
    answer p s i a = (romWords p.hasSndScratch).getD (romIndex p.hasSndScratch a) 0 := by
  have hrom : (next p s (request i a)).fwdRom = true := decide_eq_true h
  rw [answer, hrom, if_pos rfl]
  rfl

/-- A word of the debug module, once the double word it is in is known. -/
theorem fetched_getD (hw : w = 32 ∨ w = 64) (hpage : 4096 ∣ p.dmBaseAddress.toNat) (b : BitVec 12)
    (xs : List (BitVec 32)) (j : Nat) (hb : b.toNat + 4 * j < 4096) (hbit : b.toNat % 8 = 0)
    (hword : answer p s i (dmAddr w p (b + BitVec.ofNat 12 (4 * j)))
      = xs.getD (2 * (j / 2) + 1) 0 ++ xs.getD (2 * (j / 2)) 0) :
    fetched p s i (dmAddr w p b + BitVec.ofNat w (4 * j)) = xs.getD j 0 := by
  have hodd : (dmAddr w p (b + BitVec.ofNat 12 (4 * j))).getLsbD 2 = true ↔ j % 2 = 1 := by
    have hlow := congrArg (BitVec.getLsbD · 2)
      (dmAddr_setWidth p hw hpage (b + BitVec.ofNat 12 (4 * j)))
    simp only [BitVec.getLsbD_setWidth] at hlow
    rw [decide_eq_true (by decide : 2 < 12), Bool.true_and] at hlow
    rw [hlow, BitVec.getLsbD, Nat.testBit_eq_decide_div_mod_eq, decide_eq_true_eq, BitVec.toNat_add,
      BitVec.toNat_ofNat, Nat.add_mod_mod, Nat.mod_eq_of_lt hb]
    omega
  rw [dmAddr_add p hw b _ hb, fetched_half p hw, ← half_getD hword]
  exact if_congr hodd rfl rfl

/-- **The program of the command register** is where the jump goes.  It is generated from the register in
    every cycle, so it is there as long as the register is not written. -/
theorem contains_abstractCmd (hw : w = 32 ∨ w = 64) (hpage : 4096 ∣ p.dmBaseAddress.toNat) :
    Contains (fetched p s i) (dmAddr w p AbstractCmdBaseAddr)
      (AbstractCmd.ofCommand w p.hasSndScratch i.cmdI).words := by
  -- where the words are, and that no other part of the address map answers
  have hmap : ∀ j < 10, ∀ b : BitVec 12, b = AbstractCmdBaseAddr + BitVec.ofNat 12 (4 * j) →
      ¬ HaltAddress.setWidth 12 ≤ b ∧ b ≠ WhereToAddr ∧ ¬ (DataBaseAddr ≤ b ∧ b ≤ DataEndAddr) ∧
      ¬ (ProgBufBaseAddr ≤ b ∧ b ≤ ProgBufEndAddr) ∧
      (AbstractCmdBaseAddr ≤ b ∧ b ≤ AbstractCmdEndAddr) ∧
      (b.extractLsb' 3 9 - AbstractCmdBaseAddr.extractLsb' 3 9).toNat % 8 = j / 2 := by
    intro j hj b hb
    subst hb
    revert j
    decide
  apply contains_of_getD
  intro j hj
  rw [AbstractCmd.length_words] at hj
  obtain ⟨hrom, hwhere, hdata, hprog, hcmd, hword⟩ := hmap j hj _ rfl
  have hbase : AbstractCmdBaseAddr.toNat = 0x338 := rfl
  refine fetched_getD p s i hw hpage _ _ j (by omega) rfl ?_
  have haddr : (request i (dmAddr w p (AbstractCmdBaseAddr + BitVec.ofNat 12 (4 * j)))).busI.addr
      = AbstractCmdBaseAddr + BitVec.ofNat 12 (4 * j) := dmAddr_setWidth p hw hpage _
  rw [answer_registers p s i (by rw [dmAddr_setWidth p hw hpage]; exact hrom), rdataD]
  rw [haddr, if_pos (request_load i _), if_neg hwhere, if_neg hdata, if_neg hprog, if_pos hcmd,
    doubleWord, haddr, hword]
  rfl

/-- The two words of a double word of the ROM. -/
theorem romWords_code (snd : Bool) (j : Nat) (hj : j < (romCode snd).length) :
    (romWords snd).getD (j / 2) 0
      = (romCode snd).getD (2 * (j / 2) + 1) 0 ++ (romCode snd).getD (2 * (j / 2)) 0 := by
  revert j
  cases snd <;> decide

theorem length_romCode (snd : Bool) : (romCode snd).length = if snd then 38 else 26 := by
  cases snd <;> decide

/-- Of a ROM address the ROM looks at the low bits, those of the double word it is in. -/
theorem romIndex_low {snd : Bool} {a : BitVec w} {j : Nat} (hj : j < (romCode snd).length)
    (ha : a.toNat % 4096 = 0x800 + 4 * j) : romIndex snd a = j / 2 := by
  rw [length_romCode] at hj
  cases snd
  · have hsize : clog2 (romWords false).length = 4 := by decide
    rw [if_neg Bool.false_ne_true] at hj
    rw [romIndex, hsize]
    omega
  · have hsize : clog2 (romWords true).length = 5 := by decide
    rw [if_pos rfl] at hj
    rw [romIndex, hsize]
    omega

/-- **The ROM** is at the halt address, in every state of the debug module and for both widths of the bus:
    it is not a register. -/
theorem contains_rom (hw : w = 32 ∨ w = 64) (hpage : 4096 ∣ p.dmBaseAddress.toNat) :
    Contains (fetched p s i) (dmAddr w p (HaltAddress.setWidth 12)) (romCode p.hasSndScratch) := by
  have hbase : (HaltAddress.setWidth 12 : BitVec 12).toNat = 0x800 := rfl
  apply contains_of_getD
  intro j hj
  have hlength : (romCode p.hasSndScratch).length ≤ 38 := by
    rw [length_romCode]
    split_ifs <;> decide
  have hsum : (HaltAddress.setWidth 12 + BitVec.ofNat 12 (4 * j)).toNat = 0x800 + 4 * j := by
    rw [BitVec.toNat_add, BitVec.toNat_ofNat, Nat.add_mod_mod, hbase, Nat.mod_eq_of_lt (by omega)]
  have hlow := dmAddr_setWidth p hw hpage (HaltAddress.setWidth 12 + BitVec.ofNat 12 (4 * j))
  have haddr := congrArg BitVec.toNat hlow
  rw [BitVec.toNat_setWidth, hsum] at haddr
  refine fetched_getD p s i hw hpage _ _ j (by omega) rfl ?_
  rw [answer_rom p s i, romIndex_low hj haddr, romWords_code _ j hj]
  rw [hlow, BitVec.le_def, hsum, hbase]
  exact Nat.le_add_right _ _

/-- **The jump** to the program, while a command is under way.  What a hart fetches there at other times is
    not used by the ROM. -/
theorem fetched_whereTo (hw : w = 32 ∨ w = 64) (hpage : 4096 ∣ p.dmBaseAddress.toNat)
    (hbusy : cmdbusyO s = true) (hpost : (AcArCmd.ofControl i.cmdI.control).postexec = false) :
    fetched p s i (dmAddr w p WhereToAddr)
      = jal 0 (AbstractCmdBaseAddr.setWidth 21 - WhereToAddr.setWidth 21) := by
  have haddr : (request i (dmAddr w p WhereToAddr)).busI.addr = WhereToAddr :=
    dmAddr_setWidth p hw hpage _
  have hanswer : answer p s i (dmAddr w p WhereToAddr) = (0 : BitVec 32)
      ++ jal 0 (AbstractCmdBaseAddr.setWidth 21 - WhereToAddr.setWidth 21) := by
    rw [answer_registers p s i (by rw [dmAddr_setWidth p hw hpage]; decide), rdataD, haddr,
      if_pos (request_load i _), if_pos rfl, whereTo, if_pos hbusy, if_neg]
    rw [show (AcArCmd.ofControl (request i _).cmdI.control).postexec = false from hpost, Bool.and_false]
    exact Bool.false_ne_true
  have hbit : (dmAddr w p WhereToAddr).getLsbD 2 = false := by
    have hlow := congrArg (BitVec.getLsbD · 2) (dmAddr_setWidth p hw hpage WhereToAddr)
    simp only [BitVec.getLsbD_setWidth] at hlow
    exact hlow
  rw [fetched_half p hw, hbit, if_neg Bool.false_ne_true, hanswer]
  exact BitVec.extractLsb'_append_eq_right

end Code

end RiscDbgUart.DmFetch
