/-
  Runs of a hart, and the rule for straight-line code.

  `steps` executes a number of instructions, as long as none of them traps or leaves the monitor.
  Where the code at the program counter decodes to a list of instructions that do not jump
  (`Presents`), the run is the execution of that list, one instruction after the other
  (`steps_of_presents`).

  `FirstAt` is the first state of a run at some place, which is what it means for code to come to its end;
  there is at most one (`firstAt_unique`).  `steps_before_trap` says of straight-line code that is presented
  up to an access that traps: every state of the run is one of its words.

  How the lists are used: a program is a list of instructions, what is in the memory a list of words, and
  `presents_of_contains` decides from the words that they are the program.  What a stretch of the
  program does is then a computation with `execs`, and the single instructions below are its rules,
  one lemma for each with the state it leads to.  `execs_page` is the one rule for three of them
  together: `auipc`, `srli` and `slli` find the page of the code.
-/
import RiscDbgUart.Riscv.Effects

set_option linter.unusedVariables false

namespace Riscv

variable {w f : Nat}

/-- The state after an instruction that goes on. -/
def Outcome.state : Outcome w f → Option (Hart w f)
  | .next s => some s
  | _ => none

/-- The state after `n` instructions, if none of them leaves the code. -/
def steps (ext : Extensions f) (fetch : BitVec w → BitVec 32) : Nat → Hart w f → Option (Hart w f)
  | 0, s => some s
  | n + 1, s => (step ext fetch s).state.bind (steps ext fetch n)

/-- The state after a list of instructions. -/
def execs (ext : Extensions f) : List Instr → Hart w f → Option (Hart w f)
  | [], s => some s
  | i :: is, s => (exec ext s i).state.bind (execs ext is)

/-- The code from `a` on decodes to the instructions. -/
def Presents (fetch : BitVec w → BitVec 32) : BitVec w → List Instr → Prop
  | _, [] => True
  | a, i :: is => decode (fetch a) = some i ∧ Presents fetch (a + 4) is

/-- The code from `a` on is these words. -/
def Contains (fetch : BitVec w → BitVec 32) : BitVec w → List (BitVec 32) → Prop
  | _, [] => True
  | a, x :: xs => fetch a = x ∧ Contains fetch (a + 4) xs

/-- The address that the hart's instruction stores to. -/
def storing (fetch : BitVec w → BitVec 32) (s : Hart w f) : Option (BitVec w) :=
  match decode (fetch s.pc) with
  | some (.store _ _ rs1 imm) => some (effective s rs1 imm)
  | some (.storeFp _ _ rs1 imm) => some (effective s rs1 imm)
  | _ => none

section Rules

variable {ext : Extensions f} {fetch : BitVec w → BitVec 32}

theorem steps_add (m n : Nat) (s : Hart w f) :
    steps ext fetch (m + n) s = (steps ext fetch m s).bind (steps ext fetch n) := by
  induction m generalizing s with
  | zero => rw [Nat.zero_add]; rfl
  | succ m ih =>
    rw [Nat.succ_add, steps, steps, Option.bind_assoc]
    exact congrArg _ (funext ih)

theorem execs_append (is js : List Instr) (s : Hart w f) :
    execs ext (is ++ js) s = (execs ext is s).bind (execs ext js) := by
  induction is generalizing s with
  | nil => rfl
  | cons i is ih =>
    rw [List.cons_append, execs, execs, Option.bind_assoc]
    exact congrArg _ (funext ih)

/-- **Straight-line code** runs as its list of instructions: if the memory presents them from the program
    counter on, the steps are theirs, and neither can trap where the other does not. -/
theorem steps_of_presents (is : List Instr) (s : Hart w f) (hcode : Presents fetch s.pc is)
    (hs : ∀ i ∈ is, i.straight = true) : steps ext fetch is.length s = execs ext is s := by
  induction is generalizing s with
  | nil => rfl
  | cons i is ih =>
    obtain ⟨hi, hrest⟩ := hcode
    have hstep : step ext fetch s = exec ext s i := by
      unfold step
      rw [hi]
    rw [List.length_cons, steps, execs, hstep]
    cases hexec : exec ext s i with
    | next s' =>
      have hpc := exec_pc (hs i (List.mem_cons_self ..)) hexec
      rw [← hpc] at hrest
      exact ih s' hrest fun j hj => hs j (List.mem_cons_of_mem i hj)
    | ebreak => rfl
    | dret => rfl
    | trap => rfl

/-- Where the program counter is after straight-line code: four bytes further for each instruction. -/
theorem execs_pc (is : List Instr) (s s' : Hart w f) (hs : ∀ i ∈ is, i.straight = true)
    (h : execs ext is s = some s') : s'.pc = s.pc + BitVec.ofNat w (4 * is.length) := by
  induction is generalizing s with
  | nil =>
    cases h
    exact (BitVec.add_zero _).symm
  | cons i is ih =>
    rw [execs] at h
    cases hexec : exec ext s i with
    | next s₁ =>
      rw [hexec] at h
      rw [ih s₁ (fun j hj => hs j (List.mem_cons_of_mem i hj)) h,
        exec_pc (hs i (List.mem_cons_self ..)) hexec, List.length_cons, Nat.mul_succ, Nat.add_comm _ 4,
        BitVec.ofNat_add, BitVec.add_assoc]
      rfl
    | ebreak => rw [hexec] at h; cases h
    | dret => rw [hexec] at h; cases h
    | trap => rw [hexec] at h; cases h

theorem presents_append {a : BitVec w} (is js : List Instr) :
    Presents fetch a (is ++ js) ↔
      Presents fetch a is ∧ Presents fetch (a + BitVec.ofNat w (4 * is.length)) js := by
  induction is generalizing a with
  | nil => simp [Presents]
  | cons i is ih =>
    rw [List.cons_append, Presents, Presents, ih, and_assoc, List.length_cons, Nat.mul_succ,
      Nat.add_comm _ 4, BitVec.ofNat_add, BitVec.add_assoc]
    rfl

theorem decode_of_presents {a : BitVec w} (is : List Instr) (h : Presents fetch a is) {k : Nat}
    (hk : k < is.length) : decode (fetch (a + BitVec.ofNat w (4 * k))) = some (is.get ⟨k, hk⟩) := by
  induction is generalizing a k with
  | nil => exact absurd hk (Nat.not_lt_zero k)
  | cons i is ih =>
    cases k with
    | zero =>
      rw [Nat.mul_zero, BitVec.add_zero]
      exact h.1
    | succ k =>
      rw [Nat.mul_succ, Nat.add_comm _ 4, BitVec.ofNat_add, ← BitVec.add_assoc]
      exact ih h.2 (Nat.lt_of_succ_lt_succ hk)

/-- Words that decode to instructions present them.  Decoding a list is a computation, so for given words
    the hypothesis is decided. -/
theorem presents_of_contains {a : BitVec w} (xs : List (BitVec 32)) (is : List Instr)
    (hcode : Contains fetch a xs) (hdec : xs.map decode = is.map some) : Presents fetch a is := by
  induction xs generalizing a is with
  | nil =>
    cases is with
    | nil => trivial
    | cons i is => exact nomatch hdec
  | cons x xs ih =>
    cases is with
    | nil => exact nomatch hdec
    | cons i is =>
      rw [List.map_cons, List.map_cons, List.cons.injEq] at hdec
      exact ⟨by rw [hcode.1, hdec.1], ih is hcode.2 hdec.2⟩

theorem contains_of_getD {a : BitVec w} (xs : List (BitVec 32))
    (h : ∀ j < xs.length, fetch (a + BitVec.ofNat w (4 * j)) = xs.getD j 0) :
    Contains fetch a xs := by
  induction xs generalizing a with
  | nil => trivial
  | cons x xs ih =>
    refine ⟨?_, ih fun j hj => ?_⟩
    · have hfirst := h 0 (Nat.succ_pos _)
      rw [Nat.mul_zero, BitVec.add_zero] at hfirst
      exact hfirst
    · have hnext := h (j + 1) (Nat.succ_lt_succ hj)
      rw [Nat.mul_succ, Nat.add_comm _ 4, BitVec.ofNat_add, ← BitVec.add_assoc] at hnext
      exact hnext

theorem getD_of_contains {a : BitVec w} (xs : List (BitVec 32)) (h : Contains fetch a xs) {j : Nat}
    (hj : j < xs.length) : fetch (a + BitVec.ofNat w (4 * j)) = xs.getD j 0 := by
  induction xs generalizing a j with
  | nil => exact absurd hj (Nat.not_lt_zero j)
  | cons x xs ih =>
    cases j with
    | zero =>
      rw [Nat.mul_zero, BitVec.add_zero]
      exact h.1
    | succ j =>
      rw [Nat.mul_succ, Nat.add_comm _ 4, BitVec.ofNat_add, ← BitVec.add_assoc]
      exact ih h.2 (Nat.lt_of_succ_lt_succ hj)

theorem contains_drop {a : BitVec w} (xs : List (BitVec 32)) (h : Contains fetch a xs) (m : Nat) :
    Contains fetch (a + BitVec.ofNat w (4 * m)) (xs.drop m) := by
  induction m generalizing a xs with
  | zero =>
    rw [Nat.mul_zero, BitVec.add_zero]
    exact h
  | succ m ih =>
    cases xs with
    | nil => trivial
    | cons x xs =>
      rw [Nat.mul_succ, Nat.add_comm _ 4, BitVec.ofNat_add, ← BitVec.add_assoc]
      exact ih xs h.2

theorem contains_take {a : BitVec w} (xs : List (BitVec 32)) (h : Contains fetch a xs) (m : Nat) :
    Contains fetch a (xs.take m) := by
  induction m generalizing a xs with
  | zero => trivial
  | succ m ih =>
    cases xs with
    | nil => trivial
    | cons x xs => exact ⟨h.1, ih xs h.2⟩

/-- An instruction of the code, once the program counter is at it. -/
theorem step_of_presents {s : Hart w f} {i : Instr} (hcode : Presents fetch s.pc [i]) :
    step ext fetch s = exec ext s i := by
  unfold step
  rw [hcode.1]

/-- Part of the way through straight-line code, for statements about what happens in the middle of a
    program. -/
theorem steps_take (is : List Instr) {s : Hart w f} (hcode : Presents fetch s.pc is)
    (hs : ∀ i ∈ is, i.straight = true) {k : Nat} (hk : k ≤ is.length) :
    steps ext fetch k s = execs ext (is.take k) s := by
  have htake : (is.take k).length = k := by rw [List.length_take, Nat.min_eq_left hk]
  have hpart : Presents fetch s.pc (is.take k) := by
    rw [← List.take_append_drop k is] at hcode
    exact ((presents_append _ _).mp hcode).1
  have hrun := @steps_of_presents _ _ ext _ (is.take k) s hpart fun j hj =>
    hs j (List.mem_of_mem_take hj)
  rw [htake] at hrun
  exact hrun

theorem steps_pc (is : List Instr) {s s' : Hart w f} (hcode : Presents fetch s.pc is)
    (hs : ∀ i ∈ is, i.straight = true) {k : Nat} (hk : k ≤ is.length)
    (h : steps ext fetch k s = some s') : s'.pc = s.pc + BitVec.ofNat w (4 * k) := by
  rw [steps_take is hcode hs hk] at h
  have hpc := execs_pc (is.take k) s s' (fun j hj => hs j (List.mem_of_mem_take hj)) h
  rw [List.length_take, Nat.min_eq_left hk] at hpc
  exact hpc

/-- A run of straight-line code that traps ends there: before the trap the program counter has moved
    on by the instructions executed. -/
theorem steps_before_trap (is : List Instr) (i : Instr) {s t : Hart w f}
    (hcode : Presents fetch s.pc (is ++ [i])) (hs : ∀ j ∈ is, j.straight = true)
    (hexec : execs ext is s = some t) (htrap : exec ext t i = .trap) {k : Nat} {s' : Hart w f}
    (h : steps ext fetch k s = some s') :
    k ≤ is.length ∧ s'.pc = s.pc + BitVec.ofNat w (4 * k) := by
  obtain ⟨hbody, hlast⟩ := (presents_append is [i]).mp hcode
  rcases Nat.lt_or_ge is.length k with hgt | hle
  · obtain ⟨m, rfl⟩ : ∃ m, k = is.length + (m + 1) := ⟨k - is.length - 1, by omega⟩
    rw [steps_add, steps_of_presents is s hbody hs, hexec, Option.bind_some] at h
    rw [← execs_pc is s t hs hexec] at hlast
    rw [steps, step_of_presents hlast, htrap] at h
    exact nomatch h
  · exact ⟨hle, steps_pc is hbody hs hle h⟩

/-- `s'` is the first state of the run from `s` on in which `stop` holds. -/
def FirstAt (ext : Extensions f) (fetch : BitVec w → BitVec 32) (stop : Hart w f → Prop)
    (s s' : Hart w f) : Prop :=
  ∃ k, steps ext fetch k s = some s' ∧ stop s' ∧
    ∀ j < k, ∀ u, steps ext fetch j s = some u → ¬ stop u

/-- A run stops for the first time in one state only. -/
theorem firstAt_unique {stop : Hart w f → Prop} {s a b : Hart w f}
    (ha : FirstAt ext fetch stop s a) (hb : FirstAt ext fetch stop s b) : a = b := by
  obtain ⟨j, hja, hstopa, hbeforea⟩ := ha
  obtain ⟨k, hkb, hstopb, hbeforeb⟩ := hb
  rcases Nat.lt_trichotomy j k with h | rfl | h
  · exact absurd hstopa (hbeforeb j h a hja)
  · exact Option.some.inj (hja.symm.trans hkb)
  · exact absurd hstopb (hbeforea k h b hkb)

/-! ## Single instructions -/

variable {s s' : Hart w f}

theorem execs_cons {i : Instr} (is : List Instr) (h : exec ext s i = .next s') :
    execs ext (i :: is) s = execs ext is s' := by
  rw [execs, h]
  rfl

theorem exec_nop : exec ext s (.addi 0 0 0) = .next s.advance := by
  rw [exec, setX_zero]

/-- `auipc rd, 0` -/
theorem exec_auipc_zero {rd : BitVec 5} :
    exec ext s (.auipc rd 0) = .next (s.setX rd s.pc).advance := by
  have hzero : ((0 : BitVec 20) ++ (0 : BitVec 12)).signExtend w = 0 := by
    rw [BitVec.signExtend_eq_setWidth_of_msb_false (by decide)]
    exact BitVec.setWidth_zero w 32
  rw [exec, hzero]
  exact congrArg (fun v => Outcome.next (s.setX rd v).advance) (BitVec.add_zero s.pc)

theorem exec_slli (rd rs1 : BitVec 5) (shamt : BitVec 6) (h : shamt.toNat < w) :
    exec ext s (.slli rd rs1 shamt) = .next (s.setX rd (s.x rs1 <<< shamt.toNat)).advance := by
  rw [exec, if_pos h]

theorem exec_srli (rd rs1 : BitVec 5) (shamt : BitVec 6) (h : shamt.toNat < w) :
    exec ext s (.srli rd rs1 shamt) = .next (s.setX rd (s.x rs1 >>> shamt.toNat)).advance := by
  rw [exec, if_pos h]

/-- `csrw` -/
theorem exec_csrw {c : BitVec 12} (rs1 : BitVec 5) (hw : ext.writable c = true) :
    exec ext s (.csrrw 0 c rs1) = .next (s.setCsr c (s.x rs1)).advance := by
  rw [exec, hw, setX_zero]
  rfl

/-- `csrr` -/
theorem exec_csrr {c : BitVec 12} (rd : BitVec 5) (hr : ext.readable c = true) :
    exec ext s (.csrrs rd c 0) = .next (s.setX rd (s.csr c)).advance := by
  rw [exec, hr]
  rfl

theorem exec_load {z : BitVec 3} {n : Nat} (rd rs1 : BitVec 5) (imm : BitVec 12)
    (h : loadWidth w z = some (n, true)) :
    exec ext s (.load z rd rs1 imm)
      = .next (s.setX rd ((loadBytes s.mem (effective s rs1 imm) n).signExtend w)).advance := by
  rw [exec, h]

theorem exec_store {z : BitVec 3} {n : Nat} (rs2 rs1 : BitVec 5) (imm : BitVec 12)
    (h : storeWidth w z = some n) :
    exec ext s (.store z rs2 rs1 imm)
      = .next ({ s with mem := storeBytes s.mem (effective s rs1 imm) (s.x rs2) n } : Hart w f).advance := by
  rw [exec, h]

theorem exec_loadFp {z : BitVec 3} (rd rs1 : BitVec 5) (imm : BitVec 12) (h : ext.fp z = true) :
    exec ext s (.loadFp z rd rs1 imm)
      = .next ({ s with
        fpr := Function.update s.fpr rd
          (nanBox f (loadBytes s.mem (effective s rs1 imm) (2 ^ z.toNat))) } : Hart w f).advance := by
  rw [exec, if_pos h]

theorem exec_storeFp {z : BitVec 3} (rs2 rs1 : BitVec 5) (imm : BitVec 12) (h : ext.fp z = true) :
    exec ext s (.storeFp z rs2 rs1 imm)
      = .next ({ s with
        mem := storeBytes s.mem (effective s rs1 imm) (s.fpr rs2) (2 ^ z.toNat) } : Hart w f).advance := by
  rw [exec, if_pos h]

/-- `auipc`, `srli` and `slli`: the register points at the page of the code.  This is how position
    independent code finds its data in the same page. -/
theorem execs_page (ext : Extensions f) (s : Hart w f) {rd : BitVec 5} (hrd : rd ≠ 0) (h12 : 12 < w)
    (is : List Instr) :
    ∃ t, execs ext (.auipc rd 0 :: .srli rd rd 12 :: .slli rd rd 12 :: is) s = execs ext is t ∧
      t.pc = s.pc + 4 + 4 + 4 ∧
      (∀ r, t.x r = if r = rd then (s.pc >>> 12) <<< 12 else s.x r) ∧
      t.csr = s.csr ∧ t.fpr = s.fpr ∧ t.mem = s.mem := by
  let t₁ := (s.setX rd s.pc).advance
  let t₂ := (t₁.setX rd (t₁.x rd >>> 12)).advance
  refine ⟨(t₂.setX rd (t₂.x rd <<< 12)).advance, ?_, ?_, ?_, ?_, ?_, ?_⟩
  · rw [execs_cons _ exec_auipc_zero, execs_cons _ (exec_srli rd rd 12 h12),
      execs_cons _ (exec_slli rd rd 12 h12)]
    rfl
  · simp only [t₂, t₁, pc_advance, pc_setX]
  · intro r
    simp only [t₂, t₁, x_advance, x_setX_of_ne _ _ _ _ hrd, if_true]
    split_ifs <;> rfl
  · simp only [t₂, t₁, csr_advance, csr_setX]
  · simp only [t₂, t₁, fpr_advance, fpr_setX]
  · simp only [t₂, t₁, mem_advance, mem_setX]

end Rules

/-! ## Pages -/

/-- Clearing the low twelve bits of an address in a page gives the page, if the page is aligned. -/
theorem page_of_offset {w : Nat} (base : BitVec w) (off : Nat) (h12 : 12 ≤ w)
    (halign : 4096 ∣ base.toNat) (hoff : off < 4096) :
    ((base + BitVec.ofNat w off) >>> 12) <<< 12 = base := by
  obtain ⟨m, hm⟩ := halign
  have hlt := base.isLt
  obtain ⟨k, hk⟩ : 4096 ∣ 2 ^ w := by
    rw [show 4096 = 2 ^ 12 from rfl]
    exact Nat.pow_dvd_pow 2 h12
  have hsum : (base + BitVec.ofNat w off).toNat = 4096 * m + off := by
    rw [BitVec.toNat_add, BitVec.toNat_ofNat, Nat.add_mod_mod, hm, Nat.mod_eq_of_lt (by omega)]
  apply BitVec.eq_of_toNat_eq
  rw [BitVec.toNat_shiftLeft, BitVec.toNat_ushiftRight, hsum, Nat.shiftRight_eq_div_pow,
    Nat.shiftLeft_eq, Nat.mod_eq_of_lt (by omega), hm]
  omega

end Riscv
