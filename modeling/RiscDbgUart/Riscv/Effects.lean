/-
  What an instruction can change.

  Where control goes on, which integer register and which control register are written can be read off
  an instruction.  `exec_effect` says that nothing else of these changes: the case analysis over the
  instruction set is made here once, and the rules for code are derived from it.

  `succs` has the one or two places behind an instruction, `dest` its destination among the integer
  registers (`x0` for none), `csrDest` the control register it writes.  All three are functions on the
  instruction and not on the state, so that an analysis of code can be computed from its words alone.
-/
import RiscDbgUart.Riscv.Hart

set_option linter.unusedVariables false

namespace Riscv

variable {w f : Nat}

/-! ## Read off an instruction -/

/-- The instruction goes on to the one behind it. -/
def Instr.straight : Instr → Bool
  | .jal .. | .bne .. | .ebreak | .dret => false
  | _ => true

/-- Where control goes on from `a`. -/
def Instr.succs (a : BitVec w) : Instr → List (BitVec w)
  | .jal _ imm => [a + imm.signExtend w]
  | .bne _ _ imm => [a + 4, a + imm.signExtend w]
  | .ebreak | .dret => []
  | _ => [a + 4]

/-- The integer register that is written; `x0` stands for none. -/
def Instr.dest : Instr → BitVec 5
  | .auipc rd _ | .jal rd _ | .load _ rd _ _ | .addi rd _ _ | .andi rd _ _ | .slli rd _ _
  | .srli rd _ _ | .add rd _ _ | .csrrw rd _ _ | .csrrs rd _ _ => rd
  | _ => 0

/-- The control register that is written. -/
def Instr.csrDest : Instr → Option (BitVec 12)
  | .csrrw _ c _ => some c
  | .csrrs _ c rs1 => if rs1 = 0 then none else some c
  | _ => none

theorem succs_bne (a : BitVec w) (rs1 rs2 : BitVec 5) (imm : BitVec 13) :
    Instr.succs a (.bne rs1 rs2 imm) = [a + 4, a + imm.signExtend w] := rfl

/-- Control flow is relative. -/
theorem succs_add (base a : BitVec w) (i : Instr) : i.succs (base + a) = (i.succs a).map (base + ·) := by
  have h4 : base + a + 4 = base + (a + 4) := BitVec.add_assoc ..
  cases i with
  | jal rd imm => exact congrArg (fun b => [b]) (BitVec.add_assoc base a _)
  | bne rs1 rs2 imm =>
    have himm := BitVec.add_assoc base a (imm.signExtend w)
    rw [succs_bne, succs_bne, List.map_cons, List.map_cons, List.map_nil, h4, himm]
  | ebreak => rfl
  | dret => rfl
  | _ => exact congrArg (fun b => [b]) h4

/-- Everything else is as before. -/
structure Effect (i : Instr) (s s' : Hart w f) : Prop where
  pc : s'.pc ∈ i.succs s.pc
  x : ∀ r, r ≠ i.dest ∨ i.dest = 0 → s'.x r = s.x r
  csr : ∀ c, i.csrDest ≠ some c → s'.csr c = s.csr c

/-! ## Execution -/

section Effects

variable {ext : Extensions f} {s s' t : Hart w f} {i : Instr}

/-- The common end of most instructions: a register is written and control goes on.  What the instruction
    did before that, to the memory or to a control register, is in `t`. -/
theorem effect_setX {rd : BitVec 5} {v : BitVec w} (h : Outcome.next (t.setX rd v).advance = .next s')
    (hdest : i.dest = rd) (hsuccs : i.succs s.pc = [s.pc + 4]) (hpc : t.pc = s.pc)
    (hx : ∀ r, t.x r = s.x r) (hcsr : ∀ c, i.csrDest ≠ some c → t.csr c = s.csr c) :
    Effect i s s' := by
  cases h
  subst hdest
  refine ⟨?_, ?_, ?_⟩
  · rw [hsuccs, pc_advance, pc_setX, hpc]
    exact List.mem_singleton_self _
  · intro r hr
    rw [x_advance, x_setX, if_neg, hx]
    rintro ⟨heq, hne⟩
    rcases hr with hr | hr
    · exact hr heq
    · exact hne hr
  · intro c hc
    rw [csr_advance, csr_setX]
    exact hcsr c hc

/-- An instruction that writes neither kind of register. -/
theorem effect_advance (h : Outcome.next t.advance = .next s') (hsuccs : i.succs s.pc = [s.pc + 4])
    (hpc : t.pc = s.pc) (hx : t.gpr = s.gpr) (hcsr : t.csr = s.csr) : Effect i s s' := by
  cases h
  refine ⟨?_, ?_, ?_⟩
  · rw [hsuccs, pc_advance, hpc]
    exact List.mem_singleton_self _
  · intro r _
    rw [x_advance, Hart.x, Hart.x, hx]
  · intro c _
    rw [csr_advance, hcsr]

/-- **What an instruction changes**: at most its destination among the registers, at most its destination
    among the control registers, and the program counter goes to one of its successors. -/
theorem exec_effect (h : exec ext s i = .next s') : Effect i s s' := by
  cases i with
  -- the instructions on registers write `rd`, and move on to the next word
  | auipc rd imm => exact effect_setX h rfl rfl rfl (fun _ => rfl) (fun _ _ => rfl)
  -- a jump writes the return address, and goes to its target
  | jal rd imm =>
    have hset : Effect (.addi rd 0 0) s (s.setX rd (s.pc + 4)).advance :=
      effect_setX rfl rfl rfl rfl (fun _ => rfl) (fun _ _ => rfl)
    rw [exec] at h
    cases h
    exact ⟨List.mem_singleton_self _, hset.x, fun c _ => hset.csr c (fun h => nomatch h)⟩
  -- a branch writes nothing, and goes to one of two places
  | bne rs1 rs2 imm =>
    rw [exec] at h
    by_cases heq : s.x rs1 = s.x rs2
    · rw [if_pos heq] at h
      cases h
      exact ⟨List.mem_cons_self, fun _ _ => rfl, fun _ _ => rfl⟩
    · rw [if_neg heq] at h
      cases h
      exact ⟨List.mem_cons_of_mem _ (List.mem_singleton_self _), fun _ _ => rfl, fun _ _ => rfl⟩
  -- the width of an access may be illegal, and then there is no next state
  | load width rd rs1 imm =>
    rw [exec] at h
    split at h
    · exact effect_setX h rfl rfl rfl (fun _ => rfl) (fun _ _ => rfl)
    · exact effect_setX h rfl rfl rfl (fun _ => rfl) (fun _ _ => rfl)
    · exact nomatch h
  -- stores and floating-point accesses leave the integer registers
  | store width rs2 rs1 imm =>
    rw [exec] at h
    split at h
    · exact effect_advance h rfl rfl rfl rfl
    · exact nomatch h
  | loadFp width rd rs1 imm =>
    rw [exec] at h
    split at h
    · exact effect_advance h rfl rfl rfl rfl
    · exact nomatch h
  | storeFp width rs2 rs1 imm =>
    rw [exec] at h
    split at h
    · exact effect_advance h rfl rfl rfl rfl
    · exact nomatch h
  | addi rd rs1 imm => exact effect_setX h rfl rfl rfl (fun _ => rfl) (fun _ _ => rfl)
  | andi rd rs1 imm => exact effect_setX h rfl rfl rfl (fun _ => rfl) (fun _ _ => rfl)
  -- a shift by more than the width is illegal
  | slli rd rs1 shamt =>
    rw [exec] at h
    split at h
    · exact effect_setX h rfl rfl rfl (fun _ => rfl) (fun _ _ => rfl)
    · exact nomatch h
  | srli rd rs1 shamt =>
    rw [exec] at h
    split at h
    · exact effect_setX h rfl rfl rfl (fun _ => rfl) (fun _ _ => rfl)
    · exact nomatch h
  | add rd rs1 rs2 => exact effect_setX h rfl rfl rfl (fun _ => rfl) (fun _ _ => rfl)
  | fence => exact effect_advance h rfl rfl rfl rfl
  -- a CSR instruction writes its CSR and `rd`; with `rs1 = 0` a `csrrs` only reads
  | csrrw rd csr rs1 =>
    rw [exec] at h
    split at h
    · refine effect_setX h rfl rfl rfl (fun _ => rfl) ?_
      intro c hc
      rw [csr_setCsr, if_neg]
      exact fun heq => hc (congrArg some heq.symm)
    · exact nomatch h
  | csrrs rd csr rs1 =>
    rw [exec] at h
    split at h
    · by_cases h0 : rs1 = 0
      · rw [if_pos h0] at h
        exact effect_setX h rfl rfl rfl (fun _ => rfl) (fun _ _ => rfl)
      · rw [if_neg h0] at h
        refine effect_setX h rfl rfl rfl (fun _ => rfl) ?_
        intro c hc
        rw [csr_setCsr, if_neg]
        exact fun heq => hc ((if_neg h0).trans (congrArg some heq.symm))
    · exact nomatch h
  -- these two have no next state
  | ebreak => exact nomatch h
  | dret => exact nomatch h

theorem exec_pc (hi : i.straight = true) (h : exec ext s i = .next s') : s'.pc = s.pc + 4 := by
  have hsuccs : i.succs s.pc = [s.pc + 4] := by
    cases i <;> first | rfl | exact nomatch hi
  have hmem := (exec_effect h).pc
  rw [hsuccs] at hmem
  exact List.mem_singleton.mp hmem

/-- No other instruction is an `ebreak`. -/
theorem eq_ebreak (h : exec ext s i = .ebreak) : i = .ebreak := by
  cases i with
  | ebreak => rfl
  | auipc | jal | bne | addi | andi | add | fence | dret =>
    rw [exec] at h
    cases h
  | load | store | loadFp | storeFp | slli | srli | csrrw | csrrs =>
    rw [exec] at h
    split at h <;> cases h

end Effects

end Riscv
