/-
  What a hart does on its bus.

  The registers of a device change behind a hart's back, so a run here is one on a memory that is
  another one for every instruction: `Trace` lists the memories away and keeps the accesses, each with
  what was stored or loaded, in order.

  `runOn` and `traceOn` run on a given list of memories, so that a run on concrete memories can be computed;
  `trace_of_traceOn` turns such a computation into a trace.
-/
import RiscDbgUart.Riscv.Run

set_option linter.unusedVariables false

namespace Riscv

variable {w f : Nat}

/-- An access of `bytes` bytes, with the value that was loaded or stored. -/
inductive MemOp (w : Nat) where
  | load (a : BitVec w) (bytes : Nat) (v : BitVec w)
  | store (a : BitVec w) (bytes : Nat) (v : BitVec w)
deriving DecidableEq, Repr

/-- The hart with its memory as it is now. -/
def Hart.onMem (s : Hart w f) (m : BitVec w → BitVec 8) : Hart w f := { s with mem := m }

/-- The access of an instruction, with the bytes that a load finds.  There is at most one, as there are no
    atomic instructions here. -/
def memOps (s : Hart w f) : Instr → List (MemOp w)
  | .load width _ rs1 imm =>
    match loadWidth w width with
    | some (n, _) => [.load (effective s rs1 imm) n
        ((loadBytes s.mem (effective s rs1 imm) n).setWidth w)]
    | none => []
  | .store width rs2 rs1 imm =>
    match storeWidth w width with
    | some n => [.store (effective s rs1 imm) n (s.x rs2)]
    | none => []
  | .loadFp width _ rs1 imm =>
    [.load (effective s rs1 imm) (2 ^ width.toNat)
      ((loadBytes s.mem (effective s rs1 imm) (2 ^ width.toNat)).setWidth w)]
  | .storeFp width rs2 rs1 imm =>
    [.store (effective s rs1 imm) (2 ^ width.toNat) ((s.fpr rs2).setWidth w)]
  | _ => []

/-- The access of the instruction at the program counter. -/
def opsAt (fetch : BitVec w → BitVec 32) (s : Hart w f) : List (MemOp w) :=
  match decode (fetch s.pc) with
  | some i => memOps s i
  | none => []

/-- A run of instructions that go on, each on a memory of its own, as long as `C` holds, and the
    accesses on the way. -/
inductive Trace (ext : Extensions f) (fetch : BitVec w → BitVec 32) (C : Hart w f → Prop)
    (s : Hart w f) : List (MemOp w) → Hart w f → Prop
  | refl : Trace ext fetch C s [] s
  | snoc {ops : List (MemOp w)} {u u' : Hart w f} (m : BitVec w → BitVec 8)
      (hrun : Trace ext fetch C s ops u) (hC : C u) (hstep : step ext fetch (u.onMem m) = .next u') :
      Trace ext fetch C s (ops ++ opsAt fetch (u.onMem m)) u'

/-- The hart after an instruction on each of the memories, if all of them go on. -/
def runOn (ext : Extensions f) (fetch : BitVec w → BitVec 32) :
    List (BitVec w → BitVec 8) → Hart w f → Option (Hart w f)
  | [], s => some s
  | m :: ms, s => (step ext fetch (s.onMem m)).state.bind (runOn ext fetch ms)

/-- A run of instructions that go on, one on each of the memories, with its accesses.  It is the computable
    form of `Trace`, for given memories. -/
def traceOn (ext : Extensions f) (fetch : BitVec w → BitVec 32) (C : Hart w f → Prop)
    [DecidablePred C] : List (BitVec w → BitVec 8) → Hart w f → Option (List (MemOp w) × Hart w f)
  | [], s => some ([], s)
  | m :: ms, s =>
    if C s then
      (step ext fetch (s.onMem m)).state.bind fun u =>
        (traceOn ext fetch C ms u).map fun r => (opsAt fetch (s.onMem m) ++ r.1, r.2)
    else none

section Rules

variable {ext : Extensions f} {fetch : BitVec w → BitVec 32} {C : Hart w f → Prop} {s u u' : Hart w f}

@[simp] theorem onMem_pc (m : BitVec w → BitVec 8) : (s.onMem m).pc = s.pc := rfl
@[simp] theorem onMem_x (m : BitVec w → BitVec 8) (r : BitVec 5) : (s.onMem m).x r = s.x r := rfl
@[simp] theorem onMem_csr (m : BitVec w → BitVec 8) : (s.onMem m).csr = s.csr := rfl
@[simp] theorem onMem_fpr (m : BitVec w → BitVec 8) : (s.onMem m).fpr = s.fpr := rfl
@[simp] theorem onMem_mem (m : BitVec w → BitVec 8) : (s.onMem m).mem = m := rfl

theorem opsAt_of_decode {i : Instr} (h : decode (fetch s.pc) = some i) : opsAt fetch s = memOps s i := by
  rw [opsAt, h]

theorem step_of_decode {i : Instr} (h : decode (fetch s.pc) = some i) :
    step ext fetch s = exec ext s i := by
  rw [step, h]

theorem runOn_cons {m : BitVec w → BitVec 8} (ms : List (BitVec w → BitVec 8))
    (h : step ext fetch (s.onMem m) = .next u) :
    runOn ext fetch (m :: ms) s = runOn ext fetch ms u := by
  rw [runOn, h]
  rfl

theorem runOn_append (ms ms' : List (BitVec w → BitVec 8)) (s : Hart w f) :
    runOn ext fetch (ms ++ ms') s = (runOn ext fetch ms s).bind (runOn ext fetch ms') := by
  induction ms generalizing s with
  | nil => rfl
  | cons m ms ih =>
    rw [List.cons_append, runOn, runOn, Option.bind_assoc]
    exact congrArg _ (funext ih)

/-- A single byte is loaded. -/
theorem loadBytes_one (m : BitVec w → BitVec 8) (a : BitVec w) : loadBytes m a 1 = m a := by
  have hzero : a + BitVec.ofNat w 0 = a := BitVec.add_zero a
  apply BitVec.eq_of_getLsbD_eq
  intro j hj
  rw [loadBytes, loadBytes, hzero, BitVec.getLsbD_cast, BitVec.getLsbD_append]
  rfl

/-- **The trace rule.**  An invariant between the accesses so far and the hart, which every instruction
    on every memory keeps, holds along every run. -/
theorem trace_of_step (J : List (MemOp w) → Hart w f → Prop) (h0 : J [] s)
    (hstep : ∀ ops u u' m, J ops u → C u → step ext fetch (u.onMem m) = .next u' →
      J (ops ++ opsAt fetch (u.onMem m)) u')
    {ops : List (MemOp w)} (h : Trace ext fetch C s ops u) : J ops u := by
  induction h with
  | refl => exact h0
  | snoc m _ hC hnext ih => exact hstep _ _ _ m ih hC hnext

/-- What is run on given memories is a trace, and extends the one before it. -/
theorem trace_append_traceOn [DecidablePred C] {ops : List (MemOp w)} (ms : List (BitVec w → BitVec 8))
    (hpre : Trace ext fetch C s ops u) {r : List (MemOp w) × Hart w f}
    (h : traceOn ext fetch C ms u = some r) : Trace ext fetch C s (ops ++ r.1) r.2 := by
  induction ms generalizing u ops r with
  -- the trace grows at its end, by one step for each memory
  | nil =>
    obtain rfl := Option.some.inj h
    rw [List.append_nil]
    exact hpre
  | cons m ms ih =>
    rw [traceOn] at h
    split_ifs at h with hC
    rw [Option.bind_eq_some_iff] at h
    obtain ⟨v, hv, hrest⟩ := h
    rw [Option.map_eq_some_iff] at hrest
    obtain ⟨q, hq, rfl⟩ := hrest
    have hstep : step ext fetch (u.onMem m) = .next v := by
      cases hout : step ext fetch (u.onMem m) with
      | next v' =>
        rw [hout] at hv
        rw [Option.some.inj hv]
      | _ =>
        rw [hout] at hv
        cases hv
    rw [← List.append_assoc]
    exact ih (hpre.snoc m hC hstep) hq

theorem trace_of_traceOn [DecidablePred C] {ms : List (BitVec w → BitVec 8)}
    {r : List (MemOp w) × Hart w f} (h : traceOn ext fetch C ms s = some r) :
    Trace ext fetch C s r.1 r.2 :=
  trace_append_traceOn ms .refl h

end Rules

end Riscv
