/-
  A hart that traps in the program of an abstract command.

  On its way into debug mode a hart saves `s0` and `a0` in the scratch registers, and from then on the
  ROM and the programs leave the two values there or put them back there; the handler at
  `ExceptionAddress` restores both from there without asking how far the program got.  Where the
  values are is an analysis of `Riscv.Saved`: `romPlaces` is its result for the ROM, checked word by
  word, and in a program it follows the instructions executed so far.

  A run here is one of any environment: between two instructions memory may change at will, the flags
  of the debug module included, a program may trap at each of its instructions, and the program may be
  run any number of times.

  The invariant is `Keeps`, with a constructor for each place a hart can be at: in the ROM, on the words
  that lead to the program, and in the program, with the instruction that comes next.  A step keeps it
  (`keeps_step`): inside the ROM by the check of its words (`rom_ok`), inside the program because the
  flow of its instructions has been followed (`body_flows`), and a trap from wherever it happens, since
  the values were where `Keeps` says (`keeps_trap`).  Behind the trap comes the handler, three or seven
  words whose run is computed (`handler_run`), and the error that its store to `EXCEPTION` leaves
  (`exception_recorded`).
-/
import RiscDbgUart.AbstractPrograms
import RiscDbgUart.CmdErr
import RiscDbgUart.DmFetch
import RiscDbgUart.RegisterTransfers
import RiscDbgUart.Riscv.Saved

set_option linter.unusedVariables false

namespace RiscDbgUart.TrapRecovery

open Riscv AbstractCmd AbstractPrograms SupportedCommands DmMem DmFetch RegisterTransfers

variable {n w f : Nat}

/-! ## Runs in debug mode -/

/-- The debug module at work on a supported command that does not go on into the program buffer, and
    what the hart fetches from it. -/
structure Executing (p : Params n) (ext : Extensions f) (fetch : BitVec w → BitVec 32) (cmd : Command) :
    Prop where
  width : w = 32 ∨ w = 64
  page : 4096 ∣ p.dmBaseAddress.toNat
  scratch : Scratch ext p.hasSndScratch
  supported : unsupportedCommand w p.hasSndScratch cmd = false
  postexec : (acAr cmd).postexec = false
  target0 : targetOf (acAr cmd) ≠ .csr CSR_DSCRATCH0
  target1 : targetOf (acAr cmd) ≠ .csr CSR_DSCRATCH1
  rom : Contains fetch (dmAddr w p (HaltAddress.setWidth 12)) (romCode p.hasSndScratch)
  whereTo : fetch (dmAddr w p WhereToAddr)
    = jal 0 (AbstractCmdBaseAddr.setWidth 21 - WhereToAddr.setWidth 21)
  code : Contains fetch (dmAddr w p AbstractCmdBaseAddr) (ofCommand w p.hasSndScratch cmd).words

/-- The hart at an address of the debug module, its registers as they are. -/
def goto (p : Params n) (a : BitVec 12) (s : Hart w f) : Hart w f := { s with pc := dmAddr w p a }

/-- The hart is about to execute an instruction of the program. -/
def InProgram (p : Params n) (s : Hart w f) : Prop :=
  ∃ k < 10, s.pc = dmAddr w p AbstractCmdBaseAddr + BitVec.ofNat w (4 * k)

/-- One instruction of a hart in debug mode, on any memory; `ebreak` is the way back to the halt
    address, and an exception goes to `ExceptionAddress` and changes nothing else. -/
inductive DebugStep (p : Params n) (ext : Extensions f) (fetch : BitVec w → BitVec 32) :
    Hart w f → Hart w f → Prop
  | next {s s' : Hart w f} (m : BitVec w → BitVec 8)
      (h : step ext fetch { s with mem := m } = .next s') : DebugStep p ext fetch s s'
  | ebreak {s : Hart w f} (h : step ext fetch s = .ebreak) :
      DebugStep p ext fetch s (goto p (HaltAddress.setWidth 12) s)
  | trap {s : Hart w f} (h : InProgram p s) :
      DebugStep p ext fetch s (goto p (ExceptionAddress.setWidth 12) s)

abbrev DebugRun (p : Params n) (ext : Extensions f) (fetch : BitVec w → BitVec 32) :
    Hart w f → Hart w f → Prop :=
  Relation.ReflTransGen (DebugStep p ext fetch)

/-! ## Where the ROM keeps the registers -/

/-- Both registers are saved. -/
def spilled (snd : Bool) : List (BitVec 12 × BitVec 5) :=
  if snd then [(CSR_DSCRATCH0, 8), (CSR_DSCRATCH1, 10)] else [(CSR_DSCRATCH0, 8)]

/-- The ROM uses the registers it saved. -/
def inUse (snd : Bool) : Places := ⟨if snd then [8, 10] else [8], spilled snd⟩

/-- The registers are saved and have their values. -/
def restored (snd : Bool) : Places := ⟨[], spilled snd⟩

/-- The analysis of the ROM, one entry a word: entry, resume and exception vectors, the entry code with
    its loop, the exception handler, the way to the program, and the way out. -/
def romPlaces (snd : Bool) : List (Option Places) :=
  let start : Places := ⟨[], []⟩
  let used := inUse snd
  let s0Used : Places := ⟨[8], spilled snd⟩
  if snd then
    [start, used, used].map some
      ++ [start, start, ⟨[], [(CSR_DSCRATCH0, 8)]⟩, restored snd, ⟨[10], spilled snd⟩,
          ⟨[10], spilled snd⟩].map some
      ++ (List.replicate 12 used).map some
      ++ [used, used, used, used, used, s0Used, restored snd].map some
      ++ [used, used, s0Used, restored snd].map some
      ++ [used, used, used, s0Used, restored snd].map some
      ++ [none]
  else
    [start, used, used].map some
      ++ [start, start].map some
      ++ (List.replicate 10 used).map some
      ++ [used, used, restored snd].map some
      ++ [used, used, restored snd].map some
      ++ [used, used, used, restored snd].map some
      ++ [none]

/-- Word `j` of the ROM, relative to the debug module. -/
def romAt (w j : Nat) : BitVec w :=
  (HaltAddress.setWidth 12 : BitVec 12).setWidth w + BitVec.ofNat w (4 * j)

/-- Every register that is lost in `a` is lost in `b`, and what is saved in `b` is saved in `a`. -/
def covers (a b : Places) : Bool := a.lost.all (b.lost.contains ·) && b.saved.all (a.saved.contains ·)

/-- Control may go to `b` with the places `a`: that is a word of the ROM, or the jump to the program. -/
def mayGo (w : Nat) (snd : Bool) (a : Places) (b : BitVec w) : Bool :=
  let j := (b.toNat - 0x800) / 4
  (b == WhereToAddr.setWidth w && covers a (restored snd)) ||
    (b == romAt w j && ((romPlaces snd).getD j none).any (covers a ·))

/-- Word `j` of the ROM takes its places to the ones behind it. -/
def romWordOk (w : Nat) (snd : Bool) (j : Nat) : Bool :=
  ((romPlaces snd).getD j none).all fun a =>
    (decode ((romCode snd).getD j 0)).any fun i =>
      (i.succs (romAt w j)).all (mayGo w snd (flow a i)) &&
        (i != .ebreak || covers a (restored snd))

theorem rom_ok (hw : w = 32 ∨ w = 64) (snd : Bool) :
    ∀ j < (romCode snd).length, romWordOk w snd j = true := by
  rcases hw with rfl | rfl <;> cases snd <;> decide

theorem length_romPlaces (snd : Bool) : (romPlaces snd).length = (romCode snd).length := by
  cases snd <;> decide

theorem covers_spec {a b : Places} (h : covers a b = true) (except : BitVec 5 → Prop) :
    a.Covers except b := by
  rw [covers, Bool.and_eq_true, List.all_eq_true, List.all_eq_true] at h
  refine ⟨fun r hr => Or.inl ?_, fun q hq => Or.inl ?_⟩
  · exact List.contains_iff_mem.mp (h.1 r hr)
  · exact List.contains_iff_mem.mp (h.2 q hq)

/-! ## The invariant -/

/-- The register the command is for. -/
def Commanded (ar : AcArCmd) (r : BitVec 5) : Prop := targetOf ar = .gpr r

/-- The base register points at the debug module. -/
def based (snd : Bool) : Places := ⟨if snd then [10] else [], spilled snd⟩

section Programs

variable {snd : Bool} {ar : AcArCmd} {a : Places}

theorem based_inUse (snd : Bool) (except : BitVec 5 → Prop) : (based snd).Covers except (inUse snd) :=
  covers_spec (by cases snd <;> decide) except

theorem prologue_flows (snd : Bool) (except : BitVec 5 → Prop) :
    Along except (based snd) (prologue snd) (restored snd) := by
  have hall : ∀ k ≤ (prologue snd).length,
      covers (flows ((prologue snd).take k) (restored snd)) (based snd) = true := by
    cases snd <;> decide
  exact fun k hk => covers_spec (hall k hk) except

/-- A `nop` changes nothing. -/
theorem nop_flow {except : BitVec 5 → Prop} {b : Places} (h : a.Covers except b) :
    (flow a (.addi 0 0 0)).Covers except b :=
  covers_flow h (Or.inl rfl) fun q _ heq => nomatch heq

/-- One instruction that writes the commanded register or none.  It needs no register for itself, so
    the places are those there were. -/
theorem alone_flows {i : Instr} (h : a.Covers (Commanded ar) (based snd))
    (hdest : i.dest = 0 ∨ Commanded ar i.dest) (hcsr : i.csrDest = none) :
    Along (Commanded ar) (based snd) (alone i) a := by
  have h₁ : (flow a i).Covers (Commanded ar) (based snd) :=
    covers_flow h (hdest.imp_right Or.inr) fun q _ heq => nomatch hcsr.symm.trans heq
  have h₂ := nop_flow h₁
  have h₃ := nop_flow h₂
  exact along_cons h (along_cons h₁ (along_cons h₂ (along_cons h₃ (along_nil (nop_flow h₃)))))

/-- Only the two scratch registers are used, and the second one only where there is a second one. -/
theorem spilled_in {q : BitVec 12 × BitVec 5} (hq : q ∈ spilled snd) :
    q.1 = CSR_DSCRATCH0 ∨ q.1 = CSR_DSCRATCH1 := by
  cases snd
  · rw [List.mem_singleton.mp hq]
    exact Or.inl rfl
  · rcases List.mem_cons.mp hq with rfl | hq
    · exact Or.inl rfl
    · rw [List.mem_singleton.mp hq]
      exact Or.inr rfl

theorem spilled_a0 {q : BitVec 12 × BitVec 5} (hq : q ∈ spilled snd) (h : q.1 = CSR_DSCRATCH1) :
    q.2 = 10 := by
  cases snd
  · rw [List.mem_singleton.mp hq] at h
    exact absurd h (by decide)
  · rcases List.mem_cons.mp hq with rfl | hq
    · exact absurd h (by decide)
    · rw [List.mem_singleton.mp hq]

theorem spilled_s0 {q : BitVec 12 × BitVec 5} (hq : q ∈ spilled snd) (h : q.1 = CSR_DSCRATCH0) :
    q.2 = 8 := by
  cases snd
  · rw [List.mem_singleton.mp hq]
  · rcases List.mem_cons.mp hq with rfl | hq
    · rfl
    · rw [List.mem_singleton.mp hq] at h
      exact absurd h (by decide)

/-- `s0` is used and comes back: its value waits in `dscratch0` while the two instructions in between
    use the register. -/
theorem throughS0_flows {i j : Instr} (h : a.Covers (Commanded ar) (based snd))
    (hs0 : ¬ Commanded ar 8) (hi : i.dest = 8 ∧ i.csrDest = none) (hj : j.dest = 0)
    (hcsr : ∀ q ∈ spilled snd, j.csrDest = some q.1 → Commanded ar q.2) :
    Along (Commanded ar) (inUse snd) (throughS0 i j) a ∧
      (flows (throughS0 i j) a).Covers (Commanded ar) (based snd) := by
  have hlive : (8 : BitVec 5) ∉ a.lost := by
    intro hmem
    rcases h.1 8 hmem with hb | hex
    · cases snd <;> exact absurd hb (by decide)
    · exact hs0 hex
  -- save `s0`
  have h₁ : (flow a (.csrrw 0 CSR_DSCRATCH0 8)).Covers (Commanded ar) (based snd) :=
    covers_spill h hlive fun q hq => spilled_s0 hq
  -- the instruction that uses it
  have h₂ : (flow (flow a (.csrrw 0 CSR_DSCRATCH0 8)) i).Covers (Commanded ar) (inUse snd) := by
    refine covers_flow (covers_trans h₁ (based_inUse snd _)) (Or.inr (Or.inl ?_)) ?_
    · rw [hi.1]
      cases snd <;> decide
    · exact fun q _ heq => nomatch hi.2.symm.trans heq
  -- the one that moves the value on, which may change a CSR
  have h₃ := covers_flow (i := j) h₂ (Or.inl hj) hcsr
  have hback : (CSR_DSCRATCH0, (8 : BitVec 5)) ∈ (inUse snd).saved := by cases snd <;> decide
  -- restore `s0`
  have h₄ := covers_trans (covers_restore h₃ hback (by decide))
    (covers_spec (by cases snd <;> decide) (Commanded ar) :
      Places.Covers (Commanded ar) ⟨(inUse snd).lost.filter (· ≠ 8), (inUse snd).saved⟩ (based snd))
  refine ⟨?_, h₄⟩
  exact along_cons (covers_trans h (based_inUse snd _)) (along_cons (covers_trans h₁ (based_inUse snd _))
    (along_cons h₂ (along_cons h₃ (along_nil (covers_trans h₄ (based_inUse snd _))))))

/-- The four instructions of the move, whatever the command is for.  The cases are those of the target;
    moves of a CSR, and of `a0` where it is the base register, go through `s0`. -/
theorem middle_flows (h0 : targetOf ar ≠ .csr CSR_DSCRATCH0) (h1 : targetOf ar ≠ .csr CSR_DSCRATCH1)
    (h : a.Covers (Commanded ar) (based snd)) :
    Along (Commanded ar) (inUse snd) (middle snd ar) a ∧
      (flows (middle snd ar) a).Covers (Commanded ar) (based snd) := by
  have halone {i : Instr} (hdest : i.dest = 0 ∨ Commanded ar i.dest) (hcsr : i.csrDest = none) :
      Along (Commanded ar) (inUse snd) (alone i) a ∧
        (flows (alone i) a).Covers (Commanded ar) (based snd) := by
    have halong := alone_flows h hdest hcsr
    exact ⟨along_mono halong (based_inUse snd _), along_last halong⟩
  cases htarget : targetOf ar with
  | gpr r =>
    have hr : Commanded ar r := htarget
    -- `a0` holds the base where there is one, so its own value goes through `s0`
    by_cases ha0 : snd = true ∧ r = 10
    · have hs0 : ¬ Commanded ar 8 := by
        rw [Commanded, htarget, ha0.2]
        decide
      cases hwrite : ar.write
      · simp only [middle, hwrite, reads, htarget, if_pos ha0, Bool.false_eq_true, if_false]
        refine throughS0_flows h hs0 ⟨rfl, rfl⟩ rfl fun q _ heq => ?_
        cases heq
      · simp only [middle, hwrite, writes, htarget, if_pos ha0, if_true]
        refine throughS0_flows h hs0 ⟨rfl, rfl⟩ rfl fun q hq heq => ?_
        rw [spilled_a0 hq (Option.some.inj heq).symm, ← ha0.2]
        exact hr
    · cases hwrite : ar.write
      · simp only [middle, hwrite, reads, htarget, if_neg ha0, Bool.false_eq_true, if_false]
        exact halone (Or.inl rfl) rfl
      · simp only [middle, hwrite, writes, htarget, if_neg ha0, if_true]
        exact halone (Or.inr hr) rfl
  -- a floating-point register is no place of a value
  | fpr r =>
    cases hwrite : ar.write
    · simp only [middle, hwrite, reads, htarget, Bool.false_eq_true, if_false]
      exact halone (Or.inl rfl) rfl
    · simp only [middle, hwrite, writes, htarget, if_true]
      exact halone (Or.inl rfl) rfl
  | csr c =>
    -- a CSR always goes through `s0`; the scratch registers are excluded
    have hs0 : ¬ Commanded ar 8 := by
      intro h8
      cases htarget.symm.trans h8
    cases hwrite : ar.write
    · simp only [middle, hwrite, reads, htarget, Bool.false_eq_true, if_false]
      refine throughS0_flows h hs0 ⟨rfl, rfl⟩ rfl fun q _ heq => ?_
      cases heq
    · simp only [middle, hwrite, writes, htarget, if_true]
      refine throughS0_flows h hs0 ⟨rfl, rfl⟩ rfl fun q hq heq => ?_
      have hc : c = q.1 := Option.some.inj heq
      rcases spilled_in hq with hq0 | hq1
      · exact absurd (htarget.trans (congrArg Target.csr (hc.trans hq0))) h0
      · exact absurd (htarget.trans (congrArg Target.csr (hc.trans hq1))) h1

/-- The epilogue brings `a0` back. -/
theorem epilogue_flow (h : a.Covers (Commanded ar) (based snd)) :
    (flow a (epilogue snd)).Covers (Commanded ar) (restored snd) := by
  cases snd
  · exact nop_flow h
  · exact covers_trans (covers_restore h (by decide) (by decide)) (covers_spec (by decide) _)

/-- **Where the values are** while a program runs, and at its end.  The prologue moves `a0` away where
    the base register is needed, and the epilogue moves it back. -/
theorem body_flows (snd : Bool) {ar : AcArCmd} (h0 : targetOf ar ≠ .csr CSR_DSCRATCH0)
    (h1 : targetOf ar ≠ .csr CSR_DSCRATCH1) :
    Along (Commanded ar) (inUse snd) (body snd ar) (restored snd) ∧
      (flows (body snd ar) (restored snd)).Covers (Commanded ar) (restored snd) := by
  have hprologue := prologue_flows snd (Commanded ar)
  obtain ⟨hmiddle, hbased⟩ := middle_flows h0 h1 (along_last hprologue)
  have hend : (flows (body snd ar) (restored snd)).Covers (Commanded ar) (restored snd) := by
    rw [body, flows, List.foldl_append, List.foldl_append]
    exact epilogue_flow hbased
  have hlast : Along (Commanded ar) (inUse snd) [epilogue snd]
      (flows (middle snd ar) (flows (prologue snd) (restored snd))) :=
    along_cons (covers_trans hbased (based_inUse snd _))
      (along_nil (covers_trans (epilogue_flow hbased) (covers_spec (by cases snd <;> decide) _)))
  refine ⟨?_, hend⟩
  rw [body]
  refine along_append (along_append (along_mono hprologue (based_inUse snd _)) hmiddle) ?_
  rw [flows, List.foldl_append]
  exact hlast

end Programs

/-- Where the hart is, and that it keeps the register values `X` in the places that belong there: in the
    ROM those of the table, in a program what its instructions so far have made of them. -/
inductive Keeps (p : Params n) (ar : AcArCmd) (X : BitVec 5 → BitVec w) (s : Hart w f) : Prop
  | rom (j : Nat) (a : Places) (hj : j < (romCode p.hasSndScratch).length)
      (hplaces : (romPlaces p.hasSndScratch).getD j none = some a)
      (hpc : s.pc = p.dmBaseAddress.setWidth w + romAt w j) (hkept : Kept X (Commanded ar) a s)
  | whereTo (hpc : s.pc = dmAddr w p WhereToAddr)
      (hkept : Kept X (Commanded ar) (restored p.hasSndScratch) s)
  | program (k : Nat) (hk : k ≤ 9) (hfirst : k = 0 ∨ ar.transfer = true)
      (hpc : s.pc = dmAddr w p AbstractCmdBaseAddr + BitVec.ofNat w (4 * k))
      (hkept : Kept X (Commanded ar)
        (flows ((body p.hasSndScratch ar).take k) (restored p.hasSndScratch)) s)

section Steps

variable {p : Params n} {ext : Extensions f} {fetch : BitVec w → BitVec 32} {cmd : Command}
  {X : BitVec 5 → BitVec w} {s s' : Hart w f}

/-- The words of the ROM, where the hart fetches them. -/
theorem fetch_rom (h : Executing p ext fetch cmd) {j : Nat}
    (hj : j < (romCode p.hasSndScratch).length) :
    fetch (p.dmBaseAddress.setWidth w + romAt w j) = (romCode p.hasSndScratch).getD j 0 := by
  rw [← getD_of_contains _ h.rom hj, dmAddr, romAt, BitVec.add_assoc]

/-- A word of the ROM that is reached is an instruction, and it has been checked: wherever control may
    go from it, the table there expects no more than the word leaves. -/
theorem rom_word (h : Executing p ext fetch cmd) {j : Nat} {a : Places}
    (hj : j < (romCode p.hasSndScratch).length)
    (hplaces : (romPlaces p.hasSndScratch).getD j none = some a)
    (hpc : s.pc = p.dmBaseAddress.setWidth w + romAt w j) :
    ∃ i, decode (fetch s.pc) = some i ∧
      (∀ b ∈ i.succs (romAt w j), mayGo w p.hasSndScratch (flow a i) b = true) ∧
      (i = .ebreak → covers a (restored p.hasSndScratch) = true) := by
  have hok := rom_ok h.width p.hasSndScratch j hj
  rw [romWordOk, hplaces, Option.all_some, ← fetch_rom h hj, ← hpc] at hok
  cases hdec : decode (fetch s.pc) with
  | none =>
    rw [hdec] at hok
    exact nomatch hok
  | some i =>
    rw [hdec, Option.any_some, Bool.and_eq_true, List.all_eq_true] at hok
    refine ⟨i, rfl, hok.1, ?_⟩
    rintro rfl
    simpa using hok.2

/-- A step at an instruction executes it, on some memory. -/
theorem step_next {i : Instr} (hdec : decode (fetch s.pc) = some i) {m : BitVec w → BitVec 8}
    (h : step ext fetch { s with mem := m } = .next s') : exec ext { s with mem := m } i = .next s' := by
  rw [step] at h
  dsimp only at h
  rw [hdec] at h
  exact h

/-- Where control may go, the registers are kept: what the table expects there is covered by what there
    is. -/
theorem keeps_mayGo {ar : AcArCmd} {a : Places} {b : BitVec w}
    (hgo : mayGo w p.hasSndScratch a b = true) (hpc : s.pc = p.dmBaseAddress.setWidth w + b)
    (hkept : Kept X (Commanded ar) a s) : Keeps p ar X s := by
  rw [mayGo, Bool.or_eq_true, Bool.and_eq_true, Bool.and_eq_true, beq_iff_eq, beq_iff_eq] at hgo
  rcases hgo with ⟨rfl, hcovers⟩ | ⟨hb, hany⟩
  · exact .whereTo hpc (kept_mono (covers_spec hcovers _) hkept)
  · generalize (b.toNat - 0x800) / 4 = j at hb hany
    cases hplaces : (romPlaces p.hasSndScratch).getD j none with
    | none =>
      rw [hplaces] at hany
      exact nomatch hany
    | some a' =>
      rw [hplaces, Option.any_some] at hany
      refine .rom j a' ?_ hplaces (hb ▸ hpc) (kept_mono (covers_spec hany _) hkept)
      by_contra hge
      rw [← length_romPlaces, not_lt] at hge
      rw [List.getD_eq_getElem?_getD, List.getElem?_eq_none hge] at hplaces
      exact nomatch hplaces

/-! ## The program, instruction by instruction -/

/-- The program of a command that transfers. -/
theorem presents_program (h : Executing p ext fetch cmd) (htransfer : (acAr cmd).transfer = true) :
    Presents fetch (dmAddr w p AbstractCmdBaseAddr)
      (body p.hasSndScratch (acAr cmd) ++ [.ebreak]) := by
  have hdec := decode_words h.supported htransfer
  rw [h.postexec] at hdec
  exact presents_of_contains _ _ h.code hdec

/-- A command that transfers nothing has no program: its first word is no instruction, so the hart traps
    at once. -/
theorem no_program (h : Executing p ext fetch cmd) (htransfer : (acAr cmd).transfer = false) :
    decode (fetch (dmAddr w p AbstractCmdBaseAddr)) = none := by
  have hrefused := (unsupportedCommand_iff w p.hasSndScratch cmd).not.mp
    (Bool.eq_false_iff.mp h.supported)
  push Not at hrefused
  obtain ⟨htype, hsize, -, hpost⟩ := hrefused
  have hkept : transferRegister w p.hasSndScratch (acAr cmd) (initial p.hasSndScratch)
      = initial p.hasSndScratch := by
    rw [transferRegister, htransfer, Bool.and_false, Bool.false_and, if_neg Bool.false_ne_true,
      Bool.false_and, if_neg Bool.false_ne_true, if_neg]
    rw [Bool.or_eq_true, decide_eq_true_iff, not_or]
    exact ⟨Nat.not_le.mpr hsize, hpost htransfer⟩
  have hword := getD_of_contains _ h.code (j := 0) (by rw [length_words]; decide)
  rw [Nat.mul_zero, BitVec.add_zero, ofCommand, if_pos htype, accessRegister,
    hkept, h.postexec] at hword
  rw [hword]
  cases p.hasSndScratch <;> decide

/-- What the hart finds at word `k` of a program: nothing that is an instruction, the next instruction
    of the body, or the `ebreak` at the end. -/
theorem program_word (h : Executing p ext fetch cmd) {k : Nat} (hk : k ≤ 9)
    (hfirst : k = 0 ∨ (acAr cmd).transfer = true)
    (hpc : s.pc = dmAddr w p AbstractCmdBaseAddr + BitVec.ofNat w (4 * k)) (a : Places) :
    (k = 0 ∧ decode (fetch s.pc) = none) ∨
    (k < 9 ∧ (acAr cmd).transfer = true ∧
      ∃ i, decode (fetch s.pc) = some i ∧ i.straight = true ∧
        flows ((body p.hasSndScratch (acAr cmd)).take (k + 1)) a
          = flow (flows ((body p.hasSndScratch (acAr cmd)).take k) a) i) ∨
    (k = 9 ∧ decode (fetch s.pc) = some .ebreak) := by
  cases htransfer : (acAr cmd).transfer
  · -- without a transfer there is no program behind the first word
    have hzero : k = 0 := hfirst.resolve_right (fun h => Bool.false_ne_true (htransfer.symm.trans h))
    subst hzero
    left
    rw [hpc, Nat.mul_zero, BitVec.add_zero]
    exact ⟨rfl, no_program h htransfer⟩
  · have hprogram := presents_program h htransfer
    obtain ⟨hbody, hend⟩ := (presents_append _ _).mp hprogram
    rw [length_body] at hend
    -- the body has nine words, and the `ebreak` follows
    rcases Nat.lt_or_ge k 9 with hlt | hge
    · have hi : k < (body p.hasSndScratch (acAr cmd)).length := by rwa [length_body]
      refine Or.inr (Or.inl ⟨hlt, rfl, _, hpc ▸ decode_of_presents _ hbody hi, ?_, ?_⟩)
      · exact straight_body _ _ _ (List.get_mem _ _)
      · rw [List.take_succ_eq_append_getElem hi, flows, List.foldl_append]
        rfl
    · obtain rfl : k = 9 := Nat.le_antisymm hk hge
      right; right
      rw [hpc]
      exact ⟨rfl, hend.1⟩

/-! ## Every step -/

/-- The jump at `WhereToAddr`. -/
theorem whereTo_word (h : Executing p ext fetch cmd) (hpc : s.pc = dmAddr w p WhereToAddr) :
    decode (fetch s.pc) = some (.jal 0 0x38) := by
  rw [hpc, h.whereTo]
  decide

/-- The words at different places are different words: a program is not in the ROM and does not contain
    the `WhereTo` word.  The page leaves all three of them room. -/
theorem program_apart (h : Executing p ext fetch cmd) {k : Nat} (hk : k < 10) :
    (∀ j < (romCode p.hasSndScratch).length,
      dmAddr w p AbstractCmdBaseAddr + BitVec.ofNat w (4 * k)
        ≠ p.dmBaseAddress.setWidth w + romAt w j) ∧
    dmAddr w p AbstractCmdBaseAddr + BitVec.ofNat w (4 * k) ≠ dmAddr w p WhereToAddr := by
  -- ten words of the program against all of the ROM, as offsets in the page
  have hrom : ∀ k < 10, ∀ j < 38, AbstractCmdBaseAddr.setWidth w + BitVec.ofNat w (4 * k)
      ≠ romAt w j := by
    rcases h.width with rfl | rfl <;> decide
  have hwhere : ∀ k < 10, AbstractCmdBaseAddr.setWidth w + BitVec.ofNat w (4 * k)
      ≠ WhereToAddr.setWidth w := by
    rcases h.width with rfl | rfl <;> decide
  constructor
  · intro j hj heq
    have hlength : (romCode p.hasSndScratch).length ≤ 38 := by
      rw [length_romCode]
      split_ifs <;> decide
    rw [dmAddr, BitVec.add_assoc, BitVec.add_right_inj] at heq
    exact hrom k hk j (by omega) heq
  · intro heq
    rw [dmAddr, dmAddr, BitVec.add_assoc, BitVec.add_right_inj] at heq
    exact hwhere k hk heq

/-- An address of the ROM's three vectors. -/
theorem dmAddr_vector (p : Params n) (hw : w = 32 ∨ w = 64) (j : Nat) (hj : j < 3) :
    dmAddr w p (HaltAddress.setWidth 12 + BitVec.ofNat 12 (4 * j))
      = p.dmBaseAddress.setWidth w + romAt w j := by
  rw [dmAddr, BitVec.add_right_inj]
  revert j
  rcases hw with rfl | rfl <;> decide

/-- The hart is back at the halt address. -/
theorem keeps_halted (h : Executing p ext fetch cmd)
    (hs : Kept X (Commanded (acAr cmd)) (restored p.hasSndScratch) s) :
    Keeps p (acAr cmd) X (goto p (HaltAddress.setWidth 12) s) := by
  refine .rom 0 ⟨[], []⟩ ?_ ?_ (dmAddr_vector p h.width 0 (by decide)) ?_
  · cases p.hasSndScratch <;> decide
  · cases p.hasSndScratch <;> decide
  · exact kept_mono (covers_spec (by cases p.hasSndScratch <;> decide) _) hs

/-- The hart is at the exception handler. -/
theorem keeps_trapped (h : Executing p ext fetch cmd)
    (hs : Kept X (Commanded (acAr cmd)) (inUse p.hasSndScratch) s) :
    Keeps p (acAr cmd) X (goto p (ExceptionAddress.setWidth 12) s) := by
  refine .rom 2 (inUse p.hasSndScratch) ?_ ?_ (dmAddr_vector p h.width 2 (by decide)) hs
  · cases p.hasSndScratch <;> decide
  · cases p.hasSndScratch <;> decide

/-- An instruction that goes on, on any memory, keeps the registers.  The memory may be any because the
    debug module and the other harts write to it between two instructions. -/
theorem keeps_next (h : Executing p ext fetch cmd) {m : BitVec w → BitVec 8}
    (hnext : step ext fetch { s with mem := m } = .next s') (hs : Keeps p (acAr cmd) X s) :
    Keeps p (acAr cmd) X s' := by
  cases hs with
  -- a word of the ROM: the analysis of the word has been checked
  | rom j a hj hplaces hpc hkept =>
    obtain ⟨i, hdec, hsuccs, -⟩ := rom_word h hj hplaces hpc
    have hexec := step_next hdec hnext
    have hmem := (exec_effect hexec).pc
    rw [show ({ s with mem := m } : Hart w f).pc = _ from hpc, succs_add, List.mem_map] at hmem
    obtain ⟨b, hb, hpc'⟩ := hmem
    exact keeps_mayGo (hsuccs b hb) hpc'.symm (kept_exec hexec hkept)
  -- the jump at `WhereTo` goes to the first word of the program
  | whereTo hpc hkept =>
    have hexec := step_next (whereTo_word h hpc) hnext
    have hmem := List.mem_singleton.mp (exec_effect hexec).pc
    have hsame : (flow (restored p.hasSndScratch) (.jal 0 0x38)).Covers (Commanded (acAr cmd))
        (restored p.hasSndScratch) := covers_spec (by cases p.hasSndScratch <;> decide) _
    refine .program 0 (Nat.zero_le 9) (Or.inl rfl) ?_ (kept_mono hsame (kept_exec hexec hkept))
    rw [hmem, show ({ s with mem := m } : Hart w f).pc = _ from hpc, dmAddr, dmAddr,
      BitVec.add_assoc, BitVec.add_assoc, BitVec.add_right_inj]
    rcases h.width with rfl | rfl <;> decide
  -- a word of the program goes on to the next one
  | program k hk hfirst hpc hkept =>
    rcases program_word h hk hfirst hpc (restored p.hasSndScratch) with
      ⟨-, hnone⟩ | ⟨hlt, htransfer, i, hdec, hstraight, hflow⟩ | ⟨-, hdec⟩
    · rw [step] at hnext
      dsimp only at hnext
      rw [hnone] at hnext
      cases hnext
    · have hexec := step_next hdec hnext
      refine .program (k + 1) hlt (Or.inr htransfer) ?_ ?_
      · rw [exec_pc hstraight hexec, show ({ s with mem := m } : Hart w f).pc = _ from hpc,
          Nat.mul_succ, BitVec.ofNat_add, BitVec.add_assoc]
        rfl
      · rw [hflow]
        exact kept_exec hexec hkept
    · cases step_next hdec hnext

/-- `ebreak` stands where the registers are back in their places, so the hart may go to the halt address
    with them. -/
theorem keeps_ebreak (h : Executing p ext fetch cmd) (hebreak : step ext fetch s = .ebreak)
    (hs : Keeps p (acAr cmd) X s) : Keeps p (acAr cmd) X (goto p (HaltAddress.setWidth 12) s) := by
  have hinstr {i : Instr} (hdec : decode (fetch s.pc) = some i) : i = .ebreak := by
    rw [step, hdec] at hebreak
    exact eq_ebreak hebreak
  cases hs with
  | rom j a hj hplaces hpc hkept =>
    obtain ⟨i, hdec, -, hcovers⟩ := rom_word h hj hplaces hpc
    exact keeps_halted h (kept_mono (covers_spec (hcovers (hinstr hdec)) _) hkept)
  | whereTo hpc hkept => cases hinstr (whereTo_word h hpc)
  | program k hk hfirst hpc hkept =>
    rcases program_word h hk hfirst hpc (restored p.hasSndScratch) with
      ⟨-, hnone⟩ | ⟨hlt, htransfer, i, hdec, hstraight, hflow⟩ | ⟨rfl, -⟩
    · rw [step, hnone] at hebreak
      cases hebreak
    · rw [hinstr hdec] at hstraight
      cases hstraight
    · obtain ⟨-, hlast⟩ := body_flows p.hasSndScratch h.target0 h.target1
      rw [← length_body p.hasSndScratch (acAr cmd), List.take_length] at hkept
      exact keeps_halted h (kept_mono hlast hkept)

/-- An exception in the program finds the registers in places that the ROM does not use, and the entry
    of the exception handler takes them as they are. -/
theorem keeps_trap (h : Executing p ext fetch cmd) (htrap : InProgram p s)
    (hs : Keeps p (acAr cmd) X s) :
    Keeps p (acAr cmd) X (goto p (ExceptionAddress.setWidth 12) s) := by
  obtain ⟨k, hk, hat⟩ := htrap
  cases hs with
  | rom j a hj hplaces hpc hkept => exact absurd (hat.symm.trans hpc) ((program_apart h hk).1 j hj)
  | whereTo hpc hkept => exact absurd (hat.symm.trans hpc) (program_apart h hk).2
  | program k' hk' hfirst hpc hkept =>
    obtain ⟨halong, -⟩ := body_flows p.hasSndScratch h.target0 h.target1
    exact keeps_trapped h (kept_mono (halong k' (by rw [length_body]; exact hk')) hkept)

/-- **One step** keeps the registers. -/
theorem keeps_step (h : Executing p ext fetch cmd) (hstep : DebugStep p ext fetch s s')
    (hs : Keeps p (acAr cmd) X s) : Keeps p (acAr cmd) X s' := by
  cases hstep with
  | next m hnext => exact keeps_next h hnext hs
  | ebreak hebreak => exact keeps_ebreak h hebreak hs
  | trap htrap => exact keeps_trap h htrap hs

/-- **Every run** keeps the registers. -/
theorem keeps_run (h : Executing p ext fetch cmd) (hrun : DebugRun p ext fetch s s')
    (hs : Keeps p (acAr cmd) X s) : Keeps p (acAr cmd) X s' := by
  induction hrun with
  | refl => exact hs
  | tail _ hstep ih => exact keeps_step h hstep ih

/-- A hart at the halt address has the values in its registers, whichever way it came there. -/
theorem keeps_at_halt (h : Executing p ext fetch cmd) (hs : Keeps p (acAr cmd) X s)
    (hpc : s.pc = dmAddr w p (HaltAddress.setWidth 12)) {r : BitVec 5}
    (hr : ¬ Commanded (acAr cmd) r) : s.x r = X r := by
  have hhalt : s.pc = p.dmBaseAddress.setWidth w + romAt w 0 :=
    hpc.trans (dmAddr_vector p h.width 0 (by decide))
  cases hs with
  -- the only word of the ROM there is the first, where nothing is spilled yet
  | rom j a hj hplaces hpc' hkept =>
    have hfirst : ∀ j < 38, romAt w j = romAt w 0 → j = 0 := by
      rcases h.width with rfl | rfl <;> decide
    have hlength : (romCode p.hasSndScratch).length ≤ 38 := by
      rw [length_romCode]
      split_ifs <;> decide
    have hsame := hpc'.symm.trans hhalt
    rw [BitVec.add_right_inj] at hsame
    obtain rfl := hfirst j (by omega) hsame
    have hstart : (romPlaces p.hasSndScratch).getD 0 none = some ⟨[], []⟩ := by
      cases p.hasSndScratch <;> decide
    rw [hstart, Option.some.injEq] at hplaces
    rw [← hplaces] at hkept
    exact hkept.1 r List.not_mem_nil hr
  -- the other places are at other addresses
  | whereTo hpc' hkept =>
    have hsame := hpc'.symm.trans hpc
    rw [dmAddr, dmAddr, BitVec.add_right_inj] at hsame
    rcases h.width with rfl | rfl <;> exact absurd hsame (by decide)
  | program k hk hfirst hpc' hkept =>
    have hpos : 0 < (romCode p.hasSndScratch).length := by cases p.hasSndScratch <;> decide
    exact absurd (hpc'.symm.trans hhalt) ((program_apart h (Nat.lt_succ_of_le hk)).1 0 hpos)

/-- A hart at the halt address keeps its own values. -/
theorem keeps_entry (h : Executing p ext fetch cmd) (hpc : s.pc = dmAddr w p (HaltAddress.setWidth 12)) :
    Keeps p (acAr cmd) s.x s := by
  refine .rom 0 ⟨[], []⟩ ?_ ?_ (hpc.trans (dmAddr_vector p h.width 0 (by decide))) ?_
  · cases p.hasSndScratch <;> decide
  · cases p.hasSndScratch <;> decide
  · exact ⟨fun _ _ _ => rfl, fun q hq => absurd hq List.not_mem_nil⟩

/-- Steps on the memory as it is are a run. -/
theorem run_of_steps {k : Nat} (hk : steps ext fetch k s = some s') : DebugRun p ext fetch s s' := by
  induction k generalizing s with
  | zero =>
    cases hk
    exact .refl
  | succ k ih =>
    rw [steps] at hk
    cases hstep : step ext fetch s with
    | next t =>
      rw [hstep] at hk
      exact .head (.next s.mem hstep) (ih hk)
    | ebreak => rw [hstep] at hk; cases hk
    | dret => rw [hstep] at hk; cases hk
    | trap => rw [hstep] at hk; cases hk

/-! ## The exception handler -/

/-- `_exception` up to the store, and the rest of it up to the `ebreak`. -/
def handlerBase (snd : Bool) : List Instr :=
  if snd then [.auipc 10 0, .srli 10 10 12, .slli 10 10 12] else []

def handlerRest (snd : Bool) : List Instr :=
  .store 2 0 (loadBaseAddr snd) ExceptionAddr ::
    if snd then [.csrrs 10 CSR_DSCRATCH1 0, .csrrs 8 CSR_DSCRATCH0 0] else [.csrrs 8 CSR_DSCRATCH0 0]

/-- The word of the ROM that the exception vector jumps to. -/
def handlerWord (snd : Bool) : Nat := if snd then 21 else 15

theorem presents_handler (h : Executing p ext fetch cmd) :
    Presents fetch (p.dmBaseAddress.setWidth w + romAt w (handlerWord p.hasSndScratch))
      (handlerBase p.hasSndScratch ++ (handlerRest p.hasSndScratch ++ [.ebreak])) := by
  have hcode := contains_take _ (contains_drop _ h.rom (handlerWord p.hasSndScratch))
    (handlerBase p.hasSndScratch ++ (handlerRest p.hasSndScratch ++ [Instr.ebreak])).length
  rw [dmAddr, BitVec.add_assoc] at hcode
  refine presents_of_contains _ _ hcode ?_
  cases p.hasSndScratch <;> decide

/-- The exception vector is a jump, and it goes to the handler. -/
theorem step_vector (h : Executing p ext fetch cmd)
    (hpc : s.pc = dmAddr w p (ExceptionAddress.setWidth 12)) :
    ∃ t, steps ext fetch 1 s = some t ∧
      t.pc = p.dmBaseAddress.setWidth w + romAt w (handlerWord p.hasSndScratch) := by
  have hat : s.pc = p.dmBaseAddress.setWidth w + romAt w 2 :=
    hpc.trans (dmAddr_vector p h.width 2 (by decide))
  have hword : fetch s.pc = (romCode p.hasSndScratch).getD 2 0 := by
    rw [hat]
    exact fetch_rom h (by cases p.hasSndScratch <;> decide)
  obtain ⟨imm, hdec, himm⟩ : ∃ imm, decode ((romCode p.hasSndScratch).getD 2 0) = some (.jal 0 imm) ∧
      romAt w 2 + imm.signExtend w = romAt w (handlerWord p.hasSndScratch) := by
    -- the handler is at another word in the two ROMs, so the vectors jump differently
    cases p.hasSndScratch
    · exact ⟨0x34, by decide, by rcases h.width with rfl | rfl <;> decide⟩
    · exact ⟨0x4c, by decide, by rcases h.width with rfl | rfl <;> decide⟩
  refine ⟨{ s.setX 0 (s.pc + 4) with pc := s.pc + imm.signExtend w }, ?_, ?_⟩
  · have hstep : step ext fetch s
        = .next { s.setX 0 (s.pc + 4) with pc := s.pc + imm.signExtend w } := by
      rw [step, hword, hdec]
      rfl
    rw [steps, hstep]
    rfl
  · rw [← himm, ← BitVec.add_assoc, ← hat]

/-- The handler makes the base register point at the debug module.  With a second scratch register it does
    so as the prologue does, `a0` being in `dscratch1` already; otherwise `x0` is the base and there is
    nothing to do. -/
theorem execs_handlerBase (h : Executing p ext fetch cmd)
    (hpc : s.pc = p.dmBaseAddress.setWidth w + romAt w (handlerWord p.hasSndScratch)) :
    ∃ v, execs ext (handlerBase p.hasSndScratch) s = some v ∧
      v.x (loadBaseAddr p.hasSndScratch) = p.dmBaseAddress.setWidth w := by
  cases hsnd : p.hasSndScratch
  · have hzero : p.dmBaseAddress = 0 := by simpa [Params.hasSndScratch] using hsnd
    refine ⟨s, rfl, ?_⟩
    rw [hzero]
    exact (BitVec.setWidth_zero w 32).symm
  · obtain ⟨v, hrun, -, hx, -, -, -⟩ :=
      execs_page ext s (by decide : (10 : BitVec 5) ≠ 0) (width_lt h.width) []
    refine ⟨v, hrun, ?_⟩
    have hword : (romAt w (handlerWord true) : BitVec w) = BitVec.ofNat w 0x854 := by
      rcases h.width with rfl | rfl <;> decide
    have hbase : loadBaseAddr true = 10 := rfl
    rw [hx, if_pos hbase, hpc, hsnd, hword]
    exact page_of_offset _ _ (Nat.le_of_lt (width_lt h.width)) (page_setWidth p h.width h.page)
      (by decide)

/-- The handler's store is one to `EXCEPTION`, wherever the debug module is. -/
theorem storing_handler (hw : w = 32 ∨ w = 64) {is : List Instr}
    (hcode : Presents fetch s.pc (handlerRest p.hasSndScratch ++ is))
    (hbase : s.x (loadBaseAddr p.hasSndScratch) = p.dmBaseAddress.setWidth w) :
    storing fetch s = some (dmAddr w p ExceptionAddr) := by
  have hdec : decode (fetch s.pc)
      = some (.store 2 0 (loadBaseAddr p.hasSndScratch) ExceptionAddr) := hcode.1
  have hoff : ExceptionAddr.signExtend w = (ExceptionAddr.setWidth w : BitVec w) := by
    rcases hw with rfl | rfl <;> decide
  rw [storing, hdec]
  dsimp only
  rw [effective, hbase, hoff, dmAddr]

/-- The handler goes through to its `ebreak`: none of its instructions can trap. -/
theorem execs_handlerRest (hscratch : Scratch ext p.hasSndScratch) (v : Hart w f) :
    ∃ b, execs ext (handlerRest p.hasSndScratch) v = some b := by
  obtain ⟨v₁, hstore⟩ : ∃ v₁, exec ext v (.store 2 0 (loadBaseAddr p.hasSndScratch) ExceptionAddr)
      = .next v₁ := ⟨_, exec_store _ _ _ (rfl : storeWidth w 2 = some 4)⟩
  cases hsnd : p.hasSndScratch
  · rw [hsnd] at hstore
    refine ⟨(v₁.setX 8 (v₁.csr CSR_DSCRATCH0)).advance, ?_⟩
    rw [handlerRest, if_neg Bool.false_ne_true, execs_cons _ hstore,
      execs_cons _ (exec_csrr 8 hscratch.readable0)]
    rfl
  · rw [hsnd] at hstore
    let v₂ := (v₁.setX 10 (v₁.csr CSR_DSCRATCH1)).advance
    refine ⟨(v₂.setX 8 (v₂.csr CSR_DSCRATCH0)).advance, ?_⟩
    rw [handlerRest, if_pos rfl, execs_cons _ hstore,
      execs_cons _ (exec_csrr 10 (hscratch.readable1 hsnd)),
      execs_cons _ (exec_csrr 8 hscratch.readable0)]
    rfl

/-- The instructions of the handler do not jump. -/
theorem straight_handler (snd : Bool) :
    (∀ i ∈ handlerBase snd, i.straight = true) ∧ ∀ i ∈ handlerRest snd, i.straight = true := by
  rw [← List.all_eq_true, ← List.all_eq_true]
  cases snd <;> decide

/-- **The exception path** of the ROM: to a store to `EXCEPTION`, and on to the `ebreak`.  Both counts of
    instructions are fixed by the ROM. -/
theorem handler_run (h : Executing p ext fetch cmd)
    (hpc : s.pc = dmAddr w p (ExceptionAddress.setWidth 12)) :
    ∃ j k v b, steps ext fetch j s = some v ∧ storing fetch v = some (dmAddr w p ExceptionAddr) ∧
      steps ext fetch k v = some b ∧ step ext fetch b = .ebreak := by
  obtain ⟨hstraightBase, hstraightRest⟩ := straight_handler p.hasSndScratch
  obtain ⟨t, hjump, ht⟩ := step_vector h hpc
  have hcode := presents_handler h
  rw [← ht] at hcode
  obtain ⟨hcodeBase, hcodeRest⟩ := (presents_append _ _).mp hcode
  obtain ⟨v, hrunBase, hbase⟩ := execs_handlerBase h ht
  rw [← execs_pc _ _ _ hstraightBase hrunBase] at hcodeRest
  obtain ⟨b, hrunRest⟩ := execs_handlerRest h.scratch v
  obtain ⟨hcodeRest', hcodeEnd⟩ := (presents_append _ _).mp hcodeRest
  rw [← execs_pc _ _ _ hstraightRest hrunRest] at hcodeEnd
  refine ⟨1 + (handlerBase p.hasSndScratch).length, (handlerRest p.hasSndScratch).length, v, b, ?_,
    storing_handler h.width hcodeRest hbase, ?_, step_of_presents hcodeEnd⟩
  · rw [steps_add, hjump, Option.bind_some, steps_of_presents _ _ hcodeBase hstraightBase, hrunBase]
  · rw [steps_of_presents _ _ hcodeRest' hstraightRest, hrunRest]

/-! ## The error -/

/-- A store to `EXCEPTION` sets `cmderr`, whatever else goes on in the cycle. -/
theorem exception_recorded (p : Params n) (hw : w = 32 ∨ w = 64) (hpage : 4096 ∣ p.dmBaseAddress.toNat)
    {d : DebugModule.State n} (hact : DebugModule.dmactiveO d = true) {i : DebugModule.Input n w}
    (hreq : i.busI.reqI = true) (hwe : i.busI.weI = true)
    (haddr : i.busI.addrI = dmAddr w p ExceptionAddr) :
    (DebugModule.next p d i).csrs.regs.cmderr = CmdErrorException := by
  have hexception : DmMem.exception (DebugModule.memInWith (w := w) false d i) = true := by
    show i.busI.storesTo ExceptionAddr = true
    rw [Access.storesTo, hreq, hwe, Access.addr, haddr, dmAddr_setWidth p hw hpage]
    rfl
  have hvalid : (DebugModule.csrsIn p d i).cmderrorValidI = true := by
    show cmderrorValidO p d.mem _ = true
    rw [cmderrorValidO, hexception, Bool.or_true]
  rw [DebugModule.regs_next p i hact]
  show (DmRegs.csrReadWrite d.csrs (DebugModule.csrsIn p d i)).d.cmderr = _
  rw [DmRegs.cmderr_d, if_pos hvalid]
  show cmderrorO p d.mem _ = _
  rw [cmderrorO, if_pos hexception]

/-- After a trap at `u` the exception handler runs through to its `ebreak`, and its store sets `cmderr`;
    and whenever the hart is at the halt address again, each register but the commanded one is what it
    was in `s`. -/
structure Recovers (p : Params n) (ext : Extensions f) (fetch : BitVec w → BitVec 32) (cmd : Command)
    (s u : Hart w f) : Prop where
  handled : ∃ j k v b, steps ext fetch j (goto p (ExceptionAddress.setWidth 12) u) = some v ∧
    storing fetch v = some (dmAddr w p ExceptionAddr) ∧
    steps ext fetch k v = some b ∧ step ext fetch b = .ebreak ∧
    ∀ r, targetOf (acAr cmd) ≠ .gpr r → (goto p (HaltAddress.setWidth 12) b).x r = s.x r
  intact : ∀ e, DebugRun p ext fetch (goto p (ExceptionAddress.setWidth 12) u) e →
    e.pc = dmAddr w p (HaltAddress.setWidth 12) →
    ∀ r, targetOf (acAr cmd) ≠ .gpr r → e.x r = s.x r
  recorded : ∀ (d : DebugModule.State n) (i : DebugModule.Input n w),
    DebugModule.dmactiveO d = true → i.busI.reqI = true → i.busI.weI = true →
    i.busI.addrI = dmAddr w p ExceptionAddr →
    (DebugModule.next p d i).csrs.regs.cmderr = CmdErrorException

/-- **A trap leaves the registers intact**, at whichever instruction of a program it happens and
    whatever the hart did since it was at the halt address. -/
theorem trap_recovers (h : Executing p ext fetch cmd) {u : Hart w f}
    (hentry : s.pc = dmAddr w p (HaltAddress.setWidth 12)) (hrun : DebugRun p ext fetch s u)
    (hprogram : InProgram p u) : Recovers p ext fetch cmd s u := by
  have htrapped : DebugRun p ext fetch s (goto p (ExceptionAddress.setWidth 12) u) :=
    hrun.tail (.trap hprogram)
  have hagain {e : Hart w f} (hto : DebugRun p ext fetch (goto p (ExceptionAddress.setWidth 12) u) e)
      (hpc : e.pc = dmAddr w p (HaltAddress.setWidth 12)) {r : BitVec 5}
      (hr : targetOf (acAr cmd) ≠ .gpr r) : e.x r = s.x r :=
    keeps_at_halt h (keeps_run h (htrapped.trans hto) (keeps_entry h hentry)) hpc hr
  refine ⟨?_, fun e hto hpc r hr => hagain hto hpc hr, fun d i hact hreq hwe haddr =>
    exception_recorded p h.width h.page hact hreq hwe haddr⟩
  obtain ⟨j, k, v, b, hj, hstore, hk, hend⟩ :=
    handler_run (s := goto p (ExceptionAddress.setWidth 12) u) h rfl
  refine ⟨j, k, v, b, hj, hstore, hk, hend, fun r hr => ?_⟩
  exact hagain (((run_of_steps hj).trans (run_of_steps hk)).tail (.ebreak hend)) rfl hr

/-- What the debug module answers while it is busy with a command is what it takes: the generator's
    words at the abstract command, and the ROM from the halt address on. -/
theorem executing_fetched {i : DmMem.Input n w} {st : DmMem.State n} (hw : w = 32 ∨ w = 64)
    (hpage : 4096 ∣ p.dmBaseAddress.toNat) (hscratch : Scratch ext p.hasSndScratch)
    (hbusy : cmdbusyO st = true) (hsup : unsupportedCommand w p.hasSndScratch i.cmdI = false)
    (hpost : (acAr i.cmdI).postexec = false) (h0 : targetOf (acAr i.cmdI) ≠ .csr CSR_DSCRATCH0)
    (h1 : targetOf (acAr i.cmdI) ≠ .csr CSR_DSCRATCH1) :
    Executing p ext (fetched p st i) i.cmdI :=
  ⟨hw, hpage, hscratch, hsup, hpost, h0, h1, contains_rom p st i hw hpage,
    fetched_whereTo p st i hw hpage hbusy hpost, contains_abstractCmd p st i hw hpage⟩

end Steps

/-! ## A trap -/

/-- A command is under way. -/
def executing : DmMem.State 1 := { idleHalted with state := .CmdExecuting }

/-- A write of a byte to `f0`, as the debug module at address zero hands it out. -/
def byteToF0 : BitVec 32 → BitVec 32 := fetched (dmAt 0) executing (presented 0x00031020)

/-- A hart that has been halted, every register holding its number and all flags set. -/
def halted : Hart 32 64 :=
  { atProgram (dmAt 0) with pc := dmAddr 32 (dmAt 0) (HaltAddress.setWidth 12), mem := fun _ => 1 }

/-- The hart at the load of the program, which will trap. -/
def atLoad : Hart 32 64 := (steps allCsrs byteToF0 16 halted).getD halted

theorem steps_atLoad : steps allCsrs byteToF0 16 halted = some atLoad := by
  have hsome : (steps allCsrs byteToF0 16 halted).isSome = true := by decide +kernel
  obtain ⟨u, hu⟩ := Option.isSome_iff_exists.mp hsome
  rw [atLoad, hu, Option.getD_some]

theorem trap_recovers_byte_f0 :
    Recovers (dmAt 0) allCsrs byteToF0 (Command.ofWord 0x00031020) halted atLoad :=
  trap_recovers
    (executing_fetched (Or.inl rfl) (by decide) ⟨rfl, rfl, fun _ => rfl, fun _ => rfl⟩ rfl
      (by decide) (by decide) (by decide) (by decide))
    rfl (run_of_steps steps_atLoad) ⟨4, by decide, by decide +kernel⟩

end RiscDbgUart.TrapRecovery
