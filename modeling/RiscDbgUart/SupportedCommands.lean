/-
  Which abstract commands are executed and which are refused.

  The specification of the debug module names the commands it must refuse: a command type other than
  `AccessRegister`, and of the `AccessRegister` commands with `transfer` those whose size the bus
  does not have, whose register number names no register, or which ask for a post-increment
  (`MustRefuse`).  The code decides by the order of nested conditions, and `unsupportedCommand_iff` is
  that decision as one formula: the check for `aarpostincrement` is reached by no command whose size
  is in range and whose `transfer` is set, and of the register number two bits are looked at.

  `Misjudged` is the difference of the two.  A command in it is run as another one; every other
  command is treated as it should be, in every cycle in which nothing outranks it.

  `writeRegister_unsupported` and `readRegister_unsupported` evaluate the nested conditions of the source in
  the two directions, so that `unsupportedCommand_iff` is about one formula.  `reports_iff` and
  `stateD_refused` are what the state machine makes of a refused command in an idle cycle.
-/
import RiscDbgUart.DmMem

set_option linter.unusedVariables false

namespace RiscDbgUart.SupportedCommands

open DmMem

variable {n w : Nat}

/-! ## What must be refused -/

/-- `ac_ar` -/
abbrev acAr (cmd : Command) : AcArCmd := AcArCmd.ofControl cmd.control

/-- The command is one the debug module does not implement: of another type, too wide, beyond the last
    register, or with a postincrement. -/
def MustRefuse (w : Nat) (cmd : Command) : Prop :=
  cmd.cmdtype ≠ AccessRegister ∨
  ((acAr cmd).transfer = true ∧
    (maxAar w ≤ (acAr cmd).aarsize.toNat ∨ 0x103F < (acAr cmd).regno.toNat ∨
      (acAr cmd).aarpostincrement = true))

/-- The command is an implemented access to a register. -/
def Implemented (w : Nat) (cmd : Command) : Prop :=
  cmd.cmdtype = AccessRegister ∧ (acAr cmd).transfer = true ∧ ¬ MustRefuse w cmd

/-- The state machine raises `CmdErrNotSupported`. -/
def ReportsUnsupported (p : Params n) (s : State n) (i : Input n w) : Prop :=
  cmderrorValidO p s i = true ∧ cmderrorO p s i = CmdErrNotSupported

/-- The command presented in this cycle is judged as it should be: what must be refused is reported
    and starts nothing, and an implemented access is not reported. -/
def Judged (p : Params n) (s : State n) (i : Input n w) : Prop :=
  (MustRefuse w i.cmdI → ReportsUnsupported p s i ∧ stateD p s i = .Idle) ∧
  (Implemented w i.cmdI → ¬ ReportsUnsupported p s i)

/-- The register number names no register although its two top bits are zero, or the command asks for
    a post-increment, and all the rest of it is in order. -/
def Misjudged (w : Nat) (cmd : Command) : Prop :=
  cmd.cmdtype = AccessRegister ∧ (acAr cmd).transfer = true ∧
  (acAr cmd).aarsize.toNat < maxAar w ∧ (acAr cmd).regno.toNat < 0x4000 ∧
  (0x103F < (acAr cmd).regno.toNat ∨ (acAr cmd).aarpostincrement = true)

instance (w : Nat) (cmd : Command) : Decidable (MustRefuse w cmd) := by
  unfold MustRefuse; infer_instance

instance (w : Nat) (cmd : Command) : Decidable (Misjudged w cmd) := by
  unfold Misjudged; infer_instance

instance (w : Nat) (cmd : Command) : Decidable (Implemented w cmd) := by
  unfold Implemented; infer_instance

instance (p : Params n) (s : State n) (i : Input n w) : Decidable (ReportsUnsupported p s i) := by
  unfold ReportsUnsupported; infer_instance

instance (p : Params n) (s : State n) (i : Input n w) : Decidable (Judged p s i) := by
  unfold Judged; infer_instance

/-! ## What is refused -/

/-- Of the register number the two top bits are checked, and no others. -/
theorem writeRegister_unsupported (snd : Bool) (ar : AcArCmd) (a : AbstractCmd) :
    (AbstractCmd.writeRegister snd ar a).unsupportedCommand
      = (a.unsupportedCommand || ar.regno.extractLsb' 14 2 != 0) := by
  unfold AbstractCmd.writeRegister
  by_cases h : (ar.regno.extractLsb' 14 2 != 0) = true
  · rw [if_pos h, h, Bool.or_true]
    rfl
  · rw [if_neg h, Bool.eq_false_iff.mpr h, Bool.or_false]
    split_ifs <;> rfl

theorem readRegister_unsupported (snd : Bool) (ar : AcArCmd) (a : AbstractCmd) :
    (AbstractCmd.readRegister snd ar a).unsupportedCommand
      = (a.unsupportedCommand || ar.regno.extractLsb' 14 2 != 0) := by
  unfold AbstractCmd.readRegister
  by_cases h : (ar.regno.extractLsb' 14 2 != 0) = true
  · rw [if_pos h, h, Bool.or_true]
    rfl
  · rw [if_neg h, Bool.eq_false_iff.mpr h, Bool.or_false]
    split_ifs <;> rfl

/-- `transfer` decides which check is made: the one of the register number, or the last one. -/
theorem accessRegister_unsupported (w : Nat) (snd : Bool) (ar : AcArCmd) :
    (AbstractCmd.accessRegister w snd ar).unsupportedCommand
      = (decide (maxAar w ≤ ar.aarsize.toNat) ||
          if ar.transfer then ar.regno.extractLsb' 14 2 != 0 else ar.aarpostincrement) := by
  have hkeep : (AbstractCmd.accessRegister w snd ar).unsupportedCommand
      = (AbstractCmd.transferRegister w snd ar (AbstractCmd.initial snd)).unsupportedCommand := by
    unfold AbstractCmd.accessRegister
    dsimp only
    split_ifs <;> rfl
  rw [hkeep]
  unfold AbstractCmd.transferRegister
  by_cases hsize : ar.aarsize.toNat < maxAar w
  · rw [decide_eq_true hsize, decide_eq_false (Nat.not_le.mpr hsize)]
    cases ar.transfer
    · cases ar.aarpostincrement <;> rfl
    · cases ar.write
      · exact readRegister_unsupported snd ar _
      · exact writeRegister_unsupported snd ar _
  · rw [decide_eq_false hsize, decide_eq_true (Nat.not_lt.mp hsize)]
    rfl

/-- **The decision of `p_abstract_cmd_rom`**, read off its branches: the width is checked always, the
    register number for a transfer, and the postincrement only where there is none. -/
theorem unsupportedCommand_iff (w : Nat) (snd : Bool) (cmd : Command) :
    unsupportedCommand w snd cmd = true ↔
      cmd.cmdtype ≠ AccessRegister ∨ maxAar w ≤ (acAr cmd).aarsize.toNat ∨
      ((acAr cmd).transfer = true ∧ 0x4000 ≤ (acAr cmd).regno.toNat) ∨
      ((acAr cmd).transfer = false ∧ (acAr cmd).aarpostincrement = true) := by
  unfold unsupportedCommand AbstractCmd.ofCommand
  by_cases htype : cmd.cmdtype = AccessRegister
  · rw [if_pos htype, accessRegister_unsupported, Bool.or_eq_true, decide_eq_true_iff]
    have hreserved : ((acAr cmd).regno.extractLsb' 14 2 != 0) = true
        ↔ 0x4000 ≤ (acAr cmd).regno.toNat := by
      rw [bne_iff_ne, ne_eq, ← BitVec.toNat_inj, BitVec.extractLsb'_toNat]
      simp
      omega
    cases (acAr cmd).transfer
    · simp [htype]
    · simp [htype, ← hreserved]
  · rw [if_neg htype]
    exact iff_of_true rfl (Or.inl htype)

/-! ## The commands that are misjudged -/

/-- What must be refused is refused unless it is misjudged.  The cases are the reasons to refuse. -/
theorem mustRefuse_unsupported (snd : Bool) {cmd : Command} (h : MustRefuse w cmd) :
    unsupportedCommand w snd cmd = true ↔ ¬ Misjudged w cmd := by
  rw [unsupportedCommand_iff]
  unfold Misjudged
  rcases h with htype | ⟨htransfer, hrest⟩
  · exact iff_of_true (Or.inl htype) fun hmis => htype hmis.1
  · constructor
    · rintro (htype | hsize | ⟨-, hregno⟩ | ⟨hno, -⟩) ⟨hm1, -, hm2, hm3, -⟩
      · exact htype hm1
      · omega
      · omega
      · exact Bool.noConfusion (hno.symm.trans htransfer)
    · intro hmis
      by_contra hsup
      push Not at hsup
      obtain ⟨htype, hsize, hregno, -⟩ := hsup
      refine hmis ⟨htype, htransfer, hsize, hregno htransfer, ?_⟩
      rcases hrest with hrest | hrest
      · omega
      · exact hrest

/-- An implemented access is supported, so it is never refused. -/
theorem implemented_supported (snd : Bool) {cmd : Command} (h : Implemented w cmd) :
    unsupportedCommand w snd cmd = false := by
  obtain ⟨htype, htransfer, hnot⟩ := h
  apply Bool.eq_false_iff.mpr
  rw [ne_eq, unsupportedCommand_iff]
  rintro (h | hsize | ⟨-, hregno⟩ | ⟨hno, -⟩)
  · exact h htype
  · exact hnot (Or.inr ⟨htransfer, Or.inl hsize⟩)
  · exact hnot (Or.inr ⟨htransfer, Or.inr (Or.inl (by omega))⟩)
  · exact Bool.noConfusion (hno.symm.trans htransfer)

/-! ## The state machine's answer -/

/-- A command presented in `Idle` is reported as unsupported when the program block says so and no
    hart reports an exception in the same cycle. -/
theorem reports_iff {p : Params n} {s : State n} {i : Input n w} (hvalid : i.cmdValidI = true) :
    ReportsUnsupported p s i ↔ unsupported p i = true ∧ exception i = false := by
  unfold ReportsUnsupported cmderrorValidO cmderrorO
  rw [hvalid]
  cases unsupported p i <;> cases exception i <;> cases haltResumeError p s i <;> simp

/-- A refused command starts nothing; a resume may start in the same cycle. -/
theorem stateD_refused {p : Params n} {s : State n} {i : Input n w} (hidle : s.state = .Idle)
    (hsup : unsupported p i = true) : stateD p s i = .Idle ↔ wantsResume s i = false := by
  unfold stateD
  rw [hidle, hsup]
  cases wantsResume s i <;> simp

/-- **Exactly when a command is judged as it should be.**  It is not one of the misjudged, and if it
    must be refused, no exception and no resume outranks it in the same cycle. -/
theorem judged_iff (p : Params n) (s : State n) (i : Input n w) (hidle : s.state = .Idle)
    (hvalid : i.cmdValidI = true) :
    Judged p s i ↔
      ¬ Misjudged w i.cmdI ∧
      (MustRefuse w i.cmdI → exception i = false ∧ wantsResume s i = false) := by
  unfold Judged
  rw [reports_iff hvalid]
  by_cases hmust : MustRefuse w i.cmdI
  · -- a command to be refused: it is, unless something outranks the refusal
    have himpl : ¬ Implemented w i.cmdI := fun h => h.2.2 hmust
    have hsup : unsupported p i = true ↔ ¬ Misjudged w i.cmdI :=
      mustRefuse_unsupported p.hasSndScratch hmust
    simp only [hmust, himpl, true_imp_iff, false_imp_iff, and_true]
    rw [← hsup]
    constructor
    · rintro ⟨⟨hs, hex⟩, hst⟩
      exact ⟨hs, hex, (stateD_refused hidle hs).mp hst⟩
    · rintro ⟨hs, hex, hres⟩
      exact ⟨⟨hs, hex⟩, (stateD_refused hidle hs).mpr hres⟩
  · -- a command that need not be refused is never misjudged
    have hmis : ¬ Misjudged w i.cmdI := by
      rintro ⟨-, htransfer, -, -, hrest⟩
      exact hmust (Or.inr ⟨htransfer, Or.inr hrest⟩)
    simp only [hmust, hmis, false_imp_iff, true_and, not_false_eq_true, and_self, iff_true]
    rintro himpl ⟨hs, -⟩
    exact Bool.noConfusion (hs.symm.trans (implemented_supported p.hasSndScratch himpl))

/-- One halted hart, nothing under way. -/
def idleHalted : State 1 := { (reset 0 : State 1) with halted := 1 }

/-- A cycle in which a command is presented and nothing else happens. -/
def presented (word : BitVec 32) : Input 1 32 :=
  { hartselI := 0, haltreqI := 0, resumereqI := 0, clearResumeackI := false, progbufI := 0
    dataI := 0, cmdValidI := true, cmdI := Command.ofWord word, busI := {} }

theorem judged_read_s0 :
    Judged { selectableHarts := 1, dmBaseAddress := 0 } idleHalted (presented 0x00221008) :=
  (judged_iff _ _ _ rfl rfl).mpr (by decide)

/-- Reads of the register numbers `0x1040` and, with a post-increment, `0x1008` are launched. -/
theorem not_judged_1040_postincrement :
    ¬ Judged { selectableHarts := 1, dmBaseAddress := 0 } idleHalted (presented 0x00221040) ∧
    ¬ Judged { selectableHarts := 1, dmBaseAddress := 0 } idleHalted (presented 0x002A1008) := by
  decide

end RiscDbgUart.SupportedCommands
