/-
  The data register of the system bus.

  `sbdata` is what the next write sends and what the debugger reads.  The host hands the registers the
  data of every answer, with one valid for reads and writes, and the registers take it: what the bus
  shows with the answer of a write replaces what the debugger wrote.  On a 64-bit bus the debugger
  writes the upper half once and then one lower half for each transfer; from the second on the upper
  half is the bus's.

  A checker remembers the upper half the debugger wrote until a read replaces it.

  `upperKept_next` is one cycle of the checker, `dataKept_iff` one cycle of the register, and since the
  checker says what a write sends, both are needed at once for the run.
-/
import RiscDbgUart.BusTransfers

set_option linter.unusedVariables false

namespace RiscDbgUart.SystemBus

open Clocked
open DmSba (SbaState)

variable {n w : Nat}

/-! ## What the debugger wrote -/

/-- The bus answers a read. -/
def completesRead (s : State n) (i : Input n w) : Bool := s.sba == .WaitRead && i.masterRValidI
/-- The bus answers a write. -/
def completesWrite (s : State n) (i : Input n w) : Bool := s.sba == .WaitWrite && i.masterRValidI

/-- The upper half that the debugger wrote last, if nothing has replaced it: the answer of a read does, and
    so does switching the module off. -/
def seeUpper (g : Option (BitVec 32)) (s : State n) (i : Input n w) : Option (BitVec 32) :=
  if dmactiveO s = false then none
  else if writesSb s i .sbData1 then some i.dmiReqI.data
  else if completesRead s i then none
  else g

/-- The data register changes by a write of the debugger or by the answer of a read only, and on a
    64-bit bus a write goes out with the upper half that the debugger wrote. -/
def DataKept (p : BitVec n) (g : Option (BitVec 32)) (s : State n) (i : Input n w) : Prop :=
  ((next p s i).csrs.regs.sbdata ≠ s.csrs.regs.sbdata →
    writesSb s i .sbData0 = true ∨ writesSb s i .sbData1 = true ∨ completesRead s i = true) ∧
  (w = 64 → granted w s i = true → masterWeO s = true →
    ∀ v, g = some v → getWord (masterWdataO w s) 1 = v)

/-- The answer of a write carries what is in the register. -/
def Echoes (s : State n) (i : Input n w) : Prop :=
  completesWrite s i = true → i.masterRRdataI.setWidth 64 = s.csrs.regs.sbdata

/-- The upper half is still in the register. -/
def UpperKept (g : Option (BitVec 32)) (s : State n) : Prop :=
  ∀ v, g = some v → getWord s.csrs.regs.sbdata 1 = v

section Cycle

variable {p : BitVec n} {s : State n} {i : Input n w}

/-! ## One cycle -/

/-- An access writes one register. -/
theorem writesSb_other {c d : DmCsr} (hne : d ≠ c) (h : writesSb s i d = true) :
    writesSb s i c = false := by
  unfold writesSb DmRegs.overwritesSb at h ⊢
  rw [Bool.and_eq_true, Bool.and_eq_true, beq_iff_eq] at h
  rw [h.1.2, beq_eq_false_iff_ne.mpr hne, Bool.and_false, Bool.false_and]

/-- An answer is that of a read or that of a write. -/
theorem completes_cases (hv : i.masterRValidI = true) (hwait : waits s = true) :
    completesRead s i = true ∨ (completesRead s i = false ∧ completesWrite s i = true) := by
  unfold completesRead completesWrite
  rw [hv, Bool.and_true, Bool.and_true]
  rcases waits_iff.mp hwait with hs | hs
  · rw [hs]
    exact Or.inl rfl
  · rw [hs]
    exact Or.inr ⟨rfl, rfl⟩

/-- A cycle that keeps to the register leaves the upper half that the debugger wrote. -/
theorem upperKept_next {g : Option (BitVec 32)} (hg : UpperKept g s)
    (hv : waits s = false → i.masterRValidI = false)
    (hecho : dmactiveO s = true → Echoes s i) : UpperKept (seeUpper g s i) (next p s i) := by
  intro v hsee
  unfold seeUpper at hsee
  cases hact : dmactiveO s
  · rw [hact] at hsee
    cases hsee
  · rw [hact, if_neg (by decide)] at hsee
    cases hval : i.masterRValidI
    · -- no answer: the register changes by writes of the debugger
      rw [sbdata_quiet hact hval]
      have hread : completesRead s i = false := by
        unfold completesRead
        rw [hval, Bool.and_false]
      rw [hread] at hsee
      cases h1 : writesSb s i .sbData1
      · rw [h1] at hsee
        have hold := hg v hsee
        cases h0 : writesSb s i .sbData0
        · exact hold
        · rw [if_pos rfl, getWord_setWord _ _ _ (by omega), if_neg (by decide)]
          exact hold
      · rw [h1] at hsee
        rw [writesSb_other (c := .sbData0) (by decide) h1, if_neg (by decide), if_pos rfl,
          getWord_setWord _ _ _ (by omega), if_pos rfl]
        exact Option.some.inj hsee
    · -- an answer: the host is busy, so the debugger cannot write
      have hwait : waits s = true := waits_of_answer hv hval
      have hwr : writesSb s i .sbData1 = false := overwritesSb_busy _ (busy_of_waits hwait)
      rw [hwr, if_neg (by decide)] at hsee
      rw [sbdata_busy hact (busy_of_waits hwait), hval, if_pos rfl]
      rcases completes_cases hval hwait with hr | ⟨hr, hw⟩
      · -- an answer of a read ends what is kept; one of a write must echo the register
        rw [hr] at hsee
        cases hsee
      · rw [hr] at hsee
        rw [hecho hact hw]
        exact hg v hsee

/-- The upper half of a write is that of the register, on a bus of 64 bits. -/
theorem wdata_upper (hw : w = 64) : getWord (masterWdataO w s) 1 = getWord s.csrs.regs.sbdata 1 := by
  subst hw
  show getWord (s.csrs.regs.sbdata.setWidth 64) 1 = _
  rw [BitVec.setWidth_eq]

/-- **One cycle.** -/
theorem dataKept_iff {g : Option (BitVec 32)} (hg : UpperKept g s) (hact : dmactiveO s = true)
    (hv : waits s = false → i.masterRValidI = false) : DataKept p g s i ↔ Echoes s i := by
  have hupper : w = 64 → granted w s i = true → masterWeO s = true →
      ∀ v, g = some v → getWord (masterWdataO w s) 1 = v := by
    intro hw _ _ v hsome
    rw [wdata_upper hw]
    exact hg v hsome
  unfold DataKept
  rw [and_iff_left hupper]
  cases hval : i.masterRValidI
  · -- no answer: the register may change by writes only, and nothing must be echoed
    refine iff_of_true ?_ ?_
    · rw [sbdata_quiet hact hval]
      intro hne
      split_ifs at hne with h0 h1
      · exact Or.inl h0
      · exact Or.inr (Or.inl h1)
      · exact absurd rfl hne
    · intro hcompl
      unfold completesWrite at hcompl
      rw [hval, Bool.and_false] at hcompl
      cases hcompl
  · -- an answer: of a read, which may change it, or of a write, which must not
    have hwait : waits s = true := waits_of_answer hv hval
    have hb := busy_of_waits hwait
    have hwr : ∀ c, writesSb s i c = false := fun c => overwritesSb_busy c hb
    unfold Echoes
    rw [sbdata_busy hact hb, hval, if_pos rfl, hwr, hwr]
    rcases completes_cases hval hwait with hr | ⟨hr, hw⟩
    · refine iff_of_true (fun _ => Or.inr (Or.inr hr)) ?_
      intro hcompl
      unfold completesRead at hr
      unfold completesWrite at hcompl
      rw [Bool.and_eq_true, beq_iff_eq] at hr hcompl
      rw [hr.1] at hcompl
      cases hcompl.1
    · rw [hr, hw]
      simp

end Cycle

/-! ## Whole runs -/

/-- **The data register keeps what the debugger wrote, exactly.**  Along every run from reset, and in
    all cycles in which the module is active: the register changes by writes of the debugger and by
    answers of reads only, and writes go out with the upper half that was written, if and only if every
    answer of a write shows what is in the register. -/
theorem data_kept_iff (p : BitVec n) (is : List (Input n w))
    (hbus : Always (watched (next p) owes) Behaves (0, reset) is) :
    Always (watched (next p) seeUpper)
      (fun c i => dmactiveO c.2 = true → DataKept p c.1 c.2 i) (none, reset) is ↔
    Always (next p) (fun s i => dmactiveO s = true → Echoes s i) reset is := by
  -- both histories are watched in one run: what the bus owes, and the upper half
  rw [← always_watched (next p) seeUpper (fun s i => dmactiveO s = true → Echoes s i) is
      (none, reset),
    ← always_both_snd (next p) owes seeUpper
      (fun c i => dmactiveO c.2 = true → DataKept p c.1 c.2 i) is 0 none reset,
    ← always_both_snd (next p) owes seeUpper
      (fun c i => dmactiveO c.2 = true → Echoes c.2 i) is 0 none reset]
  have hstart : Owed (0, (reset : State n)) := rfl
  refine always_iff_of_step
    (fun c => (Inv w c.2 ∧ Owed (c.1.1, c.2)) ∧ UpperKept c.1.2 c.2)
    (fun c i => Behaves (c.1.1, c.2) i) ?_ ?_ is ((0, none), reset) ⟨⟨inv_reset, hstart⟩, ?_⟩
    ((always_both_fst (next p) owes seeUpper Behaves is 0 none reset).mpr hbus)
  · rintro ⟨⟨k, g⟩, s⟩ i ⟨⟨hinv, ho⟩, hg⟩ hb hecho
    exact ⟨⟨inv_next hinv, owed_next hinv ho hb⟩,
      upperKept_next hg (silent_of_owed ho hb) hecho⟩
  · rintro ⟨⟨k, g⟩, s⟩ i ⟨⟨hinv, ho⟩, hg⟩ hb
    exact imp_congr_right fun hact => dataKept_iff hg hact (silent_of_owed ho hb)
  · intro v hsome
    cases hsome

/-- The debugger writes 5 to the data register and so to the bus, which shows 7 with its answer. -/
def answered : List (Input 1 32) :=
  [dmiWrite 0x10 1, dmiWrite 0x3c 5, { masterGntI := true },
    { masterRValidI := true, masterRRdataI := 7 }]

theorem data_kept_iff_answered :
    Always (watched (next 1) seeUpper)
      (fun c i => dmactiveO c.2 = true → DataKept 1 c.1 c.2 i) (none, reset) answered ↔
    Always (next 1) (fun s i => dmactiveO s = true → Echoes s i) reset answered :=
  data_kept_iff 1 answered (by decide)

/-- The data register is 7 now. -/
theorem data_overwritten :
    Always (watched (next 1) (owes (w := 32))) Behaves (0, reset) answered ∧
      ¬ Always (watched (next 1) seeUpper)
        (fun c i => dmactiveO c.2 = true → DataKept 1 c.1 c.2 i) (none, reset) answered := by
  refine ⟨by decide, ?_⟩
  rintro ⟨-, -, -, h, -⟩
  exact absurd (h (by decide)).1 (by decide)

end RiscDbgUart.SystemBus
