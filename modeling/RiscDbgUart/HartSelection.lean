/-
  Which hart a selection and a `DMControl` write are about.

  `hartsel` has twenty bits, and the module keeps as many of them as it has harts.  What is left over
  is a hart's number again, and all that is read and driven for the selection is read and driven for
  that hart: its request lines, and the states in `dmstatus`, which are reported next to
  `allnonexistent`.  So a selection is as it should be exactly if it is in range.

  A write to `DMControl` names a hart and says what to do with it.  `haltreq` and `resumereq` are
  stored with the name and go to that hart.  `ackhavereset` and the acknowledge of the last resume are
  dealt with in the cycle of the write, where the selection is still the old one.

  Both halves are arithmetic on one number, the low bits of the selection, as many as the numbers of the
  harts take (`DmRegs.selectHart`).  `selectionSafe_iff` compares the states reported for it with those of the
  hart that was named.  `actsOn_iff` compares, for a write, the bits of every hart behind it with the bits
  that the named hart alone should move; `cleared_elsewhere` is the case in which the wrong bit is
  cleared and it makes no difference.
-/
import RiscDbgUart.CommandRequests
import RiscDbgUart.HartFlags

set_option linter.unusedVariables false

namespace RiscDbgUart

open Clocked

variable {n w : Nat}

namespace DmRegs

/-! ## The selected hart -/

/-- `dmstatus.allnonexistent` -/
def allnonexistent (r : Regs n) (i : Input n w) : Bool := (dmstatus r i).getLsbD 15
/-- `dmstatus.allunavail` -/
def allunavail (r : Regs n) (i : Input n w) : Bool := (dmstatus r i).getLsbD 13
/-- `dmstatus.allrunning` -/
def allrunning (r : Regs n) (i : Input n w) : Bool := (dmstatus r i).getLsbD 11
/-- `dmstatus.allhalted` -/
def allhalted (r : Regs n) (i : Input n w) : Bool := (dmstatus r i).getLsbD 9

/-- The requests go to the hart that is selected, and to no hart if there is none of that number; then
    `dmstatus` says so, and nothing else about a state. -/
def SelectionSafe (r : Regs n) (i : Input n w) : Prop :=
  (∀ k < n, (haltreqO r).getLsbD k = true → k = (hartselO r).toNat ∧ r.dmcontrol.haltreq = true) ∧
  (∀ k < n, (resumereqO r).getLsbD k = true →
    k = (hartselO r).toNat ∧ r.dmcontrol.resumereq = true) ∧
  (n ≤ (hartselO r).toNat →
    haltreqO r = 0 ∧ resumereqO r = 0 ∧ allnonexistent r i = true ∧ allhalted r i = false ∧
      allrunning r i = false ∧ allunavail r i = false)

instance (r : Regs n) (i : Input n w) : Decidable (SelectionSafe r i) := by
  unfold SelectionSafe; infer_instance

theorem allunavail_eq (r : Regs n) (i : Input n w) :
    allunavail r i = i.unavailableI.getLsbD (selectedHart r) := by
  unfold allunavail dmstatus
  simp only [BitVec.getLsbD_append]
  simp

theorem allrunning_eq (r : Regs n) (i : Input n w) :
    allrunning r i
      = (!i.haltedI.getLsbD (selectedHart r) && !i.unavailableI.getLsbD (selectedHart r)) := by
  unfold allrunning dmstatus
  simp only [BitVec.getLsbD_append]
  simp

theorem allhalted_eq (r : Regs n) (i : Input n w) :
    allhalted r i
      = (i.haltedI.getLsbD (selectedHart r) && !i.unavailableI.getLsbD (selectedHart r)) := by
  unfold allhalted dmstatus
  simp only [BitVec.getLsbD_append]
  simp

/-- Whatever is selected is reported to be halted, running or unavailable, also when there is no such
    hart. -/
theorem state_reported (r : Regs n) (i : Input n w) :
    ¬ (allhalted r i = false ∧ allrunning r i = false ∧ allunavail r i = false) := by
  rw [allhalted_eq, allrunning_eq, allunavail_eq]
  cases i.haltedI.getLsbD (selectedHart r) <;> cases i.unavailableI.getLsbD (selectedHart r) <;>
    decide

/-- A selection in range is kept whole. -/
theorem selectedHart_of_lt {r : Regs n} (h : (hartselO r).toNat < n) :
    selectedHart r = (hartselO r).toNat :=
  Nat.mod_eq_of_lt (lt_two_pow_hartSelLen h)

/-- A request line that is up is the selected hart's, and the bit of the register is set. -/
theorem setBit_line {r : Regs n} {b : Bool} {k : Nat} (hk : k < n)
    (h : (if selectedHart r ≤ (n - 1) % 2 ^ hartSelLen n then setBit (0 : BitVec n) (selectedHart r) b
      else 0).getLsbD k = true) : k = selectedHart r ∧ b = true := by
  split_ifs at h
  · rw [setBit_getLsbD _ _ _ _ hk] at h
    split_ifs at h with hsel
    · exact ⟨hsel, h⟩
    · simp at h
  · simp at h

/-- **In range, and only there.**  Out of range the truncated index names another hart, or none, and what
    is reported is wrong either way. -/
theorem selectionSafe_iff (r : Regs n) (i : Input n w) :
    SelectionSafe r i ↔ (hartselO r).toNat < n := by
  constructor
  · rintro ⟨-, -, hnone⟩
    by_contra hge
    obtain ⟨-, -, -, hstate⟩ := hnone (by omega)
    exact state_reported r i hstate
  · intro hlt
    have hsel := selectedHart_of_lt hlt
    refine ⟨?_, ?_, ?_⟩
    · intro k hk hreq
      rw [← hsel]
      exact setBit_line hk hreq
    · intro k hk hreq
      rw [← hsel]
      exact setBit_line hk hreq
    · intro hge
      omega

/-- **A selection touches the hart it names, exactly.**  Along every run from reset the request lines
    and `dmstatus` respect every selection if and only if every selection is in range. -/
theorem selections_safe_iff (selectableHarts : BitVec n) (is : List (Input n w)) :
    Always (next selectableHarts) (fun s i => SelectionSafe s.regs i) reset is ↔
      Always (next selectableHarts) (fun s i => (hartselO s.regs).toNat < n) reset is :=
  always_congr (fun _ => True) (fun _ _ _ => trivial) (fun s i _ => selectionSafe_iff s.regs i) is
    reset trivial

/-- The registers' inputs with a DMI write to `DMControl`, and none. -/
def dmControlWrite (x : BitVec 32) : Input 1 32 :=
  { dmiReqValidI := true, dmiReqI := ⟨0x10, DTM_WRITE, x⟩, dmiRespReadyI := true, hartinfoI := 0
    haltedI := 0, unavailableI := 0, resumeackI := 0, cmderrorValidI := false, cmderrorI := 0
    cmdbusyI := false, dataI := 0, dataValidI := false, sbaddressI := 0, sbdataI := 0
    sbdataValidI := false, sbbusyI := false, sberrorValidI := false, sberrorI := 0 }

/-- A lone hart: a halt request for hart 2 raises the line of hart 0, and hart 2 is reported to be
    nonexistent and running. -/
theorem nonexistent_selected : ¬ Always (next 1) (fun s i => SelectionSafe s.regs i) reset
    [dmControlWrite 1, dmControlWrite 0x80020001, dmControlWrite 0x80020001] := by
  decide

end DmRegs

namespace DebugModule

open DmMem (Params Access CtrlState)

/-! ## The hart a write names -/

/-- `hartsel` of a word written to `DMControl`. -/
def namedHart (x : BitVec 32) : Nat :=
  ((DmControl.ofWord x).hartselhi ++ (DmControl.ofWord x).hartsello).toNat

/-- An access accepted in this cycle writes `DMControl`. -/
def writesDmControl (p : Params n) (s : State n) (i : Input n w) : Bool :=
  DmRegs.writesDmControl s.csrs (csrsIn p s i)

/-- The write names an existing hart, and the module is neither inactive nor resetting the system. -/
def names (p : Params n) (s : State n) (i : Input n w) : Prop :=
  dmactiveO s = true ∧ DmRegs.ndmresetO s.csrs.regs = false ∧ writesDmControl p s i = true ∧
    namedHart i.dmiReqI.data < n

/-- Hart `k` stores to `RESUMING` in this cycle. -/
def resumes (i : Input n w) (k : Nat) : Bool :=
  i.busI.storesTo DmMem.ResumingAddr && selectHart n i.busI.wdataI == k

/-- The write raises `resumereq`. -/
def raisesResumereq (p : Params n) (s : State n) (i : Input n w) : Prop :=
  s.csrs.regs.dmcontrol.resumereq = false ∧ (next p s i).csrs.regs.dmcontrol.resumereq = true

/-- What the write does to hart `h` it does to no other hart: `ackhavereset` clears its `havereset`, and
    a new resume request its `resuming`, except for a hart that resumes in this very cycle. -/
def ActsOn (h : Nat) (p : Params n) (s : State n) (i : Input n w) : Prop :=
  ((DmControl.ofWord i.dmiReqI.data).ackhavereset = true →
    ∀ k < n, (next p s i).csrs.regs.havereset.getLsbD k
      = (k != h && s.csrs.regs.havereset.getLsbD k)) ∧
  (raisesResumereq p s i →
    ∀ k < n, (next p s i).mem.resuming.getLsbD k
      = (resumes i k || (k != h && s.mem.resuming.getLsbD k)))

/-- The hart selected before the write is `h` too; or there is nothing to clear for either of them. -/
def NothingElse (h : Nat) (p : Params n) (s : State n) (i : Input n w) : Prop :=
  let old := DmRegs.selectedHart s.csrs.regs
  old = h ∨
    (((DmControl.ofWord i.dmiReqI.data).ackhavereset = true →
      s.csrs.regs.havereset.getLsbD old = false ∧ s.csrs.regs.havereset.getLsbD h = false) ∧
    (s.csrs.regs.dmcontrol.resumereq = false ∧
        (DmControl.ofWord i.dmiReqI.data).resumereq = true →
      (s.mem.resuming.getLsbD old = false ∨ resumes i old = true) ∧
        (s.mem.resuming.getLsbD h = false ∨ resumes i h = true)))

instance (h : Nat) (p : Params n) (s : State n) (i : Input n w) : Decidable (ActsOn h p s i) := by
  unfold ActsOn raisesResumereq; infer_instance

instance (p : Params n) (s : State n) (i : Input n w) : Decidable (names p s i) := by
  unfold names; infer_instance

/-! ## The cycle of the write -/

section Cycle

variable {p : Params n} {s : State n} {i : Input n w}

/-- The `havereset` bits of an active module whose harts can all be selected. -/
theorem havereset_next (hall : p.selectableHarts = BitVec.allOnes n) (hact : dmactiveO s = true) :
    (next p s i).csrs.regs.havereset
      = (DmRegs.csrReadWrite s.csrs (csrsIn p s i)).d.havereset := by
  rw [regs_next p i hact, hall]
  exact BitVec.allOnes_and

/-- `ackhavereset` clears the bit of the hart selected before, since the selection is a register that the
    same write changes. -/
theorem havereset_named (hall : p.selectableHarts = BitVec.allOnes n) (hn : names p s i)
    (hack : (DmControl.ofWord i.dmiReqI.data).ackhavereset = true) {k : Nat} (hk : k < n) :
    (next p s i).csrs.regs.havereset.getLsbD k
      = (k != DmRegs.selectedHart s.csrs.regs && s.csrs.regs.havereset.getLsbD k) := by
  obtain ⟨hact, hnd, hwr, -⟩ := hn
  have hwr' : DmRegs.writesDmControl s.csrs (csrsIn p s i) = true := hwr
  have hack' : (DmControl.ofWord (csrsIn p s i).dmiReqI.data).ackhavereset = true := hack
  rw [havereset_next hall hact, DmRegs.havereset_d, hnd, hwr', hack']
  exact setBit_false _ _ hk

/-- The write raises `resumereq` if it sets it and it was not set. -/
theorem raisesResumereq_iff (hn : names p s i) :
    raisesResumereq p s i ↔ s.csrs.regs.dmcontrol.resumereq = false ∧
      (DmControl.ofWord i.dmiReqI.data).resumereq = true := by
  obtain ⟨hact, -, hwr, -⟩ := hn
  have hwr' : (DmRegs.writes s.csrs (csrsIn p s i) &&
      DmRegs.dmCsrAddr (csrsIn p s i) == .dmControl) = true := hwr
  unfold raisesResumereq
  refine and_congr_right fun hlow => ?_
  rw [regs_next p i hact, DmRegs.dmcontrol_d, if_pos hwr']
  unfold DmRegs.dmcontrolOverrides
  simp only [hlow, Bool.false_and, Bool.not_false, Bool.and_true]
  exact Iff.rfl

/-- A new resume request clears the bit of the hart selected before, and a store sets its own. -/
theorem resuming_named (hall : p.selectableHarts = BitVec.allOnes n) (hn : names p s i)
    (hraise : raisesResumereq p s i) {k : Nat} (hk : k < n) :
    (next p s i).mem.resuming.getLsbD k
      = (resumes i k || (k != DmRegs.selectedHart s.csrs.regs && s.mem.resuming.getLsbD k)) := by
  obtain ⟨hlow, hset⟩ := (raisesResumereq_iff hn).mp hraise
  obtain ⟨-, -, hwr, -⟩ := hn
  -- the debug module asks for the clearing in the cycle of the write
  have hclear : (memIn p s i).clearResumeackI = true := by
    have hwr' : DmRegs.writesDmControl s.csrs (csrsIn p s i) = true := hwr
    have hset' : (DmControl.ofWord (csrsIn p s i).dmiReqI.data).resumereq = true := hset
    show (DmRegs.csrReadWrite s.csrs (csrsIn p s i)).clearResumeackO = true
    rw [DmRegs.clearResumeackO_eq, hlow, hwr', hset']
    rfl
  have hnext : (next p s i).mem.resuming = p.selectableHarts &&& DmMem.resumingD s.mem (memIn p s i)
    := rfl
  -- the hart selected before indexes it: the write is not in the register yet
  have hsel : DmMem.hartsel (memIn p s i) = DmRegs.selectedHart s.csrs.regs := rfl
  have hst : (memIn p s i).busI = i.busI := rfl
  have hid : DmMem.wdataHartsel (memIn p s i) = selectHart n i.busI.wdataI := rfl
  rw [hnext, hall, BitVec.allOnes_and]
  unfold DmMem.resumingD resumes
  rw [hclear, hsel, hst, hid, if_pos rfl]
  cases i.busI.storesTo DmMem.ResumingAddr
  · exact setBit_false _ _ hk
  · rw [if_pos rfl, setBit_true _ _ hk, setBit_false _ _ hk, Bool.true_and]

/-- What is set anyway does not miss a bit that is clear. -/
theorem or_eq_iff (x y : Bool) : (x || false) = (x || y) ↔ y = false ∨ x = true := by
  cases x <;> cases y <;> decide

/-- A bit cleared at one place is cleared at another: they are the same, or both were clear. -/
theorem cleared_elsewhere {b stored : Nat → Bool} {old h : Nat} (hh : h < n)
    (hb : n ≤ old → b old = false) :
    (∀ k < n, (stored k || (k != old && b k)) = (stored k || (k != h && b k))) ↔
      old = h ∨ ((b old = false ∨ stored old = true) ∧ (b h = false ∨ stored h = true)) := by
  constructor
  · -- at `old` and at `h` the two sides clear different bits
    intro heq
    by_cases hsame : old = h
    · exact Or.inl hsame
    · refine Or.inr ⟨?_, ?_⟩
      · by_cases hold : old < n
        · have hat := heq old hold
          rw [bne_self_eq_false, Bool.false_and, bne_iff_ne.mpr hsame, Bool.true_and] at hat
          exact (or_eq_iff _ _).mp hat
        · exact Or.inl (hb (by omega))
      · have hat := heq h hh
        rw [bne_self_eq_false, Bool.false_and, bne_iff_ne.mpr (Ne.symm hsame), Bool.true_and] at hat
        exact (or_eq_iff _ _).mp hat.symm
  · rintro (rfl | ⟨hold, hnew⟩)
    · intro k hk
      rfl
    · intro k hk
      -- a bit that is clear, or set by its own store, is the same on both sides
      by_cases h1 : k = old
      · subst h1
        rcases hold with h0 | h0 <;> simp [h0]
      · by_cases h2 : k = h
        · subst h2
          rcases hnew with h0 | h0 <;> simp [h0]
        · rw [bne_iff_ne.mpr h1, bne_iff_ne.mpr h2]

/-- There is no bit beyond the harts. -/
theorem selected_beyond (v : BitVec n) (s : State n) (h : n ≤ DmRegs.selectedHart s.csrs.regs) :
    v.getLsbD (DmRegs.selectedHart s.csrs.regs) = false :=
  BitVec.getLsbD_of_ge v _ h

/-- The acknowledge reaches the named hart and no other, exactly when that hart was selected before, or
    neither had a bit to clear. -/
theorem acknowledged_iff (hall : p.selectableHarts = BitVec.allOnes n) (hn : names p s i)
    (hset : (DmControl.ofWord i.dmiReqI.data).ackhavereset = true) :
    (∀ k < n, (next p s i).csrs.regs.havereset.getLsbD k
      = (k != namedHart i.dmiReqI.data && s.csrs.regs.havereset.getLsbD k)) ↔
    DmRegs.selectedHart s.csrs.regs = namedHart i.dmiReqI.data ∨
      (s.csrs.regs.havereset.getLsbD (DmRegs.selectedHart s.csrs.regs) = false ∧
        s.csrs.regs.havereset.getLsbD (namedHart i.dmiReqI.data) = false) := by
  -- nothing sets a bit here
  have hiff := @cleared_elsewhere n s.csrs.regs.havereset.getLsbD (fun _ => false) _ _ hn.2.2.2
    (selected_beyond s.csrs.regs.havereset s)
  simp only [Bool.false_or, Bool.false_eq_true, or_false] at hiff
  rw [← hiff]
  refine forall₂_congr fun k hk => ?_
  rw [havereset_named hall hn hset hk]

/-- The resume request reaches the named hart and no other, under the same conditions with the `resuming`
    bits, which a hart may also set in this very cycle. -/
theorem resumed_iff (hall : p.selectableHarts = BitVec.allOnes n) (hn : names p s i)
    (hraise : raisesResumereq p s i) :
    (∀ k < n, (next p s i).mem.resuming.getLsbD k
      = (resumes i k || (k != namedHart i.dmiReqI.data && s.mem.resuming.getLsbD k))) ↔
    DmRegs.selectedHart s.csrs.regs = namedHart i.dmiReqI.data ∨
      ((s.mem.resuming.getLsbD (DmRegs.selectedHart s.csrs.regs) = false ∨
          resumes i (DmRegs.selectedHart s.csrs.regs) = true) ∧
        (s.mem.resuming.getLsbD (namedHart i.dmiReqI.data) = false ∨
          resumes i (namedHart i.dmiReqI.data) = true)) := by
  rw [← cleared_elsewhere hn.2.2.2 (selected_beyond s.mem.resuming s)]
  refine forall₂_congr fun k hk => ?_
  rw [resuming_named hall hn hraise hk]

/-- **The named hart and no other, exactly.**  The two halves of it are about the two bits that clear
    something. -/
theorem actsOn_iff (hall : p.selectableHarts = BitVec.allOnes n) (hn : names p s i) :
    ActsOn (namedHart i.dmiReqI.data) p s i ↔ NothingElse (namedHart i.dmiReqI.data) p s i := by
  unfold ActsOn NothingElse
  rw [imp_congr_right (acknowledged_iff hall hn), imp_congr_right (resumed_iff hall hn),
    raisesResumereq_iff hn]
  by_cases hsame : DmRegs.selectedHart s.csrs.regs = namedHart i.dmiReqI.data
  · simp [hsame]
  · simp [hsame]

end Cycle

/-! ## Whole runs -/

/-- **A write acts on the hart it names, exactly.**  Along every run from reset each write to
    `DMControl` acknowledges the reset and clears the resume acknowledge of the hart it names and of
    no other, if and only if each finds that hart selected already or nothing to clear. -/
theorem writes_act_on_named_iff (p : Params n) (hall : p.selectableHarts = BitVec.allOnes n)
    (romAddr : Nat) (is : List (Input n w)) :
    Always (next p) (fun s i => names p s i → ActsOn (namedHart i.dmiReqI.data) p s i)
      (reset romAddr) is ↔
    Always (next p) (fun s i => names p s i → NothingElse (namedHart i.dmiReqI.data) p s i)
      (reset romAddr) is := by
  refine always_congr (fun _ => True) (fun _ _ _ => trivial) ?_ is (reset romAddr) trivial
  intro s i _
  exact imp_congr_right fun hn => actsOn_iff hall hn

/-- Two harts behind a 32-bit bus. -/
def twoHarts : Params 2 := { selectableHarts := 3, dmBaseAddress := 0 }

/-- A DMI write to `DMControl` of two harts. -/
def dmControlWrite (data : BitVec 32) : Input 2 32 :=
  { dmiReqValidI := true, dmiReqI := ⟨0x10, DTM_WRITE, data⟩ }

/-- A store of one of two harts. -/
def hartStores (addr data : BitVec 32) : Input 2 32 :=
  { busI := { reqI := true, weI := true, addrI := addr, wdataI := data, beI := 15 } }

theorem writes_act_on_named_iff_two_harts :
    Always (next twoHarts)
      (fun s i => names twoHarts s i → ActsOn (namedHart i.dmiReqI.data) twoHarts s i)
      (reset 0) [dmControlWrite 1, dmControlWrite 0x10000001] ↔
    Always (next twoHarts)
      (fun s i => names twoHarts s i → NothingElse (namedHart i.dmiReqI.data) twoHarts s i)
      (reset 0) [dmControlWrite 1, dmControlWrite 0x10000001] :=
  writes_act_on_named_iff twoHarts (by decide) 0 [dmControlWrite 1, dmControlWrite 0x10000001]

/-- Hart 0 is selected, and a write selects hart 1 and acknowledges its reset: `havereset` of hart 0 is
    cleared. -/
theorem other_hart_acknowledged : ¬ Always (next twoHarts)
    (fun s i => names twoHarts s i → ActsOn (namedHart i.dmiReqI.data) twoHarts s i) (reset 0)
    [dmControlWrite 1, dmControlWrite 0x10010001] := by
  decide

end DebugModule

end RiscDbgUart
