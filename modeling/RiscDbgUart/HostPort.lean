/-
  The protocol of the host's port.

  A request stays on the port, with the same address, write enable, byte enables and write data, until
  the bus grants it.  The state machine holds it, and it knows nothing of `dmactive`; but what goes with
  it comes from the registers, and these are cleared in every cycle in which `dmactive` is low.  So a
  debugger that takes `dmactive` away while the bus has not granted a request leaves the request there
  and changes it under the bus.  The same happens the other way round: an inactive module can be made to
  start a transfer, of one byte at address zero, and when it is activated the access size is wired to
  the width of the bus.

  The byte enables are the only output that does not come straight from a register.  `masterBeO_eq` gives
  them as a mask of access size and address, and `byte_ne_full`, `beMask_full_iff` and `beMask_lowest_iff`
  say when two of these masks are the same.
-/
import RiscDbgUart.SystemBus

set_option linter.unusedVariables false

namespace RiscDbgUart.SystemBus

open Clocked
open DmSba (SbaState)

variable {n w : Nat}

/-! ## Held requests -/

/-- A request that is not granted is there in the next cycle as it was. -/
def Held (w : Nat) (readByteEnable : Bool) (p : BitVec n) (s : State n) (i : Input n w) : Prop :=
  masterReqO w s = true → i.masterGntI = false →
    masterReqO w (next p s i) = true ∧ masterAddO w (next p s i) = masterAddO w s ∧
      masterWeO (next p s i) = masterWeO s ∧
      masterBeO w readByteEnable (next p s i) = masterBeO w readByteEnable s ∧
      (masterWeO s = true → masterWdataO w (next p s i) = masterWdataO w s)

/-- The byte enables of the request come from the access size. -/
def drivesBe (readByteEnable : Bool) (s : State n) : Bool := readByteEnable || masterWeO s

/-- The registers of the request are those of the next cycle too: the module is active and the access
    size is wired, or it is inactive and they are clear. -/
def Steady (w : Nat) (readByteEnable : Bool) (s : State n) : Prop :=
  if dmactiveO s then
    drivesBe readByteEnable s = true → s.csrs.regs.sbcs.sbaccess = busSize w
  else
    masterAddO w s = 0 ∧ (masterWeO s = true → masterWdataO w s = 0) ∧
      (drivesBe readByteEnable s = true → s.csrs.regs.sbcs.sbaccess = 0)

instance (w : Nat) (b : Bool) (p : BitVec n) (s : State n) (i : Input n w) :
    Decidable (Held w b p s i) := by
  unfold Held; infer_instance

section Cycle

variable {p : BitVec n} {s : State n} {i : Input n w} {b : Bool}

/-! ## Byte enables -/

/-- One byte is not the whole bus, so a size that enables a single byte is told from the wired one. -/
theorem byte_ne_full {k : Nat} (hk : 2 ≤ k) (j : Nat) :
    setBit (0 : BitVec k) j true ≠ BitVec.allOnes k := by
  intro heq
  have hbit : ∀ m < k, m = j := by
    intro m hm
    have hm1 : (setBit (0 : BitVec k) j true).getLsbD m = true := by
      rw [heq, BitVec.getLsbD_allOnes]
      exact decide_eq_true hm
    rw [setBit_getLsbD _ _ _ _ hm] at hm1
    split_ifs at hm1 with h
    · exact h
    · simp at hm1
  have h0 := hbit 0 (by omega)
  have h1 := hbit 1 (by omega)
  omega

/-- The byte enables of a request: those of the access size, if they are driven. -/
theorem masterBeO_eq (h : Inv w s) (hreq : masterReqO w s = true) :
    masterBeO w b s = if drivesBe b s then DmSba.beMask (portIn w s) else 0 := by
  unfold masterBeO DmSba.masterBeO drivesBe masterWeO DmSba.masterWeO
  rcases (requests_iff h).mp hreq with hs | hs
  · rw [hs]
    cases b <;> rfl
  · rw [hs]
    cases b <;> rfl

theorem beMask_bus (hw : w = 32 ∨ w = 64) (hsize : s.csrs.regs.sbcs.sbaccess = busSize w) :
    DmSba.beMask (portIn w s) = BitVec.allOnes (w / 8) :=
  DmSba.beMask_full hw hsize

theorem beMask_reset (hsize : s.csrs.regs.sbcs.sbaccess = 0) :
    DmSba.beMask (portIn w s) = setBit 0 (DmSba.beIdx (portIn w s)) true :=
  DmSba.beMask_byte hsize

/-! ## One cycle -/

/-- What the port shows next while the module is active: the same request, but with all bytes enabled, as the
    size is wired. -/
theorem held_active (hw : w = 32 ∨ w = 64) (h : Inv w s) (hact : dmactiveO s = true)
    (hreq : masterReqO w s = true) (hgnt : i.masterGntI = false) (hv : i.masterRValidI = false) :
    masterAddO w (next p s i) = masterAddO w s ∧ masterWdataO w (next p s i) = masterWdataO w s ∧
      DmSba.beMask (portIn w (next p s i)) = BitVec.allOnes (w / 8) := by
  obtain ⟨hadd, hdata⟩ := registers_held (p := p) (by omega) h hact hreq hv
  refine ⟨hadd, ?_, beMask_bus hw (sbaccess_active hact)⟩
  show sbdata w (next p s i).csrs.regs = sbdata w s.csrs.regs
  unfold sbdata
  rw [hdata]

/-- What the port shows next while it is inactive: the registers are clear. -/
theorem held_inactive (hact : dmactiveO s = false) :
    masterAddO w (next p s i) = 0 ∧ masterWdataO w (next p s i) = 0 ∧
      DmSba.beMask (portIn w (next p s i)) = setBit 0 0 true := by
  have hregs := regs_inactive p i hact
  have hadd : sbaddress w (next p s i).csrs.regs = 0 := by
    rw [hregs]
    exact BitVec.setWidth_zero _ _
  refine ⟨hadd, ?_, ?_⟩
  · show sbdata w (next p s i).csrs.regs = 0
    rw [hregs]
    exact BitVec.setWidth_zero _ _
  · have hsize : (next p s i).csrs.regs.sbcs.sbaccess = 0 := by
      rw [hregs]
      rfl
    have hidx : DmSba.beIdx (portIn w (next p s i)) = 0 := by
      show (sbaddress w (next p s i).csrs.regs).toNat % _ = 0
      rw [hadd]
      exact Nat.zero_mod _
    rw [beMask_reset hsize, hidx]

/-- All bytes are enabled exactly if the access size is wired. -/
theorem beMask_full_iff (hw : w = 32 ∨ w = 64) (h : Inv w s) :
    BitVec.allOnes (w / 8) = DmSba.beMask (portIn w s) ↔
      s.csrs.regs.sbcs.sbaccess = busSize w := by
  constructor
  · intro heq
    rcases h.sbaccess with hsize | hsize
    · exact hsize
    · rw [beMask_reset hsize] at heq
      exact absurd heq.symm (byte_ne_full (by omega) _)
  · intro hsize
    rw [beMask_bus hw hsize]

/-- At address zero the lowest byte is enabled exactly if the access size is the one after a reset. -/
theorem beMask_lowest_iff (hw : w = 32 ∨ w = 64) (h : Inv w s) (hadd : masterAddO w s = 0) :
    setBit 0 0 true = DmSba.beMask (portIn w s) ↔ s.csrs.regs.sbcs.sbaccess = 0 := by
  constructor
  · intro heq
    rcases h.sbaccess with hsize | hsize
    · rw [beMask_bus hw hsize] at heq
      exact absurd heq (byte_ne_full (by omega) _)
    · exact hsize
  · intro hsize
    have hidx : DmSba.beIdx (portIn w s) = 0 := by
      show (masterAddO w s).toNat % _ = 0
      rw [hadd]
      exact Nat.zero_mod _
    rw [beMask_reset hsize, hidx]

/-- Byte enables that are not driven do not change, whatever the mask behind them does. -/
theorem driven_iff {k : Nat} (d : Bool) (x y : BitVec k) :
    (if d then x else 0) = (if d then y else 0) ↔ (d = true → x = y) := by
  cases d
  · simp
  · simp

/-- **One cycle.**  The port is held exactly if a request that is not granted meets a steady cycle. -/
theorem held_iff (hw : w = 32 ∨ w = 64) (h : Inv w s)
    (hv : waits s = false → i.masterRValidI = false) :
    Held w b p s i ↔
      (masterReqO w s = true → i.masterGntI = false → Steady w b s) := by
  refine imp_congr_right fun hreq => imp_congr_right fun hgnt => ?_
  have hnext := inv_next (p := p) (i := i) h
  have hreq' : masterReqO w (next p s i) = true := masterReqO_held h hreq hgnt
  have hwe : masterWeO (next p s i) = masterWeO s := by
    unfold masterWeO
    rw [sba_held h hreq hgnt]
  have hdrives : drivesBe b (next p s i) = drivesBe b s := by
    unfold drivesBe
    rw [hwe]
  rw [masterBeO_eq h hreq, masterBeO_eq hnext hreq', hdrives, driven_iff]
  unfold Steady
  cases hact : dmactiveO s
  · -- inactive: address, data and size are cleared, so they were held if they were zero
    obtain ⟨hadd, hdata, hbe⟩ := held_inactive (p := p) (i := i) hact
    rw [hadd, hdata, hbe, if_neg Bool.false_ne_true]
    constructor
    · rintro ⟨-, hzero, -, hmask, hword⟩
      refine ⟨hzero.symm, fun hwr => (hword hwr).symm, ?_⟩
      intro hd
      exact (beMask_lowest_iff hw h hzero.symm).mp (hmask hd)
    · rintro ⟨hzero, hword, hsize⟩
      refine ⟨hreq', hzero.symm, hwe, ?_, fun hwr => (hword hwr).symm⟩
      intro hd
      exact (beMask_lowest_iff hw h hzero).mpr (hsize hd)
  · -- active: the address is held, and the mask is that of the size
    obtain ⟨hadd, hdata, hbe⟩ :=
      held_active (p := p) hw h hact hreq hgnt (hv (waits_of_request h hreq))
    rw [hadd, hdata, hbe, if_pos rfl]
    constructor
    · rintro ⟨-, -, -, hmask, -⟩ hd
      exact (beMask_full_iff hw h).mp (hmask hd)
    · intro hsize
      refine ⟨hreq', rfl, hwe, ?_, fun _ => rfl⟩
      intro hd
      exact (beMask_full_iff hw h).mpr (hsize hd)

end Cycle

/-! ## Whole runs -/

/-- **The port honours its protocol, exactly.**  Along every run from reset, whatever the DMI requests
    and however long the bus takes, every request that is not granted is held if and only if the
    registers behind each such request are steady. -/
theorem port_held_iff (hw : w = 32 ∨ w = 64) (readByteEnable : Bool) (p : BitVec n)
    (is : List (Input n w)) (hbus : Always (watched (next p) owes) Behaves (0, reset) is) :
    Always (next p) (Held w readByteEnable p) reset is ↔
      Always (next p)
        (fun s i => masterReqO w s = true → i.masterGntI = false → Steady w readByteEnable s)
        reset is := by
  rw [← always_watched (next p) owes (Held w readByteEnable p) is (0, reset),
    ← always_watched (next p) owes
      (fun s i => masterReqO w s = true → i.masterGntI = false → Steady w readByteEnable s) is
      (0, reset)]
  refine always_iff_of_step (fun c => Inv w c.2 ∧ Owed c) Behaves ?_ ?_ is (0, reset)
    ⟨inv_reset, rfl⟩ hbus
  · rintro c i ⟨hinv, ho⟩ hb -
    exact ⟨inv_next hinv, owed_next hinv ho hb⟩
  · rintro c i ⟨hinv, ho⟩ hb
    exact held_iff hw hinv (silent_of_owed ho hb)

/-- The debugger starts a write and takes `dmactive` away while the bus has not granted it. -/
def deactivated : List (Input 1 32) :=
  [dmiWrite 0x10 1, dmiWrite 0x39 0x100, dmiWrite 0x3c 5, dmiWrite 0x10 0, {}]

theorem port_held_iff_deactivated :
    Always (next 1) (Held 32 true 1) reset deactivated ↔
      Always (next 1)
        (fun s i => masterReqO 32 s = true → i.masterGntI = false → Steady 32 true s) reset
        deactivated :=
  port_held_iff (Or.inl rfl) true 1 deactivated (by decide)

/-- The write of 5 to address 0x100 becomes a write of 0 to address 0. -/
theorem request_changed :
    Always (watched (next 1) (owes (w := 32))) Behaves (0, reset) deactivated ∧
      ¬ Always (next 1) (Held 32 true 1) reset deactivated := by
  decide

end RiscDbgUart.SystemBus
