/-
  The debug module over a reset of the system.

  `ndmreset` resets everything but the debug module: the harts are forced out of debug mode and start
  over.  The registers see it, they set `havereset` for every hart.  The harts' side does not: its
  `halted` bits and its state machine know the power-on reset alone.  A hart that was parked is still
  reported halted, and a command or a resume it was in the middle of is still waited for, until the
  hart happens to come back.

  So nothing stale is left exactly if there was nothing to forget: in every cycle of a system reset no
  hart is halted and the state machine is idle, or about to be because the hart has resumed.

  The harts here are those of `RunControl`, sent back to their start while `ndmreset_o` is high.  A checker
  (`Watch`) remembers which harts have not stored to `HALTED` since the last system reset, and for which
  hart the state machine has left `Idle`; `Forgotten` says that neither a halted bit nor `cmdbusy` is left
  of a hart that was reset.  `forgotten_next_iff` is one cycle of it.  Two things follow for the debugger:
  `notReported_of_forgotten`, a hart that was reset is not reported halted before it has halted again,
  and `command_waited_for`, what becomes of a command that a reset has interrupted.
-/
import RiscDbgUart.HartSelection
import RiscDbgUart.RunControl

set_option linter.unusedVariables false

namespace RiscDbgUart.SystemReset

open Clocked
open DebugModule (csrsIn memIn)
open DmMem (Params Access CtrlState)
open RunControl (Pc)

variable {n w : Nat}

/-! ## The debug module and the harts it resets -/

structure State (n : Nat) where
  dm : DebugModule.State n
  pc : Nat → Pc

/-- The pins of the debug module, the hart whose access is on the bus, whether it is the one its ROM
    does next, and the harts that enter debug mode. -/
structure Input (n w : Nat) where
  pins : DebugModule.Input n w
  hart : Nat
  rom : Bool
  enters : Nat → Bool

/-- `ndmreset_o` -/
def ndmresetO (s : State n) : Bool := DmRegs.ndmresetO s.dm.csrs.regs

/-- Where a hart is in the cycle: the system reset forces it out of debug mode. -/
def pcNow (s : State n) (h : Nat) : Pc := if ndmresetO s then .outside else s.pc h

/-- The harts on the bus of the debug module. -/
def harts (s : State n) : RunControl.State n :=
  { mem := s.dm.mem, pc := pcNow s, hartsel := DmRegs.hartselO s.dm.csrs.regs }

def hartsIn (p : Params n) (s : State n) (i : Input n w) : RunControl.Input n w :=
  { memI := memIn p s.dm i.pins, hart := i.hart, rom := i.rom
    enters := fun h => i.enters h && !ndmresetO s }

def next (p : Params n) (s : State n) (i : Input n w) : State n :=
  { dm := DebugModule.next p s.dm i.pins
    pc := RunControl.nextPc p (harts s) (hartsIn p s i) }

/-- The cycle's access is one its hart may do. -/
def Follows (s : State n) (i : Input n w) : Prop :=
  i.pins.busI.reqI = true → i.hart < n ∧
    if i.rom then (pcNow s i.hart).does i.hart i.pins.busI else (pcNow s i.hart).mayDo i.pins.busI

instance (s : State n) (i : Input n w) : Decidable (Follows s i) := by
  unfold Follows; infer_instance

/-- The debug module after the power-on reset; the harts are in the ROM's loop or outside. -/
def reset (romAddr : Nat) (pc : Nat → Pc) : State n :=
  { dm := DebugModule.reset romAddr, pc := pc }

/-! ## What is left of the time before the reset -/

/-- The harts that have not stored to `HALTED` since the last system reset, and the hart the state
    machine last left `Idle` for. -/
structure Watch where
  wasReset : Nat → Bool
  owner : Nat

def see (p : Params n) (g : Watch) (s : State n) (i : Input n w) : Watch :=
  { wasReset := fun h =>
      ndmresetO s || (g.wasReset h && !DmMem.haltedAligned (memIn p s.dm i.pins) h)
    owner :=
      if s.dm.mem.state = .Idle then DmMem.hartsel (memIn p s.dm i.pins) else g.owner }

/-- Nothing is left of a hart that was reset: it is not halted, and `cmdbusy` is not up for it.  A hart
    that stores to `HALTED` again is no longer one that was reset. -/
def Forgotten (c : Watch × State n) : Prop :=
  ∀ h < n, c.1.wasReset h = true →
    c.2.dm.mem.halted.getLsbD h = false ∧ ¬ (DmMem.cmdbusyO c.2.dm.mem = true ∧ c.1.owner = h)

/-- It is not reported halted either. -/
def NotReported (p : Params n) (w : Nat) (c : Watch × State n) : Prop :=
  ∀ h < n, c.1.wasReset h = true → DmRegs.selectedHart c.2.dm.csrs.regs = h →
    ∀ i : DebugModule.Input n w,
      DmRegs.allhalted c.2.dm.csrs.regs (csrsIn p c.2.dm i) = false

/-- A cycle of a system reset finds nothing to forget: no hart is halted, and the state machine is idle or
    is about to be, because the resume that it waits for has been acknowledged. -/
def Clean (p : Params n) (c : Watch × State n) (i : Input n w) : Prop :=
  ndmresetO c.2 = true →
    c.2.dm.mem.halted = 0 ∧
      (c.2.dm.mem.state = .Idle ∨
        (c.2.dm.mem.state = .Resume ∧
          c.2.dm.mem.resuming.getLsbD (DmMem.hartsel (memIn p c.2.dm i.pins)) = true))

instance (c : Watch × State n) : Decidable (Forgotten c) := by
  unfold Forgotten; infer_instance

instance (p : Params n) (c : Watch × State n) (i : Input n w) : Decidable (Clean p c i) := by
  unfold Clean; infer_instance

/-- What is in the registers is about harts there are. -/
structure Inv (p : Params n) (c : Watch × State n) : Prop where
  selectable : p.selectableHarts &&& c.2.dm.mem.halted = c.2.dm.mem.halted
  owner : DmMem.cmdbusyO c.2.dm.mem = true → c.1.owner < n

section Step

variable {p : Params n} {c : Watch × State n} {i : Input n w}

/-! ## One cycle -/

/-- The mailboxes are silent while the system is in reset. -/
theorem silent (hf : Follows c.2 i) (hres : ndmresetO c.2 = true) :
    i.pins.busI.storesTo DmMem.HaltedAddr = false ∧
      i.pins.busI.storesTo DmMem.GoingAddr = false ∧
      i.pins.busI.storesTo DmMem.ResumingAddr = false := by
  have hout : pcNow c.2 i.hart = .outside := by
    unfold pcNow
    rw [hres, if_pos rfl]
  cases hreq : i.pins.busI.reqI
  · unfold Access.storesTo
    rw [hreq]
    exact ⟨rfl, rfl, rfl⟩
  · obtain ⟨-, hdo⟩ := hf hreq
    rw [hout] at hdo
    split_ifs at hdo
    · exact hdo.elim
    · exact ⟨hdo.1, hdo.2.1, hdo.2.2.1⟩

theorem cmdbusy_next : DmMem.cmdbusyO (next p c.2 i).dm.mem = true ↔
    DmMem.stateD p c.2.dm.mem (memIn p c.2.dm i.pins) ≠ .Idle := by
  show (DmMem.stateD p c.2.dm.mem (memIn p c.2.dm i.pins) != .Idle) = true ↔ _
  exact bne_iff_ne

theorem halted_next : (next p c.2 i).dm.mem.halted
    = p.selectableHarts &&& DmMem.haltedD c.2.dm.mem (memIn p c.2.dm i.pins) := rfl

/-- A halted bit is set by a store of its hart. -/
theorem halted_low {h : Nat} (hh : h < n)
    (hst : DmMem.haltedAligned (memIn p c.2.dm i.pins) h = false)
    (hlow : c.2.dm.mem.halted.getLsbD h = false) :
    (next p c.2 i).dm.mem.halted.getLsbD h = false := by
  rw [halted_next, BitVec.getLsbD_and, Bool.and_eq_false_iff]
  right
  unfold DmMem.haltedAligned at hst
  unfold DmMem.haltedD
  split_ifs with h1 h2
  · rw [h1, Bool.true_and, beq_eq_false_iff_ne] at hst
    rw [setBit_getLsbD _ _ _ _ hh, if_neg (Ne.symm hst)]
    exact hlow
  · rw [setBit_false _ _ hh, hlow, Bool.and_false]
  · exact hlow

theorem inv_next (h : Inv p c) : Inv p (watched (next p) (see p) c i) := by
  constructor
  · show p.selectableHarts &&& (p.selectableHarts &&& _) = p.selectableHarts &&& _
    rw [← BitVec.and_assoc, BitVec.and_self]
  · intro hbusy
    rw [watched_snd, cmdbusy_next] at hbusy
    show (if c.2.dm.mem.state = .Idle then DmMem.hartsel (memIn p c.2.dm i.pins) else c.1.owner) < n
    split_ifs with hidle
    · -- the machine leaves `Idle`, so the selected hart is halted
      by_contra hge
      have hsel := DmMem.selectedHalted_of_leaves hidle hbusy
      rw [BitVec.getLsbD_of_ge _ _ (by omega)] at hsel
      cases hsel
    · exact h.owner (bne_iff_ne.mpr hidle)

/-- Between the resets nothing is remembered that was forgotten. -/
theorem forgotten_running (h : Forgotten c) (hres : ndmresetO c.2 = false) :
    Forgotten (watched (next p) (see p) c i) := by
  intro k hk hwas
  have hwas' : (ndmresetO c.2 ||
      (c.1.wasReset k && !DmMem.haltedAligned (memIn p c.2.dm i.pins) k)) = true := hwas
  rw [hres, Bool.false_or, Bool.and_eq_true, Bool.not_eq_true'] at hwas'
  obtain ⟨hlow, hfree⟩ := h k hk hwas'.1
  refine ⟨halted_low hk hwas'.2 hlow, ?_⟩
  rintro ⟨hbusy, howner⟩
  rw [watched_snd, cmdbusy_next] at hbusy
  have howner' : (if c.2.dm.mem.state = .Idle then DmMem.hartsel (memIn p c.2.dm i.pins)
      else c.1.owner) = k := howner
  split_ifs at howner' with hidle
  · have hsel := DmMem.selectedHalted_of_leaves hidle hbusy
    rw [howner', hlow] at hsel
    cases hsel
  · exact hfree ⟨bne_iff_ne.mpr hidle, howner'⟩

/-- With the mailboxes silent and no hart halted, the machine ends up idle if it is, or if the resume
    it waits for has been acknowledged. -/
theorem idle_silent_iff (hf : Follows c.2 i) (hres : ndmresetO c.2 = true)
    (hnone : c.2.dm.mem.halted = 0) :
    DmMem.stateD p c.2.dm.mem (memIn p c.2.dm i.pins) = .Idle ↔
      (c.2.dm.mem.state = .Idle ∨
        (c.2.dm.mem.state = .Resume ∧
          c.2.dm.mem.resuming.getLsbD (DmMem.hartsel (memIn p c.2.dm i.pins)) = true)) := by
  obtain ⟨hhalted, hgoing, -⟩ := silent hf hres
  cases hst : c.2.dm.mem.state
  · -- idle: it leaves for a halted hart only, and there is none
    refine iff_of_true ?_ (Or.inl rfl)
    by_contra hleaves
    have hsel := DmMem.selectedHalted_of_leaves hst hleaves
    rw [hnone] at hsel
    simp at hsel
  · -- waiting for the hart to go: nobody says so
    have hno : DmMem.going (memIn p c.2.dm i.pins) = false := hgoing
    rw [DmMem.stateD_go hst, hno]
    simp
  · -- waiting for the resume: it is acknowledged already, or never
    rw [DmMem.stateD_resume hst]
    split_ifs with hack
    · simp [hack]
    · simp [hack]
  · -- executing: nobody says that it is done
    have hno : DmMem.haltedAligned (memIn p c.2.dm i.pins)
        (DmMem.hartsel (memIn p c.2.dm i.pins)) = false := by
      unfold DmMem.haltedAligned
      show (i.pins.busI.storesTo DmMem.HaltedAddr && _) = false
      rw [hhalted, Bool.false_and]
    rw [DmMem.stateD_executing hst, hno]
    simp

/-- In reset the halted bits stay. -/
theorem halted_silent (hf : Follows c.2 i) (hres : ndmresetO c.2 = true) (h : Inv p c) :
    (next p c.2 i).dm.mem.halted = c.2.dm.mem.halted := by
  obtain ⟨hhalted, -, hresuming⟩ := silent hf hres
  have hd : DmMem.haltedD c.2.dm.mem (memIn p c.2.dm i.pins) = c.2.dm.mem.halted := by
    unfold DmMem.haltedD
    show (if i.pins.busI.storesTo DmMem.HaltedAddr then _
      else if i.pins.busI.storesTo DmMem.ResumingAddr then _ else _) = _
    rw [hhalted, hresuming]
    rfl
  rw [halted_next, hd, h.selectable]

/-- **One cycle.**  Outside a system reset nothing old can appear; in one, the bits and the state machine
    stay as they are, so it leaves nothing exactly if there was nothing. -/
theorem forgotten_next_iff (hf : Follows c.2 i) (hinv : Inv p c) (h : Forgotten c) :
    Forgotten (watched (next p) (see p) c i) ↔ Clean p c i := by
  cases hres : ndmresetO c.2
  · refine iff_of_true (forgotten_running h hres) ?_
    intro hup
    rw [hres] at hup
    cases hup
  · have hall : ∀ k, (watched (next p) (see p) c i).1.wasReset k = true := by
      intro k
      show (ndmresetO c.2 || _) = true
      rw [hres, Bool.true_or]
    have hkeep : (watched (next p) (see p) c i).2.dm.mem.halted = c.2.dm.mem.halted :=
      halted_silent hf hres hinv
    constructor
    · intro hforgot _
      have hnone : c.2.dm.mem.halted = 0 := by
        apply BitVec.eq_of_getLsbD_eq
        intro k hk
        rw [← hkeep, (hforgot k hk (hall k)).1]
        simp
      refine ⟨hnone, (idle_silent_iff hf hres hnone).mp ?_⟩
      -- a machine that is busy is busy for a hart that was reset
      by_contra hbusy
      have hb := cmdbusy_next.mpr hbusy
      exact (hforgot _ ((inv_next hinv).owner hb) (hall _)).2 ⟨hb, rfl⟩
    · intro hclean k hk _
      obtain ⟨hnone, hidle⟩ := hclean hres
      constructor
      · rw [hkeep, hnone]
        simp
      · rintro ⟨hbusy, -⟩
        exact cmdbusy_next.mp hbusy ((idle_silent_iff hf hres hnone).mpr hidle)

end Step

/-! ## Whole runs -/

/-- A command that the state machine waits for is waited for until the selected hart stores to
    `HALTED`, whatever else happens to that hart. -/
theorem command_waited_for (p : Params n) (is : List (Input n w)) (s : State n)
    (h : s.dm.mem.state = .Go ∨ s.dm.mem.state = .CmdExecuting)
    (hno : Always (next p)
      (fun s i => DmMem.haltedAligned (memIn p s.dm i.pins) (DmMem.hartsel (memIn p s.dm i.pins))
        = false) s is) :
    Throughout (next p) (fun s => s.dm.mem.state = .Go ∨ s.dm.mem.state = .CmdExecuting) s is := by
  refine throughout_of_step _ _ _ ?_ (fun _ h => h) is s h hno
  intro s i h hno
  show DmMem.stateD p s.dm.mem (memIn p s.dm i.pins) = .Go ∨
    DmMem.stateD p s.dm.mem (memIn p s.dm i.pins) = .CmdExecuting
  rcases h with hst | hst
  · rw [DmMem.stateD_go hst]
    cases DmMem.going (memIn p s.dm i.pins)
    · exact Or.inl rfl
    · exact Or.inr rfl
  · rw [DmMem.stateD_executing hst, hno]
    exact Or.inr rfl

theorem notReported_of_forgotten {p : Params n} {c : Watch × State n} (h : Forgotten c) :
    NotReported p w c := by
  intro k hk hwas hsel i
  rw [DmRegs.allhalted_eq, hsel]
  show (c.2.dm.mem.halted.getLsbD k && _) = false
  rw [(h k hk hwas).1, Bool.false_and]

/-- No hart has been reset yet. -/
def watch0 : Watch := { wasReset := fun _ => false, owner := 0 }

/-- **The status follows the harts across a system reset, exactly.**  Whatever harts that follow the ROM
    do: from a system reset until a hart stores to `HALTED` again it is neither halted nor reported to
    be and `cmdbusy` is not up for it, if and only if the cycles of every system reset find no hart
    halted and the state machine idle or at the end of a resume. -/
theorem status_after_reset_iff (p : Params n) (romAddr : Nat) (pc : Nat → Pc)
    (is : List (Input n w)) (hf : Always (next p) Follows (reset romAddr pc) is) :
    Throughout (watched (next p) (see p)) (fun c => Forgotten c ∧ NotReported p w c)
      (watch0, reset romAddr pc) is ↔
    Always (watched (next p) (see p)) (Clean p) (watch0, reset romAddr pc) is := by
  have hboth : ∀ c : Watch × State n, Forgotten c ∧ NotReported p w c ↔ Forgotten c :=
    fun c => and_iff_left_of_imp notReported_of_forgotten
  simp only [hboth]
  refine throughout_iff_of_step (Inv p) Forgotten (fun c i => Follows c.2 i) (Clean p)
    (fun c i hinv _ => inv_next hinv) (fun c i hinv h hf => forgotten_next_iff hf hinv h) is _ ?_ ?_
    ((always_watched (next p) (see p) Follows is _).mpr hf)
  · constructor
    · exact BitVec.and_zero
    · intro hbusy
      cases hbusy
  · intro h _ hwas
    cases hwas

/-- A cycle without an access of the hart. -/
def quiet (i : DebugModule.Input 1 32) : Input 1 32 :=
  { pins := i, hart := 0, rom := false, enters := fun _ => false }

/-- A cycle in which the hart does what its ROM does next. -/
def hartDoes (i : DebugModule.Input 1 32) : Input 1 32 :=
  { pins := i, hart := 0, rom := true, enters := fun _ => false }

/-- The store of the parked hart. -/
def parks : Input 1 32 := hartDoes (DebugModule.hartStore 0x100 0)

/-- Its load of the flags. -/
def polls : Input 1 32 := hartDoes { busI := { reqI := true, addrI := 0x400, beI := 15 } }

/-- The debugger activates the module, the hart parks and is resumed; in the very cycle in which it says
    so the debugger asserts `ndmreset`, so that the system reset finds the state machine in `Resume`
    still.  Two cycles later the reset is over, and the hart enters debug mode and parks again. -/
def oneReset : List (Input 1 32) :=
  [quiet (DebugModule.dmiWrite 0x10 1), parks,
    quiet (DebugModule.dmiWrite 0x10 0x40000001), quiet {}, polls, polls,
    hartDoes { DebugModule.dmiWrite 0x10 3 with busI := (DebugModule.hartStore 0x108 0).busI },
    quiet {}, quiet (DebugModule.dmiWrite 0x10 1),
    { quiet {} with enters := fun _ => true }, parks]

/-- The hart is parked before the reset and after it, the reset takes place, and nothing is left of what
    was before it. -/
theorem status_after_reset_iff_resumed :
    (run (next DebugModule.oneHart) (reset 0 fun _ => .entry) (oneReset.take 2)).dm.mem.halted = 1 ∧
    (run (next DebugModule.oneHart) (reset 0 fun _ => .entry) (oneReset.take 7)).dm.mem.state
      = .Resume ∧
    ndmresetO (run (next DebugModule.oneHart) (reset 0 fun _ => .entry) (oneReset.take 7)) = true ∧
    (run (next DebugModule.oneHart) (reset 0 fun _ => .entry) oneReset).dm.mem.halted = 1 ∧
    Throughout (watched (next DebugModule.oneHart) (see DebugModule.oneHart))
      (fun c => Forgotten c ∧ NotReported DebugModule.oneHart 32 c)
      (watch0, reset 0 fun _ => .entry) oneReset :=
  ⟨by decide, by decide, by decide, by decide,
    (status_after_reset_iff DebugModule.oneHart 0 (fun _ => .entry) oneReset (by decide)).mpr
      (by decide)⟩

/-- The hart parks, the debugger resets the system, and the hart is still halted. -/
theorem halted_after_reset :
    Always (next DebugModule.oneHart) Follows (reset 0 fun _ => .entry)
      [quiet (DebugModule.dmiWrite 0x10 1), parks, quiet (DebugModule.dmiWrite 0x10 3), quiet {}] ∧
    ¬ Throughout (watched (next DebugModule.oneHart) (see DebugModule.oneHart))
      (fun c => Forgotten c ∧ NotReported DebugModule.oneHart 32 c)
      (watch0, reset 0 fun _ => .entry)
      [quiet (DebugModule.dmiWrite 0x10 1), parks, quiet (DebugModule.dmiWrite 0x10 3), quiet {}] := by
  refine ⟨by decide, ?_⟩
  intro h
  exact absurd (throughout_imp (fun c hc => hc.1) _ _ h) (by decide)

end RiscDbgUart.SystemReset
