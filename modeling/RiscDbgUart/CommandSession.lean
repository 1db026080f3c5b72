/-
  Abstract commands in the whole debug module, from the debugger's access to the hart that is done.

  Three modules know a part of this each.  `CommandRequests` follows an access of the registers to the
  cycle in which the command state machine launches or refuses the command; `CommandWindow` freezes the
  command from then on; `RunControl` follows a launch through the debug ROM to the end of the command.
  Put together they say what a debugger counts on: every command that it asks for is either refused
  with an error or executed exactly once, in the order of the accesses, by the hart that was selected,
  with the word that was asked for (`commands_settled`).

  The account has three lines, each a conservation law of one cycle.
    * `settles_law`: what is asked for in a cycle is handed over in the next one, and there it is
      launched or refused.  Whether it is refused or dropped is decided by the condition of
      `CommandRequests`, so that condition is part of what is asked of the debugger (`Taken`).
    * `executes_law`: a command that was launched is the one in the register until its hart stores to
      `HALTED` again.
    * `rounds_law`: the harts' stores around it are one round of the debug ROM.
  The first needs nothing of the harts, the last nothing of the registers but the hart select; what
  joins them is that hart select and command stay as they are while the state machine is busy, and that
  nobody resets the harts meanwhile (`Steady`).

  The harts and the registers are those of `SystemReset`, so a system reset between two commands is
  part of the runs.  `dm_top` has them as a component, next to the host of the system bus, whatever the
  bus and the other accesses of the debugger do.
-/
import RiscDbgUart.CommandWindow
import RiscDbgUart.DmTop
import RiscDbgUart.SystemReset

set_option linter.unusedVariables false

namespace RiscDbgUart.CommandSession

open Clocked
open DebugModule (csrsIn memIn dmactiveO requests requestedCommand writesCommand)
open DmMem (Params Access CtrlState)
open RunControl (Pc round)
open SystemReset (harts hartsIn ndmresetO)

variable {n w : Nat}

/-! ## What becomes of a command -/

/-- A command for a hart. -/
structure Order where
  hart : Nat
  command : Command
deriving DecidableEq, Repr

/-- What the command state machine does with it. -/
inductive Fate where
  | launched
  | refused (e : CmdErr)
deriving DecidableEq, Repr

abbrev State := SystemReset.State
abbrev Input := SystemReset.Input

def selected (s : State n) : Nat := DmRegs.selectedHart s.dm.csrs.regs

/-- The command that the cycle's access asks for, with the hart that is selected then.  It may be a write to
    `Command` or an access that executes it again. -/
def orders (p : Params n) (s : State n) (i : Input n w) : List Order :=
  if dmactiveO s.dm && requests p s.dm i.pins then
    [⟨selected s, requestedCommand p s.dm i.pins⟩]
  else []

/-- The command that the registers hand over. -/
def handed (s : State n) : List Order :=
  if s.dm.csrs.regs.cmdValid then [⟨selected s, s.dm.csrs.regs.command⟩] else []

/-- The state machine leaves `Idle` for `Go`. -/
def launches (p : Params n) (s : State n) (i : Input n w) : Bool :=
  s.dm.mem.state == .Idle && DmMem.stateD p s.dm.mem (memIn p s.dm i.pins) == .Go

/-- The error that the harts' side raises over a command, not over an exception. -/
def refusal (p : Params n) (s : State n) (i : Input n w) : List CmdErr :=
  let m := memIn p s.dm i.pins
  if DmMem.cmderrorValidO p s.dm.mem m && (DmMem.cmderrorO p s.dm.mem m == CmdErrNotSupported ||
      DmMem.cmderrorO p s.dm.mem m == CmdErrorHaltResume) then
    [DmMem.cmderrorO p s.dm.mem m]
  else []

/-- The command that is handed over, with its fate; a command that is dropped has none. -/
def settles (p : Params n) (s : State n) (i : Input n w) : List (Order × Fate) :=
  (handed s).flatMap fun o =>
    if launches p s i then [(o, .launched)]
    else (refusal p s i).map fun e => (o, .refused e)

/-- The order, if it was launched. -/
def toExecute : Order × Fate → List Order
  | (o, .launched) => [o]
  | (_, .refused _) => []

/-- The hart whose command ends in this cycle, with the command that the registers hold. -/
def finishes (p : Params n) (s : State n) (i : Input n w) : List Order :=
  (RunControl.completed (harts s) (hartsIn p s i)).map fun h => ⟨h, s.dm.csrs.regs.command⟩

/-- The command that is under way: launched, or being executed. -/
def current (s : State n) : List Order :=
  match s.dm.mem.state with
  | .Go | .CmdExecuting => [⟨selected s, s.dm.csrs.regs.command⟩]
  | _ => []

/-! ## What is asked of the debugger -/

/-- While the state machine is busy the debugger does not select another hart, switch the module off
    or reset the system. -/
def Steady (p : Params n) (s : State n) (i : Input n w) : Prop :=
  (SystemReset.next p s i).dm.mem.state ≠ .Idle →
    DmRegs.hartselO (SystemReset.next p s i).dm.csrs.regs = DmRegs.hartselO s.dm.csrs.regs ∧
      dmactiveO (SystemReset.next p s i).dm = true ∧ ndmresetO (SystemReset.next p s i) = false

/-- A command that is handed over finds the state machine able to launch or refuse it. -/
def Taken (p : Params n) (s : State n) (i : Input n w) : Prop :=
  s.dm.csrs.regs.cmdValid = true →
    DebugModule.Launches p s.dm.csrs.regs.command s.dm i.pins

/-- The harts follow the ROM and the debugger does this. -/
def Orderly (p : Params n) (s : State n) (i : Input n w) : Prop :=
  SystemReset.Follows s i ∧ Steady p s i ∧ Taken p s i

instance (p : Params n) (s : State n) (i : Input n w) : Decidable (Steady p s i) := by
  unfold Steady; infer_instance

instance (p : Params n) (s : State n) (i : Input n w) : Decidable (Taken p s i) := by
  unfold Taken; infer_instance

instance (p : Params n) (s : State n) (i : Input n w) : Decidable (Orderly p s i) := by
  unfold Orderly; infer_instance

/-! ## The invariant -/

structure Inv (s : State n) : Prop where
  harts : RunControl.Inv (harts s)
  busy : s.dm.mem.state ≠ .Idle → dmactiveO s.dm = true
  handed : s.dm.csrs.regs.cmdValid = true → dmactiveO s.dm = true

section Step

variable {p : Params n} {s : State n} {i : Input n w}

/-- The harts of `SystemReset` are those of run control: the hart select they go by is the current
    one, and that is the one of the cycle before as long as it matters. -/
theorem follows_harts (hf : SystemReset.Follows s i) :
    RunControl.Follows (harts s) (hartsIn p s i) := ⟨hf, fun _ => rfl⟩

/-- An access that asks for a command leaves the hart select, as that takes a write to `DMControl`. -/
theorem selected_requests (hact : dmactiveO s.dm = true) (hreq : requests p s.dm i.pins = true) :
    selected (SystemReset.next p s i) = selected s := by
  show selectHart n (DmRegs.hartselO (DebugModule.next p s.dm i.pins).csrs.regs) = _
  rw [DebugModule.regs_next p i.pins hact, DmRegs.hartselO, DmRegs.dmcontrol_d,
    DebugModule.requests_keeps_dmactive hreq]
  rfl

/-- What is asked for in a cycle is handed over in the next: `cmd_valid` is a register, and so are the
    command and the selection. -/
theorem handed_next : handed (SystemReset.next p s i) = orders p s i := by
  unfold orders
  cases hact : dmactiveO s.dm
  · -- the registers of an inactive module are reset
    show (if (DmRegs.nextRegs p.selectableHarts s.dm.csrs (csrsIn p s.dm i.pins)).cmdValid
      then _ else _) = _
    rw [DmRegs.nextRegs_inactive _ _ _ hact]
    rfl
  · rw [Bool.true_and]
    cases hreq : requests p s.dm i.pins
    · have hvalid : (DebugModule.next p s.dm i.pins).csrs.regs.cmdValid = false := by
        rw [DebugModule.regs_next p i.pins hact, DmRegs.cmdValid_d]
        exact hreq
      show (if (DebugModule.next p s.dm i.pins).csrs.regs.cmdValid then _ else _) = _
      rw [hvalid]
      rfl
    · obtain ⟨hvalid, hcommand, -⟩ := DebugModule.requested hact hreq
      have hsel := selected_requests hact hreq
      show (if (DebugModule.next p s.dm i.pins).csrs.regs.cmdValid then
        [(⟨selected (SystemReset.next p s i),
          (DebugModule.next p s.dm i.pins).csrs.regs.command⟩ : Order)] else []) = _
      rw [hvalid, hcommand, hsel, if_pos rfl]

/-- While the state machine is busy, nothing that the harts of run control know has changed. -/
theorem harts_next (h : Steady p s i) (hbusy : (SystemReset.next p s i).dm.mem.state ≠ .Idle) :
    harts (SystemReset.next p s i) = RunControl.next p (harts s) (hartsIn p s i) := by
  obtain ⟨hsel, -, hres⟩ := h hbusy
  have hpc : SystemReset.pcNow (SystemReset.next p s i) = (SystemReset.next p s i).pc := by
    funext k
    rw [SystemReset.pcNow, hres]
    rfl
  unfold harts
  rw [hpc, hsel]
  rfl

theorem inv_next (hw : w = 32 ∨ w = 64) (hn : n ≤ 1024) (h : Inv s) (hc : Orderly p s i) :
    Inv (SystemReset.next p s i) := by
  obtain ⟨hf, hsteady, -⟩ := hc
  have hnext := RunControl.inv_next (p := p) hw hn (follows_harts (p := p) hf) h.harts
  refine ⟨?_, fun hbusy => (hsteady hbusy).2.1, ?_⟩
  · by_cases hbusy : (SystemReset.next p s i).dm.mem.state = .Idle
    · -- no hart is in a round, so a reset of the harts interrupts none
      have hin (k : Nat) : (harts (SystemReset.next p s i)).pc k = .outside ∨
          (harts (SystemReset.next p s i)).pc k
            = (RunControl.next p (harts s) (hartsIn p s i)).pc k := by
        show SystemReset.pcNow _ k = _ ∨ SystemReset.pcNow _ k = _
        unfold SystemReset.pcNow
        split_ifs
        · exact Or.inl rfl
        · exact Or.inr rfl
      have hnot {st : CtrlState} (hst : st ≠ .Idle) :
          ¬ (RunControl.next p (harts s) (hartsIn p s i)).mem.state = st :=
        fun heq => hst (heq.symm.trans hbusy)
      refine ⟨fun k hk => ?_, fun k => ⟨fun hk => ?_, fun hk => ?_⟩, fun k hk => ?_, fun hres => ?_⟩
      · rcases hin k with hout | hsame
        · rw [hout] at hk
          cases hk
        · exact absurd (hnext.going k (hsame.symm.trans hk)).1 (hnot (by decide))
      · rcases hin k with hout | hsame
        · rw [hout] at hk
          cases hk
        · exact absurd ((hnext.command k).mp (hsame.symm.trans hk)).1 (hnot (by decide))
      · exact absurd hk.1 (hnot (by decide))
      · rcases hin k with hout | hsame
        · rw [hout] at hk
          cases hk
        · exact absurd (hnext.resuming k (hsame.symm.trans hk)).1 (hnot (by decide))
      · exact absurd hres (hnot (by decide))
    · rw [harts_next hsteady hbusy]
      exact hnext
  · intro hvalid
    have hhanded : handed (SystemReset.next p s i) ≠ [] := by
      rw [handed, hvalid]
      exact List.cons_ne_nil _ _
    rw [handed_next, orders] at hhanded
    split_ifs at hhanded with hreq
    · rw [Bool.and_eq_true] at hreq
      exact (DebugModule.requested hreq.1 hreq.2).2.2
    · exact absurd rfl hhanded

/-! ## The three laws of a cycle -/

/-- A launch is one of the command that is handed over. -/
theorem handed_of_launches (h : launches p s i = true) : s.dm.csrs.regs.cmdValid = true := by
  rw [launches, Bool.and_eq_true, beq_iff_eq, beq_iff_eq] at h
  obtain ⟨hidle, hgo⟩ := h
  by_contra hno
  have hvalid : (memIn p s.dm i.pins).cmdValidI = false := Bool.eq_false_iff.mpr hno
  rw [DmMem.stateD, hidle] at hgo
  simp only [hvalid, Bool.false_and, Bool.false_eq_true, if_false] at hgo
  split_ifs at hgo

/-- A launched command is still in the register in the next cycle: `Taken` excludes that the debugger
    overwrites it while it is being handed over. -/
theorem command_launches (h : Inv s) (ht : Taken p s i) (hl : launches p s i = true) :
    (SystemReset.next p s i).dm.csrs.regs.command = s.dm.csrs.regs.command := by
  have hvalid := handed_of_launches hl
  have hact := h.handed hvalid
  rw [launches, Bool.and_eq_true, beq_iff_eq, beq_iff_eq] at hl
  have hgo := (DebugModule.launched p i.pins hvalid).mp hl
  rcases ht hvalid with ⟨-, -, -, -, hkeep⟩ | ⟨-, hsup | ⟨-, hhalt⟩⟩
  · show (DebugModule.next p s.dm i.pins).csrs.regs.command = _
    rw [DebugModule.command_next p i.pins hact, requestedCommand]
    split_ifs with hwrites
    · exact hkeep hwrites
    · rfl
  · -- a refused command is not launched
    rw [hgo.2.2.1] at hsup
    cases hsup
  · rw [hgo.2.1] at hhalt
    cases hhalt

/-- A busy state machine keeps the command, as a write to it is refused. -/
theorem command_busy (h : Inv s) (hbusy : s.dm.mem.state ≠ .Idle) :
    (SystemReset.next p s i).dm.csrs.regs.command = s.dm.csrs.regs.command := by
  show (DebugModule.next p s.dm i.pins).csrs.regs.command = _
  rw [DebugModule.command_next p i.pins (h.busy hbusy), requestedCommand, writesCommand,
    DebugModule.overwrites_busy i.pins _ hbusy]
  rfl

/-- **What is handed over is launched or refused**, in the same cycle and not both. -/
theorem settles_law (h : Inv s) (ht : Taken p s i) :
    (settles p s i).map Prod.fst = handed s := by
  unfold settles handed
  cases hvalid : s.dm.csrs.regs.cmdValid
  · rfl
  · have hans := (DebugModule.answered_iff i.pins (h.handed hvalid) hvalid rfl).mpr (ht hvalid)
    rw [if_pos rfl, List.flatMap_cons, List.flatMap_nil, List.append_nil]
    cases hl : launches p s i
    · rcases hans with ⟨hidle, hgo, -⟩ | ⟨hraised, herr⟩
      · have hgo' : DmMem.stateD p s.dm.mem (memIn p s.dm i.pins) = .Go := hgo
        rw [launches, hidle, hgo'] at hl
        cases hl
      · have hone : refusal p s i
            = [DmMem.cmderrorO p s.dm.mem (memIn p s.dm i.pins)] := by
          rw [refusal, hraised, Bool.true_and, if_pos]
          rw [Bool.or_eq_true, beq_iff_eq, beq_iff_eq]
          exact herr
        rw [hone]
        rfl
    · rfl

/-- The orders that go to a hart in the cycle. -/
theorem toExecute_settles :
    (settles p s i).flatMap toExecute = if launches p s i then handed s else [] := by
  unfold settles handed
  cases s.dm.csrs.regs.cmdValid
  · rw [if_neg Bool.false_ne_true, ite_self]
    rfl
  · cases launches p s i
    · rw [if_pos rfl, List.flatMap_cons, List.flatMap_nil, List.append_nil]
      simp [toExecute, List.flatMap_map]
    · rfl

/-- A command ends in `CmdExecuting`, with the selected hart's store to `HALTED`. -/
theorem finishes_eq (hn : n ≤ 1024) (h : Inv s) (hf : SystemReset.Follows s i) :
    finishes p s i
      = if s.dm.mem.state = .CmdExecuting ∧ DmMem.haltedAligned (memIn p s.dm i.pins)
            (DmMem.hartsel (memIn p s.dm i.pins)) = true then
          [⟨selected s, s.dm.csrs.regs.command⟩]
        else [] := by
  have hfinish := RunControl.finish_iff (i := hartsIn p s i) hn (follows_harts hf) h.harts
  unfold finishes RunControl.completed
  split_ifs with hdone hends hends
  · have hhart : i.hart = selected s := ((h.harts.command _).mp hdone.2).2
    show [(⟨i.hart, s.dm.csrs.regs.command⟩ : Order)] = _
    rw [hhart]
  · exact absurd (hfinish.mp hdone) hends
  · exact absurd (hfinish.mpr hends) hdone
  · rfl

/-- The command that is under way stays the same one, from the launch to its end. -/
theorem current_kept (h : Inv s) (hsteady : Steady p s i)
    (hst : s.dm.mem.state = .Go ∨ s.dm.mem.state = .CmdExecuting)
    (hnext : (SystemReset.next p s i).dm.mem.state = .Go ∨
      (SystemReset.next p s i).dm.mem.state = .CmdExecuting) :
    current (SystemReset.next p s i) = current s := by
  have hbusy : s.dm.mem.state ≠ .Idle := by rcases hst with hst | hst <;> rw [hst] <;> decide
  have hbusy' : (SystemReset.next p s i).dm.mem.state ≠ .Idle := by
    rcases hnext with hnext | hnext <;> rw [hnext] <;> decide
  have hsel : selected (SystemReset.next p s i) = selected s :=
    congrArg (selectHart n) (hsteady hbusy').1
  have hnow : current s = [⟨selected s, s.dm.csrs.regs.command⟩] := by
    rcases hst with hst | hst <;> rw [current, hst]
  have hthen : current (SystemReset.next p s i)
      = [⟨selected (SystemReset.next p s i), (SystemReset.next p s i).dm.csrs.regs.command⟩] := by
    rcases hnext with hnext | hnext <;> rw [current, hnext]
  rw [hnow, hthen, hsel, command_busy h hbusy]

/-- From an idle machine a command gets under way when it is launched, and no other way. -/
theorem current_idle (h : Inv s) (hsteady : Steady p s i) (ht : Taken p s i)
    (hst : s.dm.mem.state = .Idle) :
    current (SystemReset.next p s i) = if launches p s i then handed s else [] := by
  have hstate : (SystemReset.next p s i).dm.mem.state
      = DmMem.stateD p s.dm.mem (memIn p s.dm i.pins) := rfl
  cases hl : launches p s i
  · rw [launches, hst, beq_self_eq_true, Bool.true_and, beq_eq_false_iff_ne] at hl
    rw [current, hstate, if_neg Bool.false_ne_true]
    cases hd : DmMem.stateD p s.dm.mem (memIn p s.dm i.pins)
    · rfl
    · exact absurd hd hl
    · rfl
    · -- there is no way from `Idle` to `CmdExecuting`
      rcases DmMem.stateD_enters hd with ⟨hgo, -⟩ | ⟨hex, -⟩
      · rw [hst] at hgo
        cases hgo
      · rw [hst] at hex
        cases hex
  · have hgo : (SystemReset.next p s i).dm.mem.state = .Go := by
      have hl' := hl
      rw [launches, Bool.and_eq_true, beq_iff_eq, beq_iff_eq] at hl'
      exact hl'.2
    have hsel : selected (SystemReset.next p s i) = selected s :=
      congrArg (selectHart n) (hsteady (by rw [hgo]; decide)).1
    rw [if_pos rfl, handed, handed_of_launches hl, if_pos rfl, current, hgo,
      command_launches h ht hl, hsel]

/-- **What is launched is executed.**  A cycle passes the command under way on, ends it, or launches the next
    one. -/
theorem executes_law (hn : n ≤ 1024) (h : Inv s) (hc : Orderly p s i) :
    current s ++ (settles p s i).flatMap toExecute
      = finishes p s i ++ current (SystemReset.next p s i) := by
  obtain ⟨hf, hsteady, htaken⟩ := hc
  have hstate : (SystemReset.next p s i).dm.mem.state
      = DmMem.stateD p s.dm.mem (memIn p s.dm i.pins) := rfl
  have hstays (hst : s.dm.mem.state ≠ .Idle) :
      (if launches p s i then handed s else []) = [] := by
    rw [launches, beq_eq_false_iff_ne.mpr hst, Bool.false_and]
    rfl
  rw [toExecute_settles, finishes_eq hn h hf]
  cases hst : s.dm.mem.state
  · -- idle: the command that is handed over, if it is launched
    rw [current_idle h hsteady htaken hst, current, hst]
    rfl
  · -- the hart has not started it yet, or starts it now
    have hgoing : (SystemReset.next p s i).dm.mem.state = .Go ∨
        (SystemReset.next p s i).dm.mem.state = .CmdExecuting := by
      rw [hstate, DmMem.stateD_go hst]
      split_ifs
      · exact Or.inr rfl
      · exact Or.inl rfl
    rw [hstays (by rw [hst]; decide), current_kept h hsteady (Or.inl hst) hgoing,
      List.append_nil]
    rfl
  · -- a resume
    rw [hstays (by rw [hst]; decide), current, hst, current, hstate, DmMem.stateD_resume hst]
    cases s.dm.mem.resuming.getLsbD (DmMem.hartsel (memIn p s.dm i.pins)) <;> rfl
  · -- the hart executes it, or it is done
    rw [hstays (by rw [hst]; decide), List.append_nil]
    cases hg : DmMem.haltedAligned (memIn p s.dm i.pins) (DmMem.hartsel (memIn p s.dm i.pins))
    · have hnext : (SystemReset.next p s i).dm.mem.state = .CmdExecuting := by
        rw [hstate, DmMem.stateD_executing hst, hg]
        rfl
      rw [current_kept h hsteady (Or.inr hst) (Or.inr hnext)]
      rfl
    · have hnext : (SystemReset.next p s i).dm.mem.state = .Idle := by
        rw [hstate, DmMem.stateD_executing hst, hg]
        rfl
      rw [current, hst, current, hnext]
      rfl

/-- **The stores of the harts are whole rounds.**  It is the round law of run control, with the commands put
    to the rounds. -/
theorem rounds_law (hn : n ≤ 1024) (h : Inv s) (hc : Orderly p s i) :
    RunControl.underWay (harts s) ++ RunControl.events p (harts s) (hartsIn p s i)
      = (finishes p s i).flatMap (fun o => round o.hart)
        ++ RunControl.underWay (harts (SystemReset.next p s i)) := by
  obtain ⟨hf, hsteady, -⟩ := hc
  have hlaw := RunControl.events_law (p := p) hn (follows_harts (p := p) hf) h.harts
  have hunder : RunControl.underWay (harts (SystemReset.next p s i))
      = RunControl.underWay (RunControl.next p (harts s) (hartsIn p s i)) := by
    by_cases hbusy : (SystemReset.next p s i).dm.mem.state = .Idle
    · have hidle : (RunControl.next p (harts s) (hartsIn p s i)).mem.state = .Idle := hbusy
      have hidle' : (harts (SystemReset.next p s i)).mem.state = .Idle := hbusy
      rw [RunControl.underWay, RunControl.underWay, hidle, hidle']
    · rw [harts_next hsteady hbusy]
  rw [hunder, hlaw, finishes, List.flatMap_map]

end Step

/-! ## Whole runs -/

theorem inv_reset (romAddr : Nat) {pc : Nat → Pc} (hpc : RunControl.Parked pc) :
    Inv (SystemReset.reset romAddr pc : State n) := by
  have hsel : DmRegs.DmControl0.hartselhi ++ DmRegs.DmControl0.hartsello = (0 : BitVec 20) := by
    decide
  have hharts : harts (SystemReset.reset romAddr pc : State n) = RunControl.reset romAddr pc := by
    show (⟨_, SystemReset.pcNow _, DmRegs.DmControl0.hartselhi ++
      DmRegs.DmControl0.hartsello⟩ : RunControl.State n) = _
    rw [hsel]
    rfl
  refine ⟨?_, fun hb => absurd rfl hb, fun hv => ?_⟩
  · rw [hharts]
    exact RunControl.inv_reset romAddr hpc
  · cases hv

/-- The account of a run of the registers and the harts. -/
theorem commands_run (hw : w = 32 ∨ w = 64) (hn : n ≤ 1024) (p : Params n) (romAddr : Nat)
    {pc : Nat → Pc} (hpc : RunControl.Parked pc) (is : List (Input n w))
    (hc : Always (SystemReset.next p) (Orderly p) (SystemReset.reset romAddr pc) is) :
    emitted (SystemReset.next p) (orders p) (SystemReset.reset romAddr pc) is
        = (emitted (SystemReset.next p) (settles p) (SystemReset.reset romAddr pc) is).map Prod.fst
          ++ handed (run (SystemReset.next p) (SystemReset.reset romAddr pc) is) ∧
      (emitted (SystemReset.next p) (settles p) (SystemReset.reset romAddr pc) is).flatMap toExecute
        = emitted (SystemReset.next p) (finishes p) (SystemReset.reset romAddr pc) is
          ++ current (run (SystemReset.next p) (SystemReset.reset romAddr pc) is) ∧
      emitted (SystemReset.next p) (fun s i => RunControl.events p (harts s) (hartsIn p s i))
          (SystemReset.reset romAddr pc) is
        = (emitted (SystemReset.next p) (finishes p) (SystemReset.reset romAddr pc) is).flatMap
            (fun o => round o.hart)
          ++ RunControl.underWay
              (harts (run (SystemReset.next p) (SystemReset.reset romAddr pc) is)) := by
  have hinv : Inv (SystemReset.reset romAddr pc : State n) := inv_reset romAddr hpc
  have hstep (s : State n) (i : Input n w) (hs : Inv s) (ho : Orderly p s i) :
      Inv (SystemReset.next p s i) := inv_next hw hn hs ho
  refine ⟨?_, ?_, ?_⟩
  · -- what is ordered is settled, but for the order that has been handed over
    have hsum := emitted_conserved Inv (orders p) (fun s i => (settles p s i).map Prod.fst) handed
      hstep (fun s i hs ho => by rw [settles_law hs ho.2.2, handed_next]) is _ hinv hc
    rw [← emitted_map]
    exact hsum
  · -- what is settled for execution is finished, but for the current one
    have hsum := emitted_conserved Inv (fun s i => (settles p s i).flatMap toExecute) (finishes p)
      current hstep (fun s i hs ho => executes_law hn hs ho) is _ hinv hc
    rw [← emitted_flatMap]
    exact hsum
  · -- each finished command is one round of its hart
    have hsum := emitted_conserved Inv (fun s i => RunControl.events p (harts s) (hartsIn p s i))
      (fun s i => (finishes p s i).flatMap fun o => round o.hart)
      (fun s => RunControl.underWay (harts s)) hstep (fun s i hs ho => rounds_law hn hs ho) is _
      hinv hc
    rw [← emitted_flatMap]
    exact hsum

/-! ## In the whole debug module -/

/-- `dm_top` in front of the harts. -/
structure Whole (n : Nat) where
  top : DmTop.State n
  pc : Nat → Pc

/-- The pins of `dm_top`, and what there is to say about the hart whose access is on its bus. -/
structure Cycle (n w : Nat) where
  pins : DmTop.Input n w := {}
  hart : Nat := 0
  rom : Bool := false
  enters : Nat → Bool := fun _ => false

/-- The registers and the harts. -/
def part (s : Whole n) : State n := ⟨DmTop.hartSide s.top, s.pc⟩

/-- What they see of a cycle: the host of the bus and its answers are pins to them. -/
def look (s : Whole n) (i : Cycle n w) : Input n w :=
  ⟨DmTop.hartSideIn s.top i.pins, i.hart, i.rom, i.enters⟩

def reset (romAddr : Nat) (pc : Nat → Pc) : Whole n := ⟨DmTop.reset romAddr, pc⟩

def next (p : Params n) (s : Whole n) (i : Cycle n w) : Whole n :=
  { top := DmTop.next p s.top i.pins
    pc := (SystemReset.next p (part s) (look s i)).pc }

theorem part_component (p : Params n) :
    Component (next p) (SystemReset.next p) part (look (w := w)) := by
  intro s i
  show (⟨DmTop.hartSide (DmTop.next p s.top i.pins), _⟩ : State n) = _
  rw [DmTop.hartSide_component p s.top i.pins]
  rfl

/-- **Every command is refused or executed exactly once.**  In any run of the debug module with harts
    that follow the ROM, whatever the system bus does and whatever else the debugger asks for: as long
    as the debugger is steady while a command or a resume is under way and finds the state machine able
    to take what it asks for, the commands that it asked for are, in order, those that were launched or
    refused with an error, and the one that is handed over; those that were launched are, in order,
    those that a hart has brought to an end, each by the hart that was selected and with the word that
    was asked for, and the one that is under way; and the harts' stores around them are whole rounds,
    and the one that is under way. -/
theorem commands_settled (hw : w = 32 ∨ w = 64) (hn : n ≤ 1024) (p : Params n) (romAddr : Nat)
    (pc : Nat → Pc) (hpc : RunControl.Parked pc) (is : List (Cycle n w))
    (hc : Always (next p) (fun s i => Orderly p (part s) (look s i)) (reset romAddr pc) is) :
    emitted (next p) (fun s i => orders p (part s) (look s i)) (reset romAddr pc) is
        = (emitted (next p) (fun s i => settles p (part s) (look s i)) (reset romAddr pc) is).map
            Prod.fst
          ++ handed (part (run (next p) (reset romAddr pc) is)) ∧
      (emitted (next p) (fun s i => settles p (part s) (look s i)) (reset romAddr pc) is).flatMap
          toExecute
        = emitted (next p) (fun s i => finishes p (part s) (look s i)) (reset romAddr pc) is
          ++ current (part (run (next p) (reset romAddr pc) is)) ∧
      emitted (next p)
          (fun s i => RunControl.events p (harts (part s)) (hartsIn p (part s) (look s i)))
          (reset romAddr pc) is
        = (emitted (next p) (fun s i => finishes p (part s) (look s i)) (reset romAddr pc)
            is).flatMap (fun o => round o.hart)
          ++ RunControl.underWay (harts (part (run (next p) (reset romAddr pc) is))) := by
  have hpart := part_component (w := w) p
  have hsum := commands_run hw hn p romAddr hpc (seen (next p) look (reset romAddr pc) is)
    ((always_component hpart (Orderly p) is (reset romAddr pc)).mpr hc)
  have hstart : (SystemReset.reset romAddr pc : State n) = part (reset romAddr pc) := rfl
  rw [hstart, ← run_component hpart, emitted_component hpart, emitted_component hpart,
    emitted_component hpart, emitted_component hpart] at hsum
  exact hsum

/-- Two harts, in the zero page. -/
abbrev twoHarts : Params 2 := { selectableHarts := 3, dmBaseAddress := 0 }

/-- A DMI write. -/
def asks (addr : BitVec 7) (data : BitVec 32) : Cycle 2 32 :=
  { pins := { dmi := { reqValidI := true, reqI := ⟨addr, DTM_WRITE, data⟩ } } }

/-- A hart does what its ROM does next. -/
def hartDoes (h : Nat) (b : Access 32) : Cycle 2 32 :=
  { pins := { harts := { busI := b } }, hart := h, rom := true }

/-- Its store to a mailbox. -/
def stores (h : Nat) (addr : BitVec 32) : Cycle 2 32 :=
  hartDoes h { reqI := true, weI := true, addrI := addr, wdataI := BitVec.ofNat 32 h, beI := 15 }

/-- Its load of the flags. -/
def polls (h : Nat) : Cycle 2 32 :=
  hartDoes h { reqI := true, addrI := 0x400 + BitVec.ofNat 32 h }

/-- Two harts park.  Hart 0 gets a command; while it executes it, the debugger has the host write a word
    to the system bus, and hart 1 polls on.  Then hart 1 is asked for a memory access, which is refused,
    and for a register, and has just started. -/
def threeOrders : List (Cycle 2 32) :=
  [asks 0x10 1, stores 0 0x100, stores 1 0x100, asks 0x17 0x00221000, polls 1, polls 0,
    stores 0 0x104, asks 0x39 0x100, asks 0x3c 5, { pins := { master := { gntI := true } } },
    { stores 0 0x380 with rom := false }, polls 1, { pins := { master := { rValidI := true } } },
    stores 0 0x100, asks 0x10 0x00010001, asks 0x17 0x02000000, stores 1 0x100, asks 0x16 0x700,
    asks 0x17 0x00221008, {}, polls 0, polls 1, stores 1 0x104, polls 0]

/-- The first command is done, and the last one is under way. -/
theorem commands_settled_twoHarts :
    emitted (next twoHarts) (fun s i => orders twoHarts (part s) (look s i))
        (reset 0 fun _ => .entry) threeOrders
      = [⟨0, Command.ofWord 0x00221000⟩, ⟨1, Command.ofWord 0x02000000⟩,
          ⟨1, Command.ofWord 0x00221008⟩] ∧
      emitted (next twoHarts) (fun s i => finishes twoHarts (part s) (look s i))
          (reset 0 fun _ => .entry) threeOrders
        = [⟨0, Command.ofWord 0x00221000⟩] ∧
      emitted (next twoHarts)
          (fun s i =>
            RunControl.events twoHarts (harts (part s)) (hartsIn twoHarts (part s) (look s i)))
          (reset 0 fun _ => .entry) threeOrders
        = [.launch 0, .start 0, .finish 0, .launch 1, .start 1] := by
  obtain ⟨horders, hdone, hevents⟩ := commands_settled (Or.inl rfl) (by decide) twoHarts 0
    (fun _ => .entry) (fun _ => Or.inr (Or.inl rfl)) threeOrders (by decide +kernel)
  have hfates : emitted (next twoHarts) (fun s i => settles twoHarts (part s) (look s i))
      (reset 0 fun _ => .entry) threeOrders
      = [(⟨0, Command.ofWord 0x00221000⟩, .launched),
          (⟨1, Command.ofWord 0x02000000⟩, .refused CmdErrNotSupported),
          (⟨1, Command.ofWord 0x00221008⟩, .launched)] := by decide +kernel
  have hhanded : handed (part (run (next twoHarts) (reset 0 fun _ => .entry) threeOrders)) = [] := by
    decide +kernel
  have hcurrent : current (part (run (next twoHarts) (reset 0 fun _ => .entry) threeOrders))
      = [⟨1, Command.ofWord 0x00221008⟩] := by decide +kernel
  have hunder : RunControl.underWay
      (harts (part (run (next twoHarts) (reset 0 fun _ => .entry) threeOrders)))
      = [.launch 1, .start 1] := by decide +kernel
  rw [hfates, hhanded] at horders
  rw [hfates, hcurrent] at hdone
  have hfinished := List.append_cancel_right
    (show [(⟨0, Command.ofWord 0x00221000⟩ : Order)] ++ [_] = _ ++ [_] from hdone)
  rw [← hfinished, hunder] at hevents
  exact ⟨horders, hfinished.symm, hevents⟩

end RiscDbgUart.CommandSession
