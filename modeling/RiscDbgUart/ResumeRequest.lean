/-
  How long a resume request is pending.

  The request is one bit, and the acknowledges are one sticky bit per hart.  `dmstatus` reads the bit
  of the selected hart, and so does the command state machine; but the registers drop the request as
  soon as ANY bit is set.  A bit stays set until the next request for its own hart, so a hart that was
  resumed earlier ends the requests for the others, whether or not they have been seen.

  A checker remembers the hart the request is for until that hart stores to `RESUMING`, `DMControl` is
  written again, or the module is inactive.

  `kept_next_iff` is one cycle: a request that is pending and not served is still there behind it exactly
  when no acknowledge bit of any hart is set (`Unacknowledged`).  The run is the conjunction of its cycles.
-/
import RiscDbgUart.HartSelection

set_option linter.unusedVariables false

namespace RiscDbgUart.DebugModule

open Clocked
open DmMem (Params Access CtrlState)

variable {n w : Nat} {p : Params n}

/-! ## The request that is pending -/

/-- The hart a resume request is pending for: the one that the last write to `DMControl` has named with
    `resumereq`, until it stores to `RESUMING` or the register is written again.  An inactive module has
    none. -/
def seeRequest (p : Params n) (pending : Option Nat) (s : State n) (i : Input n w) : Option Nat :=
  if dmactiveO s = false then none
  else if writesDmControl p s i = true then
    if (DmControl.ofWord i.dmiReqI.data).resumereq then some (namedHart i.dmiReqI.data) else none
  else pending.filter fun h => !resumes i h

/-- A pending request is in the register. -/
def Kept (c : Option Nat × State n) : Prop :=
  c.1 ≠ none → c.2.csrs.regs.dmcontrol.resumereq = true

/-- The cycle leaves a request pending and finds the register set, so no hart has acknowledged: the
    registers drop a request for the bit of any hart. -/
def Unacknowledged (p : Params n) (c : Option Nat × State n) (i : Input n w) : Prop :=
  seeRequest p c.1 c.2 i ≠ none → c.2.csrs.regs.dmcontrol.resumereq = true →
    c.2.mem.resuming = 0

instance (c : Option Nat × State n) : Decidable (Kept c) := by unfold Kept; infer_instance

/-! ## One cycle -/

/-- The register after a cycle of an active module: what was written or there, unless it was set and a
    hart has acknowledged. -/
theorem resumereq_next {s : State n} (i : Input n w) (hact : dmactiveO s = true) :
    (next p s i).csrs.regs.dmcontrol.resumereq
      = ((if writesDmControl p s i then (DmControl.ofWord i.dmiReqI.data).resumereq
          else s.csrs.regs.dmcontrol.resumereq)
        && !(s.csrs.regs.dmcontrol.resumereq && s.mem.resuming != 0)) := by
  rw [regs_next p i hact]
  show (DmRegs.csrReadWrite s.csrs (csrsIn p s i)).d.dmcontrol.resumereq = _
  rw [DmRegs.dmcontrol_d]
  unfold DmRegs.dmcontrolOverrides writesDmControl DmRegs.writesDmControl
  rw [apply_ite DmControl.resumereq]
  rfl

/-- What a cycle leaves pending is written by it, or was pending before. -/
theorem seeRequest_ne_none {g : Option Nat} {s : State n} {i : Input n w}
    (h : seeRequest p g s i ≠ none) :
    dmactiveO s = true ∧
      if writesDmControl p s i then (DmControl.ofWord i.dmiReqI.data).resumereq = true
      else g ≠ none := by
  unfold seeRequest at h
  cases hact : dmactiveO s
  · rw [hact] at h
    exact absurd rfl h
  · rw [hact, if_neg (by decide)] at h
    refine ⟨rfl, ?_⟩
    cases hwr : writesDmControl p s i
    · -- no write: it was pending before
      rw [hwr, if_neg (by decide)] at h
      rw [if_neg (by decide)]
      intro hg
      rw [hg] at h
      exact h rfl
    · -- a write: it asks for a resume, or nothing is pending behind it
      rw [hwr, if_pos rfl] at h
      rw [if_pos rfl]
      by_contra hlow
      rw [if_neg hlow] at h
      exact h rfl

/-- **One cycle.**  It keeps the request exactly if no hart has acknowledged. -/
theorem kept_next_iff (c : Option Nat × State n) (i : Input n w) (h : Kept c) :
    Kept (watched (next p) (seeRequest p) c i) ↔ Unacknowledged p c i := by
  refine imp_congr_right fun hsee => ?_
  obtain ⟨hact, hsrc⟩ := seeRequest_ne_none hsee
  rw [watched_snd, resumereq_next i hact]
  -- the request is written, or it was in the register
  have hset : (if writesDmControl p c.2 i then (DmControl.ofWord i.dmiReqI.data).resumereq
      else c.2.csrs.regs.dmcontrol.resumereq) = true := by
    split_ifs at hsrc ⊢
    · exact hsrc
    · exact h hsrc
  rw [hset, Bool.true_and]
  cases c.2.csrs.regs.dmcontrol.resumereq
  · simp
  · simp

/-! ## Whole runs -/

/-- **A resume request stays pending, exactly.**  Along every run from reset `resumereq` is set in
    every state in which a request is pending for a hart that has not stored to `RESUMING` since, if
    and only if no acknowledge of any hart is there while `resumereq` is set and the request goes
    on. -/
theorem resume_request_kept_iff (p : Params n) (romAddr : Nat) (is : List (Input n w)) :
    Throughout (watched (next p) (seeRequest p)) Kept (none, reset romAddr) is ↔
      Always (watched (next p) (seeRequest p)) (Unacknowledged p) (none, reset romAddr) is :=
  throughout_iff_always _ Kept (Unacknowledged p) kept_next_iff is _ fun h => absurd rfl h

/-- Hart 0 resumes, and then hart 1 is selected and asked to resume: the acknowledge of hart 0 ends the
    request. -/
theorem request_dropped_by_other_hart : ¬ Throughout (watched (next twoHarts) (seeRequest twoHarts)) Kept
    (none, reset 0)
    [dmControlWrite 1, hartStores 0x100 0, hartStores 0x100 1, dmControlWrite 0x40000001, {},
      hartStores 0x108 0, {}, dmControlWrite 0x00010001, dmControlWrite 0x40010001, {}] := by
  decide

end RiscDbgUart.DebugModule
