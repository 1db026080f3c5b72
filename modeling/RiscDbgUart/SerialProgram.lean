/-
  A program, from the serial line to the harts.

  A debugger that only loads starts no command and resumes nobody, so nothing it writes is refused and
  the registers follow its requests one by one: `loaded` is what the requests so far have left, and
  `Loading` says that the debug module agrees.  The harts may do whatever they like meanwhile, which is why
  `Loading` speaks of the whole debug module: nothing that they store can make it busy.

  Over the serial line the requests are those of a session (`DebugSession`), and what the harts fetch
  from the program buffer after it is the program that the session has sent.

  The steps of the argument:

  * `no_request`, `loading_quiet` — none of the writes that `Loads` allows asks for a command or a resume,
    and the autoexec registers stay zero, so the command state machine is idle in every cycle;
  * `edit_taken`   — hence a write of the program buffer is taken and not refused;
  * `loading_next` — one cycle, for a debug module that agrees with the requests so far;
  * `loading_run`  — a run, with what the debugger reads back (`Echoed`);
  * `loading_carried` — the same for the debug module inside the system on the serial line.
-/
import RiscDbgUart.DebugSession
import RiscDbgUart.HartSelection
import RiscDbgUart.ProgramBuffer

set_option linter.unusedVariables false

/-! ## A debugger that only loads -/

namespace RiscDbgUart.ProgramBuffer

open Clocked Riscv
open DmMem (Params ProgBufBaseAddr)
open DmFetch (dmAddr fetched)

variable {n w f : Nat} {p : Params n} {s : DmTop.State n} {i : DmTop.Input n w}

/-- The request asks for no command, now or later, nor for a hart to resume: it may clear the autoexec
    bits, but it sets none. -/
def Loads (q : DmiReq) : Prop :=
  q.op = DTM_WRITE → DmCsr.ofAddr q.addr ≠ .command ∧
    (DmCsr.ofAddr q.addr = .abstractAuto →
      (DmRegs.writtenAuto q.data).autoexecdata = 0 ∧
        (DmRegs.writtenAuto q.data).autoexecprogbuf = 0) ∧
    (DmCsr.ofAddr q.addr = .dmControl → (DmControl.ofWord q.data).resumereq = false)

instance (q : DmiReq) : Decidable (Loads q) := inferInstanceAs (Decidable (_ → _))

/-- Whether the module is active, and the program. -/
structure Loaded where
  active : Bool
  program : Program

/-- A request.  A write to `DMControl` decides whether the module is active, and clears the program if it
    is not; a write to a word of the program buffer counts while it is active. -/
def Loaded.request (l : Loaded) (q : DmiReq) : Loaded :=
  if q.op == DTM_WRITE then
    match DmCsr.ofAddr q.addr with
    | .dmControl =>
      { active := (DmControl.ofWord q.data).dmactive
        program := if (DmControl.ofWord q.data).dmactive then l.program else fun _ => 0 }
    | .progBuf k =>
      { l with program := if l.active then Function.update l.program k q.data else l.program }
    | _ => l
  else l

/-- What the requests leave, from the reset on. -/
def loaded (qs : List DmiReq) : Loaded := qs.foldl Loaded.request ⟨false, fun _ => 0⟩

theorem loaded_append (qs qs' : List DmiReq) :
    loaded (qs ++ qs') = qs'.foldl Loaded.request (loaded qs) := List.foldl_append

/-- The request that is accepted in a cycle. -/
def taken (s : DmTop.State n) (i : DmTop.Input n w) : List DmiReq :=
  if DmTop.accepts s i then [i.dmi.reqI] else []

/-- The debug module agrees, and is not busy and will not be: no command is on its way, no resume is
    asked for, and no autoexec bit is set. -/
structure Loading (l : Loaded) (s : DmTop.State n) : Prop where
  idle : s.mem.state = .Idle
  silent : s.csrs.regs.cmdValid = false
  noResume : s.csrs.regs.dmcontrol.resumereq = false
  autoData : s.csrs.regs.abstractauto.autoexecdata = 0
  autoProgbuf : s.csrs.regs.abstractauto.autoexecprogbuf = 0
  active : dmactiveO s = l.active
  program : l.active = true → Holds l.program s
  cleared : l.active = false → l.program = fun _ => 0

theorem loading_reset (romAddr : Nat) : Loading (loaded []) (DmTop.reset romAddr : DmTop.State n) where
  idle := rfl
  silent := rfl
  noResume := rfl
  autoData := rfl
  autoProgbuf := rfl
  active := rfl
  program := fun h => absurd h Bool.false_ne_true
  cleared := fun _ => rfl

/-! ### The registers that could start something -/

/-- An accepted write is the request of the cycle. -/
theorem writes_taken (h : DmRegs.writes s.csrs (DmTop.csrsIn p s i) = true) :
    i.dmi.reqI ∈ taken s i ∧ i.dmi.reqI.op = DTM_WRITE := by
  rw [DmRegs.writes, Bool.and_eq_true, beq_iff_eq] at h
  have hacc : DmTop.accepts s i = true := h.1
  rw [taken, hacc]
  exact ⟨List.mem_singleton_self _, h.2⟩

/-- No autoexec bit is set, by a write to `AbstractAuto` or without one: such a write may only write
    zeros to them. -/
theorem no_autoexec {l : Loaded} (h : Loading l s) (hq : ∀ q ∈ taken s i, Loads q) :
    (DmRegs.csrReadWrite s.csrs (DmTop.csrsIn p s i)).d.abstractauto.autoexecdata = 0 ∧
      (DmRegs.csrReadWrite s.csrs (DmTop.csrsIn p s i)).d.abstractauto.autoexecprogbuf = 0 := by
  rw [DmRegs.abstractauto_d]
  split_ifs with hover
  · -- the write of the cycle is one that sets none
    rw [DmRegs.overwrites, Bool.and_eq_true, Bool.and_eq_true, beq_iff_eq] at hover
    obtain ⟨hmem, hop⟩ := writes_taken hover.1.1
    exact (hq _ hmem hop).2.1 hover.1.2
  · exact ⟨h.autoData, h.autoProgbuf⟩

/-- Nothing asks for a command: there is no write to `Command`, and no access of a register executes
    one by itself. -/
theorem no_request {l : Loaded} (h : Loading l s) (hq : ∀ q ∈ taken s i, Loads q) :
    DmRegs.requestsCommand s.csrs (DmTop.csrsIn p s i) = false := by
  have haddr : DmRegs.dmCsrAddr (DmTop.csrsIn p s i) = DmCsr.ofAddr i.dmi.reqI.addr := rfl
  have hzero {k : Nat} (j : Nat) : (0 : BitVec k).getLsbD j = false := BitVec.getLsbD_zero
  unfold DmRegs.requestsCommand
  cases hc : DmRegs.dmCsrAddr (DmTop.csrsIn p s i) with
  -- the debugger writes no command
  | command =>
    by_contra hw
    obtain ⟨hmem, hop⟩ := writes_taken (Bool.eq_true_of_not_eq_false hw)
    exact (hq _ hmem hop).1 (haddr.symm.trans hc)
  -- and the registers of the automatic ones are zero
  | data k =>
    have hauto : DmRegs.autoexecData s.csrs k = false := by
      rw [DmRegs.autoexecData, h.autoData]
      exact hzero _
    exact Bool.and_eq_false_iff.mpr (Or.inr hauto)
  | progBuf k =>
    have hauto : DmRegs.autoexecProgbuf s.csrs k = false := by
      rw [DmRegs.autoexecProgbuf, h.autoProgbuf]
      exact hzero _
    exact Bool.and_eq_false_iff.mpr (Or.inr hauto)
  | _ => rfl

/-- The module stays idle, whatever the harts store: to leave `Idle` takes a command or a resume. -/
theorem loading_idle {l : Loaded} (h : Loading l s) : (DmTop.next p s i).mem.state = .Idle := by
  have hresume : (DmRegs.resumereqO s.csrs.regs).getLsbD (DmMem.hartsel (memIn p s i)) = false := by
    by_contra hline
    rw [Bool.not_eq_false, DmRegs.resumereqO] at hline
    by_cases hk : DmMem.hartsel (memIn p s i) < n
    · have hset := (DmRegs.setBit_line hk hline).2
      rw [h.noResume] at hset
      cases hset
    · rw [BitVec.getLsbD_of_ge _ _ (by omega)] at hline
      cases hline
  show DmMem.stateD p s.mem (memIn p s i) = .Idle
  have hvalid : (memIn p s i).cmdValidI = false := h.silent
  have hwants : DmMem.wantsResume s.mem (memIn p s i) = false := by
    rw [DmMem.wantsResume]
    show ((DmRegs.resumereqO s.csrs.regs).getLsbD _ && _ && _ && _) = false
    rw [hresume]
    rfl
  unfold DmMem.stateD
  rw [h.idle, hvalid, hwants]
  rfl

/-- The registers after a cycle, as far as a command or a resume could come from them.  It is the
    invariant without the program. -/
theorem loading_quiet {l : Loaded} (h : Loading l s) (hq : ∀ q ∈ taken s i, Loads q) :
    (DmTop.next p s i).csrs.regs.cmdValid = false ∧
      (DmTop.next p s i).csrs.regs.dmcontrol.resumereq = false ∧
      (DmTop.next p s i).csrs.regs.abstractauto.autoexecdata = 0 ∧
      (DmTop.next p s i).csrs.regs.abstractauto.autoexecprogbuf = 0 := by
  have hregs : (DmTop.next p s i).csrs.regs
      = DmRegs.nextRegs p.selectableHarts s.csrs (DmTop.csrsIn p s i) := rfl
  cases hact : s.csrs.regs.dmcontrol.dmactive with
  | false =>
    -- an inactive module holds its registers at zero
    rw [hregs, DmRegs.nextRegs_inactive _ _ _ hact]
    exact ⟨rfl, rfl, rfl, rfl⟩
  | true =>
    have hcmd := DmRegs.cmdValid_d s.csrs (DmTop.csrsIn p s i)
    rw [no_request h hq, Bool.false_and] at hcmd
    -- a write to `DMControl` could ask for a resume, but a debugger that loads a program
    -- does not write one that does
    have hcontrol : (DmRegs.csrReadWrite s.csrs (DmTop.csrsIn p s i)).d.dmcontrol.resumereq = false := by
      rw [DmRegs.dmcontrol_d, DmRegs.dmcontrolOverrides]
      refine Bool.and_eq_false_iff.mpr (Or.inl ?_)
      split_ifs with hw
      · rw [Bool.and_eq_true, beq_iff_eq] at hw
        obtain ⟨hmem, hop⟩ := writes_taken hw.1
        exact (hq _ hmem hop).2.2 hw.2
      · exact h.noResume
    rw [hregs, DmRegs.nextRegs_active _ _ _ hact]
    exact ⟨hcmd, hcontrol, no_autoexec h hq⟩

/-- The module is active when the last write to `DMControl` has said so.  No other request touches the
    bit. -/
theorem dmactive_next (p : Params n) (s : DmTop.State n) (i : DmTop.Input n w) {l : Loaded}
    (h : dmactiveO s = l.active) :
    dmactiveO (DmTop.next p s i) = ((taken s i).foldl Loaded.request l).active := by
  -- `dmactive` is the one bit that an inactive module takes too
  have hd : dmactiveO (DmTop.next p s i)
      = (DmRegs.csrReadWrite s.csrs (DmTop.csrsIn p s i)).d.dmcontrol.dmactive := by
    show (DmRegs.nextRegs p.selectableHarts s.csrs (DmTop.csrsIn p s i)).dmcontrol.dmactive = _
    cases hact : s.csrs.regs.dmcontrol.dmactive with
    | false => rw [DmRegs.nextRegs_inactive _ _ _ hact]
    | true => rw [DmRegs.nextRegs_active _ _ _ hact]
  have hwrites : DmRegs.writes s.csrs (DmTop.csrsIn p s i)
      = (DmTop.accepts s i && i.dmi.reqI.op == DTM_WRITE) := rfl
  have haddr : DmRegs.dmCsrAddr (DmTop.csrsIn p s i) = DmCsr.ofAddr i.dmi.reqI.addr := rfl
  rw [hd, DmRegs.dmcontrol_d, hwrites, haddr, taken]
  -- no request, no write, or a write: only one to `DMControl` moves the bit
  cases hacc : DmTop.accepts s i
  · exact h
  · rw [Bool.true_and, if_pos rfl, List.foldl_cons, List.foldl_nil, Loaded.request]
    cases hop : i.dmi.reqI.op == DTM_WRITE
    · exact h
    · rw [if_pos rfl]
      cases hc : DmCsr.ofAddr i.dmi.reqI.addr with
      | dmControl => rfl
      | _ => exact h

/-- What the debugger makes of the program in a cycle is what the requests of the cycle make of it: the
    module is idle, so no write is refused. -/
theorem edit_taken {l : Loaded} (h : Loading l s) (hact : l.active = true)
    (hstays : ((taken s i).foldl Loaded.request l).active = true) :
    edit l.program s i = ((taken s i).foldl Loaded.request l).program := by
  have hbusy : DmMem.cmdbusyO s.mem = false := by rw [DmMem.cmdbusyO, h.idle]; rfl
  have hdm : dmactiveO s = true := h.active.trans hact
  have hword (k : Fin ProgBufSize) : writesWord s i k
      = (DmTop.accepts s i && i.dmi.reqI.op == DTM_WRITE && DmCsr.ofAddr i.dmi.reqI.addr == .progBuf k) := by
    rw [writesWord, hbusy, Bool.not_false, Bool.and_true]
  funext k
  rw [edit, hdm, if_pos rfl, hword]
  rw [taken] at hstays ⊢
  cases hacc : DmTop.accepts s i
  · rfl
  · rw [hacc, if_pos rfl, List.foldl_cons, List.foldl_nil, Loaded.request] at hstays
    rw [if_pos rfl, List.foldl_cons, List.foldl_nil, Loaded.request]
    cases hop : i.dmi.reqI.op == DTM_WRITE
    · rfl
    · rw [hop, if_pos rfl] at hstays
      rw [if_pos rfl]
      cases hc : DmCsr.ofAddr i.dmi.reqI.addr with
      -- a word of the program: the one that is named changes, the others stay
      | progBuf j =>
        show (if (DmCsr.progBuf j == DmCsr.progBuf k) = true then _ else _)
          = (if l.active = true then Function.update l.program j i.dmi.reqI.data else l.program) k
        rw [hact, if_pos rfl, Function.update_apply]
        by_cases hkj : k = j
        · subst hkj
          rw [if_pos rfl, if_pos (beq_self_eq_true _)]
        · have hne : ¬ (DmCsr.progBuf j == DmCsr.progBuf k) = true := by
            rw [beq_iff_eq]
            exact fun heq => hkj (DmCsr.progBuf.inj heq).symm
          rw [if_neg hkj, if_neg hne]
      -- a write to `DMControl` that leaves the module active keeps the program
      | dmControl =>
        rw [hc] at hstays
        have hon : (DmControl.ofWord i.dmi.reqI.data).dmactive = true := hstays
        show l.program k = (if (DmControl.ofWord i.dmi.reqI.data).dmactive = true then l.program else _) k
        rw [if_pos hon]
      | _ => rfl

/-- A module that is not active has no program, before a request or behind it. -/
theorem request_cleared {l : Loaded} (h : l.active = false → l.program = fun _ => 0) (q : DmiReq) :
    l.active = false ∨ (l.request q).active = false → (l.request q).program = fun _ => 0 := by
  unfold Loaded.request
  cases q.op == DTM_WRITE
  · -- no write: nothing changes
    intro hoff
    exact h (hoff.elim id id)
  · rw [if_pos rfl]
    cases DmCsr.ofAddr q.addr with
    | dmControl =>
      -- inactive before, so the program was clear; or inactive after, so it is cleared
      rintro (hoff | hoff)
      · show (if _ then l.program else _) = _
        rw [h hoff, ite_self]
      · exact if_neg (Bool.eq_false_iff.mp hoff)
    -- an inactive module takes no word of the program
    | progBuf k =>
      intro hoff
      have hoff' : l.active = false := hoff.elim id id
      show (if l.active = true then _ else l.program) = _
      rw [if_neg (Bool.eq_false_iff.mp hoff'), h hoff']
    | _ =>
      intro hoff
      exact h (hoff.elim id id)

/-- **One cycle** of a debugger that only loads, whatever the harts and the system bus do in it. -/
theorem loading_next (p : Params n) {l : Loaded} (h : Loading l s) (hq : ∀ q ∈ taken s i, Loads q) :
    Loading ((taken s i).foldl Loaded.request l) (DmTop.next p s i) := by
  obtain ⟨hvalid, hresume, hdata, hprogbuf⟩ := loading_quiet (p := p) h hq
  have hactive := dmactive_next p s i h.active
  have hcleared : l.active = false ∨ ((taken s i).foldl Loaded.request l).active = false →
      ((taken s i).foldl Loaded.request l).program = fun _ => 0 := by
    rw [taken]
    split_ifs with hacc
    · exact request_cleared h.cleared i.dmi.reqI
    · intro hoff
      exact h.cleared (hoff.elim id id)
  refine ⟨loading_idle h, hvalid, hresume, hdata, hprogbuf, hactive, ?_,
    fun hoff => hcleared (Or.inr hoff)⟩
  intro hstays
  cases hact : l.active with
  | true =>
    rw [← edit_taken h hact hstays]
    exact holds_next p i (h.program hact)
  | false =>
    -- the register is being cleared, whatever was in it
    have hany : Holds (fun k => getWord s.csrs.regs.progbuf k) s := fun k => rfl
    have hnext := holds_next p i hany
    have hoff : dmactiveO s = false := h.active.trans hact
    rw [hcleared (Or.inl hact)]
    intro k
    rw [hnext k, edit, hoff, if_neg Bool.false_ne_true]

/-! ### What it reads back -/

/-- The answers to reads of the program are what the requests before them have left. -/
def Echoed (answers : List (DmiReq × BitVec 32)) : Prop :=
  ∀ pre q x k, pre ++ [(q, x)] <+: answers → q.op = DTM_READ → DmCsr.ofAddr q.addr = .progBuf k →
    (loaded (pre.map Prod.fst)).active = true → x = (loaded (pre.map Prod.fst)).program k

/-- The answers with one more, which has to be right if it answers a read of the program. -/
theorem echoed_append {answers : List (DmiReq × BitVec 32)} {a : DmiReq × BitVec 32} (h : Echoed answers)
    (ha : ∀ k, a.1.op = DTM_READ → DmCsr.ofAddr a.1.addr = .progBuf k →
      (loaded (answers.map Prod.fst)).active = true → a.2 = (loaded (answers.map Prod.fst)).program k) :
    Echoed (answers ++ [a]) := by
  intro pre q x k hpre hop haddr hact
  rcases List.prefix_concat_iff.mp hpre with heq | hearlier
  · obtain ⟨rfl, hlast⟩ := List.append_inj' heq rfl
    obtain rfl : (q, x) = a := (List.cons.inj hlast).1
    exact ha k hop haddr hact
  · exact h pre q x k hearlier hop haddr hact

/-- The request that is accepted in a cycle, with the word that answers it. -/
def answers (p : Params n) (s : DmTop.State n) (i : DmTop.Input n w) : List (DmiReq × BitVec 32) :=
  if DmTop.accepts s i then
    [(i.dmi.reqI, (DmRegs.csrReadWrite s.csrs (DmTop.csrsIn p s i)).respQueueData)]
  else []

theorem answers_fst (p : Params n) (s : DmTop.State n) (i : DmTop.Input n w) :
    (answers p s i).map Prod.fst = taken s i := by
  unfold answers taken
  split_ifs <;> rfl

/-- **One cycle**: the program is what the requests have left, and the answers say so.  A read is answered
    from the registers before the cycle, which is what the earlier requests have left. -/
theorem echoed_step (p : Params n) (l : List (DmiReq × BitVec 32)) (s : DmTop.State n)
    (i : DmTop.Input n w) (h : Loading (loaded (l.map Prod.fst)) s ∧ Echoed l)
    (hq : ∀ q ∈ taken s i, Loads q) :
    Loading (loaded ((l ++ answers p s i).map Prod.fst)) (DmTop.next p s i) ∧
      Echoed (l ++ answers p s i) := by
  constructor
  · rw [List.map_append, loaded_append, answers_fst]
    exact loading_next p h.1 hq
  · rw [answers]
    split_ifs with hacc
    · refine echoed_append h.2 ?_
      intro k hop haddr hact
      exact read_program p (h.1.program hact) hacc hop haddr
    · rw [List.append_nil]
      exact h.2

/-- **A run** of the debug module whose requests only load, whatever the harts and the system bus do.
    It starts with the reset, where there is no program. -/
theorem loading_run (p : Params n) (romAddr : Nat) (is : List (DmTop.Input n w))
    (hloads : ∀ q ∈ emitted (DmTop.next p) taken (DmTop.reset romAddr) is, Loads q) :
    Loading (loaded (emitted (DmTop.next p) taken (DmTop.reset romAddr) is))
        (run (DmTop.next p) (DmTop.reset romAddr) is) ∧
      Echoed (emitted (DmTop.next p) (answers p) (DmTop.reset romAddr) is) := by
  have hempty : Echoed [] := fun pre q x k hpre _ _ _ =>
    absurd (List.prefix_nil.mp hpre) (List.append_ne_nil_of_right_ne_nil _ (List.cons_ne_nil _ _))
  have hend := history_of_step
    (fun l (s : DmTop.State n) => Loading (loaded (l.map Prod.fst)) s ∧ Echoed l)
    (fun s i => ∀ q ∈ taken s i, Loads q) (echoed_step p) is [] (DmTop.reset romAddr)
    ⟨loading_reset romAddr, hempty⟩ (always_of_emitted _ _ _ _ _ hloads)
  rw [List.nil_append, ← emitted_map] at hend
  simp only [answers_fst] at hend
  exact hend

end RiscDbgUart.ProgramBuffer

/-! ## Over the serial line -/

namespace RiscDbgUart.UartDtmTop

open Clocked DmiUartTap Riscv
open DmMem (Params ProgBufBaseAddr)
open DmFetch (dmAddr fetched)
open ProgramBuffer (Loads Loading Echoed loaded words)

variable {n w : Nat} {r : Rates} {esc : Byte} {p : Params n} {s : State n}

/-- The debug module behind the line loads as it does on its own: the requests it accepts come from the
    bridge, and where they come from does not matter. -/
theorem loading_carried (r : Rates) (esc : Byte) (p : Params n) (romAddr : Nat) (s : State n)
    (i₀ : Input n w) (is : List (Input n w))
    (hloads : ∀ q ∈ emitted (next r esc p) accepted (reset r romAddr s i₀) is, Loads q) :
    Loading (loaded (emitted (next r esc p) accepted (reset r romAddr s i₀) is))
        (run (next r esc p) (reset r romAddr s i₀) is).dm ∧
      Echoed (emitted (next r esc p) (answered p) (reset r romAddr s i₀) is) := by
  have hpart := dm_component (w := w) r esc p
  have htaken : emitted (next r esc p) accepted (reset r romAddr s i₀) is = _ :=
    (emitted_component hpart ProgramBuffer.taken is (reset r romAddr s i₀)).symm
  have hanswers : emitted (next r esc p) (answered p) (reset r romAddr s i₀) is = _ :=
    (emitted_component hpart (ProgramBuffer.answers p) is (reset r romAddr s i₀)).symm
  rw [htaken] at hloads ⊢
  rw [hanswers, run_component hpart is (reset r romAddr s i₀)]
  exact ProgramBuffer.loading_run p romAddr _ hloads

/-- **A program that is sent over the serial line is the one that the harts execute.**  After a session
    that starts no command every hart finds the words of the session in the program buffer, in every
    cycle, and every word that the session has read back was the one that it had written last.

    The session is one of `session_answered`: at least 24 cycles per bit, 20 idle cycles behind every
    DMI word and 160 idle bit times behind every read, no reads of the `STB` registers, and silent
    `STB` targets.  It may write any register but `Command`, may not set an autoexec bit or ask for a
    resume, and leaves the module active. -/
theorem program_sent (hr : UartTx.Workable r)
    (hread : cmdOf esc ≠ CMD_READ) (hwrite : cmdOf esc ≠ CMD_WRITE) (p : Params n)
    (hw : w = 32 ∨ w = 64) (hpage : 4096 ∣ p.dmBaseAddress.toNat) (romAddr : Nat) (s : State n)
    (i₀ : Input n w)
    (hnobody : ReadInterconnect.validAddress (DtmUart.devices s.dtm (dtmIn s i₀)) = ADDR_NOP)
    {items : List Item} {is : List (Input n w)} (hlocal : ∀ it ∈ items, it.Local)
    (hsession : Session r esc items (line is)) (hsilent : ∀ i ∈ is, DtmUart.Silent { stbI := i.stbI })
    (hloads : ∀ q ∈ items.flatMap Item.requests, Loads q)
    (hactive : (loaded (items.flatMap Item.requests)).active = true) :
    Echoed (emitted (next r esc p) (answered p) (reset r romAddr s i₀) is) ∧
      ∀ i : Input n w,
        Contains (fetched p (run (next r esc p) (reset r romAddr s i₀) is).dm.mem
            (ProgramBuffer.memIn p (run (next r esc p) (reset r romAddr s i₀) is).dm
              (dmIn (run (next r esc p) (reset r romAddr s i₀) is) i)))
          (dmAddr w p ProgBufBaseAddr) (words (loaded (items.flatMap Item.requests)).program) := by
  -- the line, with four more cycles of it
  let pads : List (Input n w) := List.replicate 4 {}
  have hwhole : line (is ++ pads) = line is ++ List.replicate (4 + 0) true := by
    rw [line_append]
    rfl
  have hquiet : ∀ i ∈ is ++ pads, DtmUart.Silent { stbI := i.stbI } := by
    intro i hi
    rcases List.mem_append.mp hi with hi | hi
    · exact hsilent i hi
    · rw [List.eq_of_mem_replicate hi]
      exact ⟨rfl, rfl, rfl, rfl⟩
  have hclear := clear_framed hr esc p romAddr s i₀ (session_framed hsession) hwhole hquiet
  rw [always_append] at hclear
  obtain ⟨st', answers, -, hans, hreqs, -, -⟩ := session_run hr hread hwrite romAddr i₀
    hsession (between_reset r esc p romAddr s i₀ hnobody) hlocal rfl hclear.1
  have hall : emitted (next r esc p) accepted (reset r romAddr s i₀) is = items.flatMap Item.requests := by
    rw [← hreqs, ← hans, ← emitted_map]
    simp only [answered_fst]
    rfl
  obtain ⟨hloading, hechoed⟩ :=
    loading_carried r esc p romAddr s i₀ is (by rw [hall]; exact hloads)
  rw [hall] at hloading
  refine ⟨hechoed, ?_⟩
  intro i
  exact (ProgramBuffer.right_of_holds (f := 0) p hw hpage (hloading.program hactive) _).code

/-- The module is activated, its autoexec bits are cleared, and it gets a program of two instructions, of
    which the first is read back. -/
def loadItems : List Item :=
  [.write 0x4000000006, .write 0x6000000002, .write 0x800052124E, .write 0x84004001CE,
    .write 0x8000000001]

/-- The system after it. -/
def afterLoad : State 1 := run (next ⟨48000000, 2000000⟩ ESC oneHart)
  (reset ⟨48000000, 2000000⟩ 0 powerUp ({} : Input 1 32)) (cyclesOf loadItems)

/-- Behind the session of `loadItems` a hart finds its two instructions at the start of the program
    buffer, and zeros behind them. -/
theorem program_sent_two :
    Contains (fetched oneHart afterLoad.dm.mem
        (ProgramBuffer.memIn oneHart afterLoad.dm (dmIn afterLoad ({} : Input 1 32))))
      (dmAddr 32 oneHart ProgBufBaseAddr) [0x00148493, 0x00100073, 0, 0, 0, 0, 0, 0] := by
  have hrates : UartTx.Workable ⟨48000000, 2000000⟩ := by
    constructor <;> decide
  have hsession : Session ⟨48000000, 2000000⟩ ESC loadItems (line (cyclesOf loadItems)) := by
    rw [cyclesOf, line_onLine]
    exact session_lineOf _ _ _
  have hlocal : ∀ it ∈ loadItems, it.Local := by
    intro it hit
    simp only [loadItems, List.mem_cons, List.not_mem_nil, or_false] at hit
    rcases hit with rfl | rfl | rfl | rfl | rfl <;> trivial
  have hcode : words (loaded (loadItems.flatMap Item.requests)).program
      = [0x00148493, 0x00100073, 0, 0, 0, 0, 0, 0] := by decide
  have hsent := (program_sent hrates (by decide) (by decide) oneHart (Or.inl rfl) (by decide) 0 powerUp {}
    (by decide) hlocal hsession (silent_onLine _) (by decide) (by decide)).2 {}
  rw [hcode] at hsent
  unfold afterLoad
  exact hsent

end RiscDbgUart.UartDtmTop
