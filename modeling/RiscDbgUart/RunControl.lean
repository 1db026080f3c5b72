/-
  The command state machine and the harts behind it.

  A hart in debug mode runs the debug ROM: it stores its number to `HALTED`, polls its flag byte for
  `go`, polls it again for `resume`, and starts over.  On `go` it stores to `GOING`, runs the command
  and comes back to its `HALTED` store; on `resume` it stores to `RESUMING` and leaves.  Any number of
  harts share the bus, one access a cycle; between two accesses of one hart any number of accesses of
  the others may lie.

  A hart is its program counter, reduced to the mailbox store or flag load the ROM does next.  Accesses
  that are neither (fetches, the loads and stores of the command) can come at any time and leave it.

  The state machine moves on three kinds of store, and two of them carry no hart number.  What makes the
  number superfluous is the invariant: a hart that has seen `go` is the selected one and the machine is
  still in `Go`; a hart is in the command exactly if it is the selected one and the machine is in
  `CmdExecuting`; a hart that has seen `resume` is the selected one and the machine is in `Resume`.

  The module goes from the bus to the rounds:

  * a mailbox store on the bus is a store of the hart that is at it, and names it (`mailbox_store`,
    `going_iff`, `halted_iff`);
  * the flag that a hart polls is set for the selected one in one state of the machine
    (`flags_go`, `flags_resume`);
  * `Inv` joins harts and machine, and one cycle keeps it (`inv_next`), with a lemma for each place that a
    hart can get to;
  * the events of a cycle are part of a round (`events_law`), so the events of a run are rounds, one for
    each command, and the round that is under way.
-/
import RiscDbgUart.Clocked.Machine
import RiscDbgUart.HartFlags

set_option linter.unusedVariables false

namespace RiscDbgUart.RunControl

open Clocked
open DmMem (Params Access CtrlState)

variable {n w : Nat}

/-! ## Harts -/

/-- What the hart does next in the ROM, of the things that the debug module can see. -/
inductive Pc where
  /-- not in debug mode -/
  | outside
  /-- `entry_loop`: the store to `HALTED` -/
  | entry
  /-- the load of the flags for `FLAG_GO` -/
  | pollGo
  /-- the load of the flags for `FLAG_RESUME` -/
  | pollResume
  /-- `going`: the store to `GOING` -/
  | going
  /-- the command; then the store to `HALTED` again -/
  | command
  /-- `_resume`: the store to `RESUMING` -/
  | resuming
deriving DecidableEq, Repr

/-- A store of the hart's number. -/
def storesId (h : Nat) (a : BitVec 12) (b : Access w) : Prop :=
  b.storesTo a = true ∧ b.wdataI.toNat % 2 ^ 32 = h

/-- The access is the one the ROM does next.  Both stores to `HALTED` carry the number of the hart, and
    the store to `GOING` need not. -/
def Pc.does (h : Nat) (b : Access w) : Pc → Prop
  | .outside => False
  | .entry => storesId h DmMem.HaltedAddr b
  | .pollGo => DmMem.loadsFlag h b
  | .pollResume => DmMem.loadsFlag h b
  | .going => b.storesTo DmMem.GoingAddr = true
  | .command => storesId h DmMem.HaltedAddr b
  | .resuming => storesId h DmMem.ResumingAddr b

/-- Any other access: no mailbox store, except that a command may raise an exception. -/
def Pc.mayDo (b : Access w) (pc : Pc) : Prop :=
  b.storesTo DmMem.HaltedAddr = false ∧ b.storesTo DmMem.GoingAddr = false ∧
    b.storesTo DmMem.ResumingAddr = false ∧
    (b.storesTo DmMem.ExceptionAddr = true → pc = .command)

/-- Where the ROM goes after it, `flags` being the byte that was loaded: bit 0 is `FLAG_GO`, bit 1 is
    `FLAG_RESUME`. -/
def Pc.after (flags : Byte) : Pc → Pc
  | .outside => .outside
  | .entry => .pollGo
  | .pollGo => if flags.getLsbD 0 then .going else .pollResume
  | .pollResume => if flags.getLsbD 1 then .resuming else .entry
  | .going => .command
  | .command => .pollGo
  | .resuming => .outside

theorem Pc.after_going (f : Byte) (pc : Pc) :
    pc.after f = .going ↔ pc = .pollGo ∧ f.getLsbD 0 = true := by
  cases pc <;> unfold Pc.after <;> cases f.getLsbD 0 <;> cases f.getLsbD 1 <;> decide

theorem Pc.after_resuming (f : Byte) (pc : Pc) :
    pc.after f = .resuming ↔ pc = .pollResume ∧ f.getLsbD 1 = true := by
  cases pc <;> unfold Pc.after <;> cases f.getLsbD 0 <;> cases f.getLsbD 1 <;> decide

theorem Pc.after_command (f : Byte) (pc : Pc) : pc.after f = .command ↔ pc = .going := by
  cases pc <;> unfold Pc.after <;> cases f.getLsbD 0 <;> cases f.getLsbD 1 <;> decide

instance (h : Nat) (a : BitVec 12) (b : Access w) : Decidable (storesId h a b) := by
  unfold storesId; infer_instance

instance (h : Nat) (b : Access w) (pc : Pc) : Decidable (pc.does h b) := by
  cases pc <;> unfold Pc.does <;> infer_instance

instance (b : Access w) (pc : Pc) : Decidable (pc.mayDo b) := by
  unfold Pc.mayDo; infer_instance

/-! ## The harts on the bus of the debug module -/

/-- The program counters, and the hart select of the cycle before. -/
structure State (n : Nat) where
  mem : DmMem.State n
  pc : Nat → Pc
  hartsel : BitVec 20

/-- The pins of the debug module with the bus access of the cycle; the hart that does it, whether it is
    the one its ROM does next, and the harts that enter debug mode. -/
structure Input (n w : Nat) where
  memI : DmMem.Input n w
  hart : Nat
  rom : Bool
  enters : Nat → Bool

/-- The selected hart of the cycle before. -/
def selected (s : State n) : Nat := selectHart n s.hartsel

/-- The hart's ROM moves on in this cycle. -/
def advances (i : Input n w) (h : Nat) : Bool := i.memI.busI.reqI && i.rom && h == i.hart

/-- A load's answer is on the bus one cycle after it. -/
def nextPc (p : Params n) (s : State n) (i : Input n w) (h : Nat) : Pc :=
  if advances i h then
    (s.pc h).after (DmMem.flagByte h (DmMem.rdataO p w (DmMem.next p s.mem i.memI)))
  else if s.pc h = .outside ∧ i.enters h = true then .entry
  else s.pc h

def next (p : Params n) (s : State n) (i : Input n w) : State n :=
  { mem := DmMem.next p s.mem i.memI
    pc := nextPc p s i
    hartsel := i.memI.hartselI }

/-- The cycle's access is one its hart may do, and the hart select is that of the cycle before unless
    the state machine is idle. -/
def Follows (s : State n) (i : Input n w) : Prop :=
  (i.memI.busI.reqI = true → i.hart < n ∧
    if i.rom then (s.pc i.hart).does i.hart i.memI.busI else (s.pc i.hart).mayDo i.memI.busI) ∧
  (s.mem.state ≠ .Idle → i.memI.hartselI = s.hartsel)

instance (s : State n) (i : Input n w) : Decidable (Follows s i) := by
  unfold Follows; infer_instance

/-- After reset of the debug module; the harts are in the ROM's loop or outside. -/
def reset (romAddr : Nat) (pc : Nat → Pc) : State n :=
  { mem := DmMem.reset romAddr, pc := pc, hartsel := 0 }

/-- Where a hart can be when the debug module comes out of reset. -/
def Parked (pc : Nat → Pc) : Prop :=
  ∀ h, pc h = .outside ∨ pc h = .entry ∨ pc h = .pollGo ∨ pc h = .pollResume

/-! ## What happens to a command -/

inductive Event where
  /-- the state machine leaves `Idle` for `Go`, for this hart -/
  | launch (h : Nat)
  /-- the hart stores to `GOING` and starts the command -/
  | start (h : Nat)
  /-- the hart stores to `HALTED` again, the command is over -/
  | finish (h : Nat)
deriving DecidableEq, Repr

def events (p : Params n) (s : State n) (i : Input n w) : List Event :=
  (if s.mem.state = .Idle ∧ DmMem.stateD p s.mem i.memI = .Go then
    [.launch (DmMem.hartsel i.memI)] else [])
  ++ (if advances i i.hart = true ∧ s.pc i.hart = .going then [.start i.hart] else [])
  ++ (if advances i i.hart = true ∧ s.pc i.hart = .command then [.finish i.hart] else [])

/-- One command, from its launch to its end. -/
def round (h : Nat) : List Event := [.launch h, .start h, .finish h]

/-- The part of a round that is over. -/
def underWay (s : State n) : List Event :=
  match s.mem.state with
  | .Go => [.launch (selected s)]
  | .CmdExecuting => [.launch (selected s), .start (selected s)]
  | _ => []

/-! ## The mailboxes -/

/-- A store goes to one address. -/
theorem storesTo_ne {b : Access w} {a c : BitVec 12} (h : b.storesTo a = true) (hne : a ≠ c) :
    b.storesTo c = false := by
  unfold Access.storesTo at h ⊢
  rw [Bool.and_eq_true, beq_iff_eq] at h
  rw [h.2, beq_eq_false_iff_ne.mpr hne, Bool.and_false]

/-- A load is no store. -/
theorem storesTo_load {b : Access w} {h : Nat} (hl : DmMem.loadsFlag h b) (a : BitVec 12) :
    b.storesTo a = false := by
  unfold Access.storesTo
  rw [hl.2.1, Bool.and_false, Bool.false_and]

/-- A mailbox store is the ROM's, and says where the hart is.  Nobody else on the bus stores there, which
    is part of `Follows`. -/
theorem mailbox_store {s : State n} {i : Input n w} (h : Follows s i) {a : BitVec 12}
    (ha : a = DmMem.HaltedAddr ∨ a = DmMem.GoingAddr ∨ a = DmMem.ResumingAddr)
    (hs : i.memI.busI.storesTo a = true) :
    i.hart < n ∧ advances i i.hart = true ∧ (s.pc i.hart).does i.hart i.memI.busI := by
  have hreq : i.memI.busI.reqI = true := by
    unfold Access.storesTo at hs
    rw [Bool.and_eq_true, Bool.and_eq_true] at hs
    exact hs.1.1
  obtain ⟨hlt, hdo⟩ := h.1 hreq
  unfold advances
  cases hrom : i.rom
  · -- outside the ROM a program keeps off the mailbox
    rw [hrom, if_neg Bool.false_ne_true] at hdo
    obtain ⟨h1, h2, h3, -⟩ := hdo
    rcases ha with rfl | rfl | rfl
    · rw [h1] at hs
      cases hs
    · rw [h2] at hs
      cases hs
    · rw [h3] at hs
      cases hs
  · -- inside it, the access is the one of its place
    rw [hrom, if_pos rfl] at hdo
    refine ⟨hlt, ?_, hdo⟩
    rw [hreq, beq_self_eq_true]
    rfl

/-- What the ROM's access of an advancing hart is: the one on the bus, as only one hart is on the bus in a
    cycle. -/
theorem does_of_advances {s : State n} {i : Input n w} (h : Follows s i) {k : Nat}
    (ha : advances i k = true) : k = i.hart ∧ k < n ∧ (s.pc k).does k i.memI.busI := by
  unfold advances at ha
  rw [Bool.and_eq_true, Bool.and_eq_true, beq_iff_eq] at ha
  obtain ⟨⟨hreq, hrom⟩, rfl⟩ := ha
  obtain ⟨hlt, hdo⟩ := h.1 hreq
  rw [hrom, if_pos rfl] at hdo
  exact ⟨rfl, hlt, hdo⟩

theorem going_iff {s : State n} {i : Input n w} (h : Follows s i) :
    DmMem.going i.memI = true ↔ advances i i.hart = true ∧ s.pc i.hart = .going := by
  unfold DmMem.going
  constructor
  · intro hs
    -- of all places only one stores to `GOING`
    obtain ⟨-, hadv, hdo⟩ := mailbox_store h (Or.inr (Or.inl rfl)) hs
    refine ⟨hadv, ?_⟩
    cases hpc : s.pc i.hart <;> rw [hpc] at hdo
    · exact hdo.elim
    · rw [storesTo_ne hdo.1 (by decide)] at hs
      cases hs
    · rw [storesTo_load hdo] at hs
      cases hs
    · rw [storesTo_load hdo] at hs
      cases hs
    · rw [storesTo_ne hdo.1 (by decide)] at hs
      cases hs
    · rw [storesTo_ne hdo.1 (by decide)] at hs
      cases hs
  · rintro ⟨hadv, hpc⟩
    obtain ⟨-, -, hdo⟩ := does_of_advances h hadv
    rw [hpc] at hdo
    exact hdo

/-- The number in a store is the number of the hart that does it. -/
theorem wdataHartsel_id (hn : n ≤ 1024) {i : Input n w} {h : Nat} {a : BitVec 12} (hh : h < n)
    (hs : storesId h a i.memI.busI) : DmMem.wdataHartsel i.memI = h := by
  have hle := hartSelLen_le hn
  have hdvd : 2 ^ hartSelLen n ∣ 2 ^ 32 := Nat.pow_dvd_pow 2 (by omega)
  unfold DmMem.wdataHartsel selectHart
  rw [← Nat.mod_mod_of_dvd _ hdvd, hs.2, Nat.mod_eq_of_lt (lt_two_pow_hartSelLen hh)]

/-- A store to `HALTED` comes from the loop or ends a command.  The number it stores is that of the hart,
    which is why there must not be more than 1024 of them. -/
theorem halted_iff (hn : n ≤ 1024) {s : State n} {i : Input n w} (h : Follows s i) (k : Nat) :
    DmMem.haltedAligned i.memI k = true ↔
      advances i k = true ∧ (s.pc k = .entry ∨ s.pc k = .command) := by
  unfold DmMem.haltedAligned
  rw [Bool.and_eq_true, beq_iff_eq]
  constructor
  · rintro ⟨hs, hk⟩
    -- two places store to `HALTED`, each with the number of its own hart
    obtain ⟨hlt, hadv, hdo⟩ := mailbox_store h (Or.inl rfl) hs
    cases hpc : s.pc i.hart <;> rw [hpc] at hdo
    · exact hdo.elim
    · rw [wdataHartsel_id hn hlt hdo] at hk
      rw [← hk]
      exact ⟨hadv, Or.inl hpc⟩
    · rw [storesTo_load hdo] at hs
      cases hs
    · rw [storesTo_load hdo] at hs
      cases hs
    · rw [storesTo_ne hdo (by decide)] at hs
      cases hs
    · rw [wdataHartsel_id hn hlt hdo] at hk
      rw [← hk]
      exact ⟨hadv, Or.inr hpc⟩
    · rw [storesTo_ne hdo.1 (by decide)] at hs
      cases hs
  · rintro ⟨hadv, hpc⟩
    obtain ⟨-, hlt, hdo⟩ := does_of_advances h hadv
    rcases hpc with hpc | hpc <;> rw [hpc] at hdo
    · exact ⟨hdo.1, wdataHartsel_id hn hlt hdo⟩
    · exact ⟨hdo.1, wdataHartsel_id hn hlt hdo⟩

/-- A store to `RESUMING` comes from a hart that is leaving. -/
theorem resuming_store {s : State n} {i : Input n w} (h : Follows s i)
    (hs : i.memI.busI.storesTo DmMem.ResumingAddr = true) :
    advances i i.hart = true ∧ s.pc i.hart = .resuming := by
  obtain ⟨-, hadv, hdo⟩ := mailbox_store h (Or.inr (Or.inr rfl)) hs
  refine ⟨hadv, ?_⟩
  cases hpc : s.pc i.hart <;> rw [hpc] at hdo
  · exact hdo.elim
  · rw [storesTo_ne hdo.1 (by decide)] at hs
    cases hs
  · rw [storesTo_load hdo] at hs
    cases hs
  · rw [storesTo_load hdo] at hs
    cases hs
  · rw [storesTo_ne hdo (by decide)] at hs
    cases hs
  · rw [storesTo_ne hdo.1 (by decide)] at hs
    cases hs

/-- A hart that sees a flag is the selected one, and the flag is the state's: the byte of every other hart
    is zero. -/
theorem poll_flags (hw : w = 32 ∨ w = 64) (hn : n ≤ 1024) (p : Params n) {s : State n}
    {i : Input n w} {k : Nat} (hk : k < n) (hl : DmMem.loadsFlag k i.memI.busI) {j : Nat}
    (hj : (DmMem.flagByte k (DmMem.rdataO p w (DmMem.next p s.mem i.memI))).getLsbD j = true) :
    k = DmMem.hartsel i.memI ∧ (DmMem.flags s.mem).getLsbD j = true := by
  rw [DmMem.flag_loaded p s.mem hw hn hk hl] at hj
  split_ifs at hj with hsel
  · exact ⟨hsel, hj⟩
  · simp at hj

/-- The `go` flag is bit 0 and the `resume` flag bit 1. -/
theorem flags_go (m : DmMem.State n) : (DmMem.flags m).getLsbD 0 = (m.state == .Go) := by
  unfold DmMem.flags
  cases m.state <;> rfl

theorem flags_resume (m : DmMem.State n) : (DmMem.flags m).getLsbD 1 = (m.state == .Resume) := by
  unfold DmMem.flags
  cases m.state <;> rfl

/-! ## The invariant -/

structure Inv (s : State n) : Prop where
  going : ∀ h, s.pc h = .going → s.mem.state = .Go ∧ h = selected s
  command : ∀ h, s.pc h = .command ↔ s.mem.state = .CmdExecuting ∧ h = selected s
  resuming : ∀ h, s.pc h = .resuming → s.mem.state = .Resume ∧ h = selected s
  resumed : s.mem.state = .Resume → s.mem.resuming.getLsbD (selected s) = true →
    s.pc (selected s) = .outside

section Step

variable {p : Params n} {s : State n} {i : Input n w}

/-- The hart select is held while the state machine is busy. -/
theorem hartsel_held (h : Follows s i) (hb : s.mem.state ≠ .Idle) :
    DmMem.hartsel i.memI = selected s := by
  unfold DmMem.hartsel selected
  rw [h.2 hb]

/-- A bit of `resuming` is set by the store of its hart only. -/
theorem resuming_set {k : Nat}
    (hr : (DmMem.next p s.mem i.memI).resuming.getLsbD k = true) :
    s.mem.resuming.getLsbD k = true ∨ i.memI.busI.storesTo DmMem.ResumingAddr = true := by
  have hk : k < n := by
    by_contra hge
    rw [BitVec.getLsbD_of_ge _ _ (by omega)] at hr
    cases hr
  have hd : (DmMem.resumingD s.mem i.memI).getLsbD k = true := by
    have hand : (p.selectableHarts &&& DmMem.resumingD s.mem i.memI).getLsbD k = true := hr
    rw [BitVec.getLsbD_and, Bool.and_eq_true] at hand
    exact hand.2
  unfold DmMem.resumingD at hd
  cases hs : i.memI.busI.storesTo DmMem.ResumingAddr
  · left
    simp only [hs, Bool.false_eq_true, if_false] at hd
    split_ifs at hd
    · rw [setBit_false _ _ hk, Bool.and_eq_true] at hd
      exact hd.2
    · exact hd
  · exact Or.inr rfl

/-- In the cycle of a resume request that is taken up the selected hart has not resumed: the request is
    taken up only with its bit clear. -/
theorem resume_taken (hidle : s.mem.state = .Idle)
    (hres : DmMem.stateD p s.mem i.memI = .Resume) :
    s.mem.resuming.getLsbD (DmMem.hartsel i.memI) = false := by
  unfold DmMem.stateD at hres
  rw [hidle] at hres
  cases hw : DmMem.wantsResume s.mem i.memI
  · simp only [hw, Bool.false_eq_true, if_false] at hres
    split_ifs at hres
  · unfold DmMem.wantsResume at hw
    simp only [Bool.and_eq_true, Bool.not_eq_true'] at hw
    exact hw.1.1.2

theorem nextPc_advances {h : Nat} (ha : advances i h = true) :
    nextPc p s i h
      = (s.pc h).after (DmMem.flagByte h (DmMem.rdataO p w (DmMem.next p s.mem i.memI))) := by
  unfold nextPc
  rw [if_pos ha]

/-- A hart that does not advance stays where it is, or enters debug mode. -/
theorem nextPc_stays {h : Nat} (ha : advances i h = false) :
    nextPc p s i h = s.pc h ∨ (s.pc h = .outside ∧ nextPc p s i h = .entry) := by
  unfold nextPc
  rw [ha, if_neg Bool.false_ne_true]
  split_ifs with he
  · exact Or.inr ⟨he.1, rfl⟩
  · exact Or.inl rfl

/-- A hart comes to its `GOING` store by reading its `go` flag, and that is up for the selected hart while
    a command is being launched. -/
theorem to_going (hw : w = 32 ∨ w = 64) (hn : n ≤ 1024) (hf : Follows s i) {h : Nat}
    (hg : nextPc p s i h = .going) :
    (s.pc h = .going ∧ advances i h = false) ∨
      (s.pc h = .pollGo ∧ advances i h = true ∧ s.mem.state = .Go ∧
        h = DmMem.hartsel i.memI) := by
  cases ha : advances i h
  · rcases nextPc_stays ha with hst | ⟨-, hst⟩
    · rw [hst] at hg
      exact Or.inl ⟨hg, rfl⟩
    · rw [hst] at hg
      cases hg
  · right
    rw [nextPc_advances ha, Pc.after_going] at hg
    obtain ⟨hpc, hbit⟩ := hg
    obtain ⟨-, hlt, hdo⟩ := does_of_advances hf ha
    rw [hpc] at hdo
    obtain ⟨hsel, hflag⟩ := poll_flags hw hn p hlt hdo hbit
    rw [flags_go, beq_iff_eq] at hflag
    exact ⟨hpc, rfl, hflag, hsel⟩

/-- A hart comes to its `RESUMING` store by reading its `resume` flag, which is up for the selected hart
    while the module is in `Resume`. -/
theorem to_resuming (hw : w = 32 ∨ w = 64) (hn : n ≤ 1024) (hf : Follows s i) {h : Nat}
    (hr : nextPc p s i h = .resuming) :
    (s.pc h = .resuming ∧ advances i h = false) ∨
      (s.pc h = .pollResume ∧ s.mem.state = .Resume ∧ h = DmMem.hartsel i.memI) := by
  cases ha : advances i h
  · rcases nextPc_stays ha with hst | ⟨-, hst⟩
    · rw [hst] at hr
      exact Or.inl ⟨hr, rfl⟩
    · rw [hst] at hr
      cases hr
  · right
    rw [nextPc_advances ha, Pc.after_resuming] at hr
    obtain ⟨hpc, hbit⟩ := hr
    obtain ⟨-, hlt, hdo⟩ := does_of_advances hf ha
    rw [hpc] at hdo
    obtain ⟨hsel, hflag⟩ := poll_flags hw hn p hlt hdo hbit
    rw [flags_resume, beq_iff_eq] at hflag
    exact ⟨hpc, hflag, hsel⟩

/-- A hart comes into the command by its `GOING` store, and leaves it with the next store to `HALTED`. -/
theorem to_command {h : Nat} (hc : nextPc p s i h = .command) :
    (s.pc h = .command ∧ advances i h = false) ∨ (s.pc h = .going ∧ advances i h = true) := by
  cases ha : advances i h
  · rcases nextPc_stays ha with hst | ⟨-, hst⟩
    · rw [hst] at hc
      exact Or.inl ⟨hc, rfl⟩
    · rw [hst] at hc
      cases hc
  · right
    rw [nextPc_advances ha, Pc.after_command] at hc
    exact ⟨hc, rfl⟩

/-! ## One cycle keeps it -/

/-- The hart about to store to `GOING` is the selected one, and the module waits for it. -/
theorem going_next (hw : w = 32 ∨ w = 64) (hn : n ≤ 1024) (hf : Follows s i) (h : Inv s) {k : Nat}
    (hk : (next p s i).pc k = .going) :
    (next p s i).mem.state = .Go ∧ k = selected (next p s i) := by
  -- nobody stores to `GOING` but the hart that is there
  have hno : ∀ j, advances i j = true → s.pc j ≠ .going → DmMem.going i.memI = false := by
    intro j hadv hpc
    rw [Bool.eq_false_iff]
    intro hg
    obtain ⟨-, hthere⟩ := (going_iff hf).mp hg
    obtain ⟨rfl, -, -⟩ := does_of_advances hf hadv
    exact hpc hthere
  rcases to_going hw hn hf hk with ⟨hpc, hadv⟩ | ⟨hpc, hadv, hgo, hsel⟩
  · obtain ⟨hgo, hsel⟩ := h.going k hpc
    refine ⟨?_, ?_⟩
    · show DmMem.stateD p s.mem i.memI = .Go
      rw [DmMem.stateD_go hgo, if_neg]
      intro hg
      obtain ⟨hadv', hthere⟩ := (going_iff hf).mp hg
      obtain ⟨-, hother⟩ := h.going _ hthere
      rw [hsel, ← hother, hadv'] at hadv
      cases hadv
    · rw [hsel, ← hartsel_held hf (by rw [hgo]; decide)]
      rfl
  · refine ⟨?_, hsel⟩
    show DmMem.stateD p s.mem i.memI = .Go
    rw [DmMem.stateD_go hgo, hno k hadv (by rw [hpc]; decide)]
    rfl

/-- The hart in its command is the selected one, and the module is executing exactly then. -/
theorem command_next (hn : n ≤ 1024) (hf : Follows s i) (h : Inv s) (k : Nat) :
    (next p s i).pc k = .command ↔
      (next p s i).mem.state = .CmdExecuting ∧ k = selected (next p s i) := by
  have hsel' : selected (next p s i) = DmMem.hartsel i.memI := rfl
  rw [hsel']
  show nextPc p s i k = .command ↔ DmMem.stateD p s.mem i.memI = .CmdExecuting ∧ _
  constructor
  · intro hk
    rcases to_command hk with ⟨hpc, hadv⟩ | ⟨hpc, hadv⟩
    · obtain ⟨hex, hsel⟩ := (h.command k).mp hpc
      have hheld := hartsel_held hf (by rw [hex]; decide)
      refine ⟨?_, by rw [hheld, hsel]⟩
      rw [DmMem.stateD_executing hex, if_neg]
      -- the hart that would end the command does nothing in this cycle
      rw [halted_iff hn hf, hheld, ← hsel, hadv]
      rintro ⟨hfalse, -⟩
      cases hfalse
    · obtain ⟨hgo, hsel⟩ := h.going k hpc
      have hheld := hartsel_held hf (by rw [hgo]; decide)
      obtain ⟨rfl, -, -⟩ := does_of_advances hf hadv
      refine ⟨?_, by rw [hheld, hsel]⟩
      rw [DmMem.stateD_go hgo, if_pos ((going_iff hf).mpr ⟨hadv, hpc⟩)]
  · rintro ⟨hex, rfl⟩
    rcases DmMem.stateD_enters hex with ⟨hgo, hg⟩ | ⟨hold, hhalt⟩
    · obtain ⟨hadv, hpc⟩ := (going_iff hf).mp hg
      obtain ⟨-, hsel⟩ := h.going _ hpc
      rw [hartsel_held hf (by rw [hgo]; decide), ← hsel, nextPc_advances hadv, Pc.after_command]
      exact hpc
    · have hheld := hartsel_held hf (by rw [hold]; decide)
      rw [hheld] at hhalt ⊢
      have hpc := (h.command _).mpr ⟨hold, rfl⟩
      have hadv : advances i (selected s) = false := by
        rw [Bool.eq_false_iff]
        intro hadv
        rw [(halted_iff hn hf _).mpr ⟨hadv, Or.inr hpc⟩] at hhalt
        cases hhalt
      rcases nextPc_stays (p := p) hadv with hst | ⟨hout, -⟩
      · rw [hst]
        exact hpc
      · rw [hpc] at hout
        cases hout

/-- In `Resume` the machine stays as long as the selected hart is in debug mode. -/
theorem resume_stays (hf : Follows s i) (h : Inv s) (hres : s.mem.state = .Resume)
    (hin : s.pc (selected s) ≠ .outside) : DmMem.stateD p s.mem i.memI = .Resume := by
  rw [DmMem.stateD_resume hres, if_neg]
  intro hset
  rw [hartsel_held hf (by rw [hres]; decide)] at hset
  exact hin (h.resumed hres hset)

theorem resuming_next (hw : w = 32 ∨ w = 64) (hn : n ≤ 1024) (hf : Follows s i) (h : Inv s)
    {k : Nat} (hk : (next p s i).pc k = .resuming) :
    (next p s i).mem.state = .Resume ∧ k = selected (next p s i) := by
  have hsel' : selected (next p s i) = DmMem.hartsel i.memI := rfl
  rw [hsel']
  rcases to_resuming hw hn hf hk with ⟨hpc, -⟩ | ⟨hpc, hres, hsel⟩
  · obtain ⟨hres, hsel⟩ := h.resuming k hpc
    refine ⟨resume_stays hf h hres ?_, ?_⟩
    · rw [← hsel, hpc]
      decide
    · rw [hartsel_held hf (by rw [hres]; decide)]
      exact hsel
  · refine ⟨resume_stays hf h hres ?_, hsel⟩
    rw [← hartsel_held hf (by rw [hres]; decide), ← hsel, hpc]
    decide

theorem resumed_next (hf : Follows s i) (h : Inv s) (hres : (next p s i).mem.state = .Resume)
    (hset : (next p s i).mem.resuming.getLsbD (selected (next p s i)) = true) :
    (next p s i).pc (selected (next p s i)) = .outside := by
  have hsel' : selected (next p s i) = DmMem.hartsel i.memI := rfl
  have hres' : DmMem.stateD p s.mem i.memI = .Resume := hres
  rw [hsel'] at hset ⊢
  cases hst : s.mem.state
  · -- the request has just been taken up, and nobody leaves in `Idle`
    rcases resuming_set hset with hold | hstore
    · rw [resume_taken hst hres'] at hold
      cases hold
    · obtain ⟨-, hpc⟩ := resuming_store hf hstore
      obtain ⟨hother, -⟩ := h.resuming _ hpc
      rw [hst] at hother
      cases hother
  · rw [DmMem.stateD_go hst] at hres'
    split_ifs at hres'
  · have hheld := hartsel_held hf (by rw [hst]; decide)
    rw [DmMem.stateD_resume hst] at hres'
    split_ifs at hres' with hold
    rcases resuming_set hset with hnew | hstore
    · exact absurd hnew hold
    · -- the selected hart's own store: it has left
      obtain ⟨hadv, hpc⟩ := resuming_store hf hstore
      obtain ⟨-, hsel⟩ := h.resuming _ hpc
      rw [hheld, ← hsel]
      show nextPc p s i i.hart = .outside
      rw [nextPc_advances hadv, hpc]
      rfl
  · rw [DmMem.stateD_executing hst] at hres'
    split_ifs at hres'

theorem inv_next (hw : w = 32 ∨ w = 64) (hn : n ≤ 1024) (hf : Follows s i) (h : Inv s) :
    Inv (next p s i) :=
  ⟨fun _ hk => going_next hw hn hf h hk, fun k => command_next hn hf h k,
    fun _ hk => resuming_next hw hn hf h hk, fun hres hset => resumed_next hf h hres hset⟩

/-! ## What a cycle adds to the rounds -/

/-- Events of the ROM happen in the states they belong to: a store to `GOING` starts a command, and there
    is no other one. -/
theorem start_iff (hf : Follows s i) (h : Inv s) :
    (advances i i.hart = true ∧ s.pc i.hart = .going) ↔
      (s.mem.state = .Go ∧ DmMem.going i.memI = true) := by
  rw [going_iff hf]
  constructor
  · rintro ⟨hadv, hpc⟩
    exact ⟨(h.going _ hpc).1, hadv, hpc⟩
  · rintro ⟨-, hg⟩
    exact hg

theorem finish_iff (hn : n ≤ 1024) (hf : Follows s i) (h : Inv s) :
    (advances i i.hart = true ∧ s.pc i.hart = .command) ↔
      (s.mem.state = .CmdExecuting ∧
        DmMem.haltedAligned i.memI (DmMem.hartsel i.memI) = true) := by
  rw [halted_iff hn hf]
  constructor
  · rintro ⟨hadv, hpc⟩
    obtain ⟨hex, hsel⟩ := (h.command _).mp hpc
    rw [hartsel_held hf (by rw [hex]; decide), ← hsel]
    exact ⟨hex, hadv, Or.inr hpc⟩
  · rintro ⟨hex, hadv, -⟩
    rw [hartsel_held hf (by rw [hex]; decide)] at hadv
    obtain ⟨hsel, -, -⟩ := does_of_advances hf hadv
    rw [← hsel]
    exact ⟨hadv, (h.command _).mpr ⟨hex, rfl⟩⟩

/-- The hart whose command ends in this cycle. -/
def completed (s : State n) (i : Input n w) : List Nat :=
  if advances i i.hart = true ∧ s.pc i.hart = .command then [i.hart] else []

/-- **The round law.**  A cycle continues the round that is under way, or completes it.  The cases are the
    states of the module, and in each of them one kind of event is possible. -/
theorem events_law (hn : n ≤ 1024) (hf : Follows s i) (h : Inv s) :
    underWay s ++ events p s i
      = (completed s i).flatMap round ++ underWay (next p s i) := by
  have hstart := start_iff hf h
  have hfinish := finish_iff hn hf h
  have hstate : (next p s i).mem.state = DmMem.stateD p s.mem i.memI := rfl
  have hsel : selected (next p s i) = DmMem.hartsel i.memI := rfl
  unfold underWay events completed
  rw [hstate, hsel]
  simp only [hstart, hfinish]
  cases hst : s.mem.state
  · -- a command may be launched
    cases hd : DmMem.stateD p s.mem i.memI
    · simp
    · simp
    · simp
    · rcases DmMem.stateD_enters hd with ⟨hgo, -⟩ | ⟨hex, -⟩
      · rw [hst] at hgo
        cases hgo
      · rw [hst] at hex
        cases hex
  · -- the selected hart may start it
    have hheld := hartsel_held hf (by rw [hst]; decide)
    rw [DmMem.stateD_go hst, hheld]
    cases hg : DmMem.going i.memI
    · simp
    · obtain ⟨-, hpc⟩ := hstart.mpr ⟨hst, hg⟩
      obtain ⟨-, hhart⟩ := h.going _ hpc
      simp [hhart]
  · rw [DmMem.stateD_resume hst]
    cases s.mem.resuming.getLsbD (DmMem.hartsel i.memI) <;> simp
  · -- it may be over
    have hheld := hartsel_held hf (by rw [hst]; decide)
    rw [DmMem.stateD_executing hst, hheld]
    cases hg : DmMem.haltedAligned i.memI (selected s)
    · simp
    · obtain ⟨-, hpc⟩ := hfinish.mpr ⟨hst, by rw [hheld]; exact hg⟩
      obtain ⟨-, hhart⟩ := (h.command _).mp hpc
      simp [hhart, round]

end Step

/-! ## Whole runs -/

/-- The events so far are whole rounds and the one under way. -/
def InRounds (hist : List Event) (s : State n) : Prop :=
  Inv s ∧ ∃ hs : List Nat, hist = hs.flatMap round ++ underWay s

theorem inRounds_next (hw : w = 32 ∨ w = 64) (hn : n ≤ 1024) (p : Params n) (hist : List Event)
    (s : State n) (i : Input n w) (h : InRounds hist s) (hf : Follows s i) :
    InRounds (hist ++ events p s i) (next p s i) := by
  obtain ⟨hinv, hs, rfl⟩ := h
  refine ⟨inv_next hw hn hf hinv, hs ++ completed s i, ?_⟩
  rw [List.append_assoc, events_law hn hf hinv, List.flatMap_append, List.append_assoc]

theorem inv_reset (romAddr : Nat) {pc : Nat → Pc} (hpc : Parked pc) :
    Inv (reset romAddr pc : State n) := by
  refine ⟨?_, ?_, ?_, ?_⟩
  · intro h hg
    have hg' : pc h = .going := hg
    rcases hpc h with hk | hk | hk | hk <;> rw [hk] at hg' <;> cases hg'
  · intro h
    constructor
    · intro hc
      have hc' : pc h = .command := hc
      rcases hpc h with hk | hk | hk | hk <;> rw [hk] at hc' <;> cases hc'
    · rintro ⟨hex, -⟩
      cases hex
  · intro h hr
    have hr' : pc h = .resuming := hr
    rcases hpc h with hk | hk | hk | hk <;> rw [hk] at hr' <;> cases hr'
  · intro hres
    cases hres

/-- **Each command is executed exactly once.**  Whatever the harts do and however their accesses
    interleave: the launches, starts and ends of commands come in whole rounds for one hart, the
    selected one, and the last round is as far as the state machine says; a hart is in a command exactly
    while the state machine is in `CmdExecuting` and the hart is the selected one; and from a launch to
    the end of its round the debug module is busy. -/
theorem commands_executed_once (hw : w = 32 ∨ w = 64) (hn : n ≤ 1024) (p : Params n) (romAddr : Nat)
    (pc : Nat → Pc) (hpc : Parked pc) (is : List (Input n w))
    (hf : Always (next p) Follows (reset romAddr pc) is) :
    (∃ hs : List Nat, emitted (next p) (events p) (reset romAddr pc) is
      = hs.flatMap round ++ underWay (run (next p) (reset romAddr pc) is)) ∧
    Throughout (next p)
      (fun s =>
        (∀ h, s.pc h = .command ↔ s.mem.state = .CmdExecuting ∧ h = selected s) ∧
          (underWay s ≠ [] → DmMem.cmdbusyO s.mem = true)) (reset romAddr pc) is := by
  constructor
  · -- the rounds are a law of one step, carried along the run
    have hend := history_of_step InRounds Follows (inRounds_next hw hn p) is []
      (reset romAddr pc) ⟨inv_reset romAddr hpc, [], rfl⟩ hf
    rw [List.nil_append] at hend
    exact hend.2
  · -- where the hart is follows from the invariant, in each state
    refine throughout_of_step Inv _ Follows (fun s i h hfs => inv_next hw hn hfs h) ?_ is
      (reset romAddr pc) (inv_reset romAddr hpc) hf
    intro s h
    refine ⟨h.command, ?_⟩
    unfold underWay DmMem.cmdbusyO
    intro hne
    cases hst : s.mem.state
    · rw [hst] at hne
      exact absurd rfl hne
    · rfl
    · rfl
    · rfl

/-- A cycle in which one of two harts does what its ROM does next. -/
def hartDoes (sel : BitVec 20) (h : Nat) (b : Access 32) : Input 2 32 :=
  { memI :=
      { hartselI := sel, haltreqI := 0, resumereqI := 0, clearResumeackI := false, progbufI := 0
        dataI := 0, cmdValidI := false, cmdI := Command.ofWord 0x00221000, busI := b }
    hart := h, rom := true, enters := fun _ => false }

/-- Its store to a mailbox. -/
def stores (sel : BitVec 20) (h : Nat) (addr : BitVec 32) : Input 2 32 :=
  hartDoes sel h { reqI := true, weI := true, addrI := addr, wdataI := BitVec.ofNat 32 h, beI := 15 }

/-- Its load of the flags. -/
def polls (sel : BitVec 20) (h : Nat) : Input 2 32 :=
  hartDoes sel h { reqI := true, addrI := 0x400 + BitVec.ofNat 32 h }

/-- A command is launched for the selected hart while no hart is on the bus. -/
def launches (sel : BitVec 20) : Input 2 32 :=
  { memI := { (hartDoes sel 0 {}).memI with cmdValidI := true }
    hart := 0, rom := false, enters := fun _ => false }

/-- Two harts park.  A command is launched for hart 1 while hart 0 is between its two polls, and hart 0
    goes on polling and storing to `HALTED` in between the accesses of hart 1; then the other way
    round. -/
def twoRounds : List (Input 2 32) :=
  [stores 1 0 0x100, stores 1 1 0x100, polls 1 0, launches 1, polls 1 0, polls 1 1, stores 1 0 0x100,
    stores 1 1 0x104, polls 1 0, stores 1 1 0x100,
    polls 0 0, launches 0, stores 0 0 0x100, polls 0 1, polls 0 0, polls 0 1, stores 0 0 0x104,
    stores 0 1 0x100, stores 0 0 0x100]

/-- Hart 1 executes its command once, then hart 0 executes its own once.  In between the debugger has
    selected the other hart. -/
theorem commands_executed_once_two_harts :
    emitted (next ⟨3, 0⟩) (events ⟨3, 0⟩) (reset 0 fun _ => .entry) twoRounds
      = [.launch 1, .start 1, .finish 1, .launch 0, .start 0, .finish 0] ∧
    (∃ hs : List Nat, emitted (next ⟨3, 0⟩) (events ⟨3, 0⟩) (reset 0 fun _ => .entry) twoRounds
      = hs.flatMap round ++ underWay (run (next ⟨3, 0⟩) (reset 0 fun _ => .entry) twoRounds)) ∧
    Throughout (next ⟨3, 0⟩)
      (fun s =>
        (∀ h, s.pc h = .command ↔ s.mem.state = .CmdExecuting ∧ h = selected s) ∧
          (underWay s ≠ [] → DmMem.cmdbusyO s.mem = true)) (reset 0 fun _ => .entry) twoRounds :=
  ⟨by decide,
    commands_executed_once (Or.inl rfl) (by decide) ⟨3, 0⟩ 0 (fun _ => .entry)
      (fun _ => Or.inr (Or.inl rfl)) twoRounds (by decide)⟩

end RiscDbgUart.RunControl
