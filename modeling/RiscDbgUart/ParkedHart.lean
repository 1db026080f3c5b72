/-
  A hart in the debug ROM.

  From the halt address on the hart executes the machine code of the ROM, the memory being another one
  for every instruction.  The walk through the words is a function of the flag bytes that it loads
  (`follow`), and along it the accesses are those of the program counter of `RunControl`, in order and
  without any other (`rom_follows`), until the hart is at the jump to the program or executes `dret`.
  On the bus they are the accesses that `RunControl` asks of its harts (`onBus_of_plays`), so what is
  proved there of harts that follow the ROM is about these words.

  The crux is `inRom_next`: the row of a word is enough to say what its instruction does, whatever the
  memory holds.  Runs follow by induction, and since the walk depends on the two flag bits alone, that
  it comes to the program or to `dret` within forty instructions is checked by running it from every
  word of the loop (`loop_reaches`).

  The module has three parts.

  * The hart machine of `RunControl` as a sequence of accesses: `Plays` says that a list of accesses is
    that of the machine from one place to another, and `onBus_of_plays` that the harts of `RunControl` do
    exactly these.
  * The walk: `InRom` is a hart inside the ROM that holds what its row says.  One lemma for each kind of
    instruction (`inRom_straight`, `inRom_store`, `inRom_load`, `inRom_jal`, `inRom_bne`), and `inRom_next`
    puts them together; `position_of_trace` is the induction over a run.
  * Progress: `reaches` runs the walk on two given bits, and `run_of_reaches` says that a hart whose
    flag bytes say so does the same.
-/
import RiscDbgUart.DebugRom

set_option linter.unusedVariables false

namespace RiscDbgUart.DebugRom

open Riscv DmMem DmFetch
open RegisterTransfers (Scratch allCsrs atProgram dmAt)
open SupportedCommands (idleHalted presented)
open TrapRecovery (romAt)
open RunControl (Pc)

variable {n w f : Nat}

/-! ## The hart machine of run control, as it shows on the bus -/

/-- The access that the program counter does next; a flag load gets `b`. -/
def opOf (p : Params n) (h : Hart w f) (b : Byte) : Pc → Option (MemOp w)
  | .entry => some (.store (dmAddr w p HaltedAddr) 4 (h.csr CSR_MHARTID))
  | .pollGo | .pollResume => some (.load (flagAddr p h) 1 (b.setWidth w))
  | .going => some (.store (dmAddr w p GoingAddr) 4 0)
  | .resuming => some (.store (dmAddr w p ResumingAddr) 4 (h.csr CSR_MHARTID))
  | .command | .outside => none

/-- From the loop's start the program counter has done these accesses, whatever flags it got. -/
inductive Plays (p : Params n) (h : Hart w f) : List (MemOp w) → Pc → Prop
  | refl : Plays p h [] .entry
  | snoc {ops : List (MemOp w)} {pc : Pc} {op : MemOp w} (b : Byte) (hplays : Plays p h ops pc)
      (hop : opOf p h b pc = some op) : Plays p h (ops ++ [op]) (pc.after b)

/-- The bus access of an instruction: a byte is loaded with the word around it. -/
def Carries (b : DmMem.Access w) : MemOp w → Prop
  | .load a _ _ => b.reqI = true ∧ b.weI = false ∧ b.addrI.toNat / 4 = a.toNat / 4
  | .store a _ v => b.reqI = true ∧ b.weI = true ∧ b.addrI = a ∧
      (a.toNat % (w / 8) = 0 → b.wdataI.toNat % 2 ^ 32 = v.toNat % 2 ^ 32)

/-- An address of the debug module, less its base. -/
theorem dmAddr_mod (hw : w = 32 ∨ w = 64) (p : Params n) (hpage : 4096 ∣ p.dmBaseAddress.toNat)
    (a : BitVec 12) : (dmAddr w p a).toNat % 4096 = a.toNat := by
  have hlow := congrArg BitVec.toNat (dmAddr_setWidth p hw hpage a)
  rw [BitVec.toNat_setWidth] at hlow
  exact hlow

/-- **On the bus** it is the access that run control expects of the hart: the same address, and for a store
    the number of the hart, which the mailbox takes from the data. -/
theorem does_of_carries (hw : w = 32 ∨ w = 64) (p : Params n) (hpage : 4096 ∣ p.dmBaseAddress.toNat)
    {h : Hart w f} (hid : (h.csr CSR_MHARTID).toNat < 1024) {b : DmMem.Access w} {c : Byte} {pc : Pc}
    {op : MemOp w} (hop : opOf p h c pc = some op) (hb : Carries b op) :
    pc.does (h.csr CSR_MHARTID).toNat b := by
  have haddr (a : BitVec 12) (v : BitVec w) (hs : Carries b (.store (dmAddr w p a) 4 v)) :
      b.storesTo a = true := by
    obtain ⟨hreq, hwe, ha, -⟩ := hs
    rw [DmMem.Access.storesTo, DmMem.Access.addr, hreq, hwe, ha, dmAddr_setWidth p hw hpage]
    exact beq_self_eq_true a
  have haligned (a : BitVec 12) (ha : a.toNat % 8 = 0) : (dmAddr w p a).toNat % (w / 8) = 0 := by
    have hmod := dmAddr_mod hw p hpage a
    rcases hw with rfl | rfl
    · show (dmAddr 32 p a).toNat % 4 = 0
      omega
    · show (dmAddr 64 p a).toNat % 8 = 0
      omega
  have hvalue (a : BitVec 12) (ha : a.toNat % 8 = 0)
      (hs : Carries b (.store (dmAddr w p a) 4 (h.csr CSR_MHARTID))) :
      b.wdataI.toNat % 2 ^ 32 = (h.csr CSR_MHARTID).toNat := by
    obtain ⟨-, -, -, hdata⟩ := hs
    rw [hdata (haligned a ha), Nat.mod_eq_of_lt (by omega)]
  have hload (v : BitVec w) (hl : Carries b (.load (flagAddr p h) 1 v)) :
      DmMem.loadsFlag (h.csr CSR_MHARTID).toNat b := by
    obtain ⟨hreq, hwe, ha⟩ := hl
    refine ⟨hreq, hwe, ?_⟩
    -- the flags are in the page of the debug module
    have hbase := dmAddr_mod hw p hpage FlagsBaseAddr
    have hflags : FlagsBaseAddr.toNat = 1024 := rfl
    have hlt := b.addrI.isLt
    have hpow : 2 ^ w % 4096 = 0 := by rcases hw with rfl | rfl <;> decide
    have hsum : (flagAddr p h).toNat % 4096 = 1024 + (h.csr CSR_MHARTID).toNat := by
      rw [flagAddr, BitVec.toNat_add, Nat.mod_mod_of_dvd _ (Nat.dvd_of_mod_eq_zero hpow)]
      omega
    rw [DmMem.Access.addr, BitVec.toNat_setWidth, hflags]
    omega
  cases pc with
  | entry =>
    obtain rfl := Option.some.inj hop
    exact ⟨haddr _ _ hb, hvalue _ rfl hb⟩
  | pollGo =>
    obtain rfl := Option.some.inj hop
    exact hload _ hb
  | pollResume =>
    obtain rfl := Option.some.inj hop
    exact hload _ hb
  | going =>
    obtain rfl := Option.some.inj hop
    exact haddr _ _ hb
  | resuming =>
    obtain rfl := Option.some.inj hop
    exact ⟨haddr _ _ hb, hvalue _ rfl hb⟩
  | command => cases hop
  | outside => cases hop

/-- From the loop's start hart `id` has done these accesses on the bus, and each was the one its program
    counter does there, whatever flags it got. -/
inductive OnBus (id : Nat) : List (DmMem.Access w) → Pc → Prop
  | refl : OnBus id [] .entry
  | snoc {bs : List (DmMem.Access w)} {pc : Pc} {a : DmMem.Access w} (b : Byte) (hbus : OnBus id bs pc)
      (hdoes : pc.does id a) : OnBus id (bs ++ [a]) (pc.after b)

/-- The accesses of a run, one after the other, are a run of the hart machine of run control. -/
theorem onBus_of_plays (hw : w = 32 ∨ w = 64) (p : Params n) (hpage : 4096 ∣ p.dmBaseAddress.toNat)
    {h : Hart w f} (hid : (h.csr CSR_MHARTID).toNat < 1024) {ops : List (MemOp w)} {pc : Pc}
    (hplays : Plays p h ops pc) {bs : List (DmMem.Access w)} (hbs : List.Forall₂ Carries bs ops) :
    OnBus (h.csr CSR_MHARTID).toNat bs pc := by
  induction hplays generalizing bs with
  | refl =>
    cases hbs
    exact .refl
  | @snoc ops pc op b hplays hop ih =>
    -- the last access carries the last operation, those before it the rest
    have hfront := List.forall₂_take_append bs ops [op] hbs
    obtain ⟨a, tail, hcarries, htail, hlast⟩ :=
      List.forall₂_cons_right_iff.mp (List.forall₂_drop_append bs ops [op] hbs)
    cases htail
    rw [← List.take_append_drop ops.length bs, hlast]
    exact .snoc b (ih hfront) (does_of_carries hw p hpage hid hop hcarries)

/-- The accesses say where the hart machine is: two machines that have done the same are at the same
    access.  A load shows the flags it got, and nothing else decides where the ROM goes. -/
theorem plays_unique (hw : w = 32 ∨ w = 64) {p : Params n} {h : Hart w f} {ops : List (MemOp w)}
    {pc pc' : Pc} (hplays : Plays p h ops pc) (hplays' : Plays p h ops pc') : pc = pc' := by
  induction hplays generalizing pc' with
  | refl =>
    generalize hnil : ([] : List (MemOp w)) = l at hplays'
    cases hplays' with
    | refl => rfl
    | snoc b _ _ => exact absurd hnil (List.concat_ne_nil _ _).symm
  | @snoc ops pc op b hplays hop ih =>
    generalize hsnoc : ops ++ [op] = l at hplays'
    cases hplays' with
    | refl => exact absurd hsnoc (List.concat_ne_nil _ _)
    | @snoc ops' pc'' op' b' hplays'' hop' =>
      obtain ⟨rfl, hone⟩ := List.append_inj' hsnoc rfl
      obtain rfl := List.singleton_inj.mp hone
      obtain rfl := ih hplays''
      -- the access of a load carries the byte that it got
      have hbyte (hload : some (MemOp.load (flagAddr p h) 1 (b.setWidth w)) = some op)
          (hload' : some (MemOp.load (flagAddr p h) 1 (b'.setWidth w)) = some op) : b = b' := by
        have hsame := Option.some.inj (hload.trans hload'.symm)
        rw [MemOp.load.injEq] at hsame
        have hnarrow := congrArg (BitVec.setWidth 8) hsame.2.2
        rcases hw with rfl | rfl <;>
          rwa [BitVec.setWidth_setWidth_of_le _ (by decide), BitVec.setWidth_setWidth_of_le _ (by decide),
            BitVec.setWidth_eq, BitVec.setWidth_eq] at hnarrow
      -- only the two polls look at the byte
      cases pc with
      | entry | going | resuming => rfl
      | pollGo | pollResume => rw [hbyte hop hop']
      | command | outside => cases hop

/-! ## The walk through the ROM -/

/-- The hart is at word `j` of the ROM, the flag byte loaded last being `b`. -/
structure InRom (p : Params n) (h : Hart w f) (ops : List (MemOp w)) (j : Nat) (b : Byte)
    (s : Hart w f) : Prop where
  pc : s.pc = base w p + romAt w j
  untouched : Untouched h s
  row : ∃ r, (rows p.hasSndScratch).getD j none = some r ∧ r.marks.Hold (base w p) h b s ∧
    Plays p h ops (r.spot.pc b)

/-- Every register is as it was at the halt address. -/
structure Back (h s : Hart w f) : Prop where
  x : ∀ r, s.x r = h.x r
  csr : ∀ c, c ≠ CSR_DSCRATCH0 → c ≠ CSR_DSCRATCH1 → s.csr c = h.csr c
  fpr : s.fpr = h.fpr

/-- The word of the ROM at an address. -/
def wordAt (a : BitVec w) : Nat := (a.toNat - 0x800) / 4

/-- The two flags of a flag byte. -/
def bits (b : Byte) : Bool × Bool := (b.getLsbD 0, b.getLsbD 1)

/-- The branch on one of the flags is taken. -/
def taken (snd : Bool) (j : Nat) (x : Bool × Bool) : Bool :=
  ((rows snd).getD j none).any fun r => if r.marks.s0 = .go then x.1 else x.2

/-- The word behind word `j`. -/
def follow (w : Nat) (snd : Bool) (j : Nat) (x : Bool × Bool) : Nat :=
  match decode ((romCode snd).getD j 0) with
  | some (.jal _ imm) => wordAt (romAt w j + imm.signExtend w)
  | some (.bne _ _ imm) =>
    if taken snd j x then wordAt (romAt w j + imm.signExtend w) else wordAt (romAt w j + 4)
  | _ => wordAt (romAt w j + 4)

/-- Word `j` loads the flags. -/
def loads (snd : Bool) (j : Nat) : Bool :=
  match decode ((romCode snd).getD j 0) with
  | some (.load _ _ _ _) => true
  | _ => false

/-- The words at which the hart leaves the ROM: the jump to the program, and the `dret`. -/
def goWord (snd : Bool) : Nat := if snd then 31 else 20
def dretWord (snd : Bool) : Nat := if snd then 36 else 24

section Step

variable {p : Params n} {ext : Extensions f} {fetch : BitVec w → BitVec 32} {h s s' : Hart w f}
  {ops : List (MemOp w)} {j : Nat} {b : Byte} {m : Marks} {spot : Spot} {a : BitVec w}

/-- Control goes to a word whose row says no more than what is known.  The row is chosen by the
    destination, and `leadsTo` compares the two. -/
theorem inRom_leadsTo (hleads : leadsTo w p.hasSndScratch spot m a = true)
    (hpc : s.pc = base w p + a) (hm : m.Hold (base w p) h b s) (hu : Untouched h s)
    (hplays : Plays p h ops (spot.pc b)) : InRom p h ops (wordAt a) b s := by
  rw [leadsTo, Bool.and_eq_true, beq_iff_eq] at hleads
  obtain ⟨ha, hany⟩ := hleads
  refine ⟨?_, hu, ?_⟩
  · rw [hpc]
    exact congrArg (base w p + ·) ha
  · cases hrow : (rows p.hasSndScratch).getD ((a.toNat - 0x800) / 4) none with
    | none =>
      rw [hrow] at hany
      cases hany
    | some r =>
      rw [hrow, Option.any_some, Bool.and_eq_true, beq_iff_eq] at hany
      refine ⟨r, hrow, hold_covers hany.2 hm, ?_⟩
      rw [hany.1]
      exact hplays

/-- A word of the ROM that a hart is at: it has a row, it is an instruction, and the check has passed. -/
theorem inRom_word (hrom : RomAt p ext fetch) (hs : InRom p h ops j b s) :
    ∃ r i, (rows p.hasSndScratch).getD j none = some r ∧
      decode ((romCode p.hasSndScratch).getD j 0) = some i ∧ decode (fetch s.pc) = some i ∧
      rowOk w p.hasSndScratch j = true ∧ r.marks.Hold (base w p) h b s ∧
      Plays p h ops (r.spot.pc b) := by
  obtain ⟨r, hrow, hhold, hplays⟩ := hs.row
  have hlength : (rows p.hasSndScratch).length = (romCode p.hasSndScratch).length := by
    cases p.hasSndScratch <;> decide
  -- the tables are as long as the ROM, and a row that is there has a word
  have hj : j < (romCode p.hasSndScratch).length := by
    by_contra hge
    rw [← hlength, not_lt] at hge
    rw [List.getD_eq_getElem?_getD, List.getElem?_eq_none hge] at hrow
    cases hrow
  have hok := rows_ok hrom.width p.hasSndScratch j hj
  have hfetch : fetch s.pc = (romCode p.hasSndScratch).getD j 0 := by
    rw [hs.pc, ← getD_of_contains _ hrom.rom hj, dmAddr, romAt, base, BitVec.add_assoc]
  cases hdec : decode ((romCode p.hasSndScratch).getD j 0) with
  | none =>
    rw [rowOk, hrow, hdec] at hok
    cases hok
  | some i => exact ⟨r, i, hrow, rfl, hfetch ▸ hdec, hok, hhold, hplays⟩

/-- Every word of the ROM is in the page of the debug module. -/
theorem inRom_page (hrom : RomAt p ext fetch) (hs : InRom p h ops j b s) :
    ∃ off < 4096, s.pc = base w p + BitVec.ofNat w off := by
  obtain ⟨r, hrow, -⟩ := hs.row
  have hj : j < 38 := by
    have hlength : (rows p.hasSndScratch).length ≤ 38 := by cases p.hasSndScratch <;> decide
    by_contra hge
    rw [List.getD_eq_getElem?_getD, List.getElem?_eq_none (by omega)] at hrow
    cases hrow
  have hat : ∀ j < 38, romAt w j = BitVec.ofNat w (0x800 + 4 * j) := by
    rcases hrom.width with rfl | rfl <;> decide
  exact ⟨0x800 + 4 * j, by omega, by rw [hs.pc, hat j hj]⟩

/-- One bit of a flag byte, in a register. -/
theorem flag_zero (hw : w = 32 ∨ w = 64) (b : Byte) :
    ((b &&& 1).setWidth w = (0 : BitVec w) ↔ b.getLsbD 0 = false) ∧
      ((b &&& 2).setWidth w = (0 : BitVec w) ↔ b.getLsbD 1 = false) := by
  rcases hw with rfl | rfl <;> revert b <;> decide

/-- What is known does not depend on the memory. -/
theorem hold_onMem (hm : m.Hold (base w p) h b s) (mem : BitVec w → BitVec 8) :
    m.Hold (base w p) h b (s.onMem mem) :=
  ⟨hm.s0, hm.a0, hm.dscratch0, hm.dscratch1⟩

theorem untouched_onMem (hu : Untouched h s) (mem : BitVec w → BitVec 8) :
    Untouched h (s.onMem mem) :=
  ⟨hu.x, hu.csr, hu.fpr⟩

/-- `s0` and `a0` are back, and nothing else was touched. -/
theorem back_of_marks (hback : m.back = true) (hm : m.Hold (base w p) h b s) (hu : Untouched h s) :
    Back h s := by
  rw [Marks.back, Bool.and_eq_true, beq_iff_eq, beq_iff_eq] at hback
  have hs0 := hm.s0
  have ha0 := hm.a0
  rw [hback.1] at hs0
  rw [hback.2] at ha0
  refine ⟨fun r => ?_, hu.csr, hu.fpr⟩
  by_cases h8 : r = 8
  · rw [h8]
    exact hs0
  · by_cases h10 : r = 10
    · rw [h10]
      exact ha0
    · exact hu.x r h8 h10

/-- The word of an instruction that goes on to the next one and accesses nothing.  The trace is what it
    was, and so is the place in the hart machine. -/
theorem inRom_straight (hrom : RomAt p ext fetch) (hs : InRom p h ops j b s) {i : Instr} {r : Row}
    (hdec : decode (fetch s.pc) = some i) (hhold : r.marks.Hold (base w p) h b s)
    (hplays : Plays p h ops (r.spot.pc b))
    (hok : ((marksAfter p.hasSndScratch r.marks i).any fun m =>
      leadsTo w p.hasSndScratch r.spot m (romAt w j + 4)) = true) (mem : BitVec w → BitVec 8) :
    ∃ s', step ext fetch (s.onMem mem) = .next s' ∧
      InRom p h (ops ++ opsAt fetch (s.onMem mem)) (wordAt (romAt w j + 4)) b s' := by
  rw [Option.any_eq_true] at hok
  obtain ⟨m, hafter, hleads⟩ := hok
  have hdec' : decode (fetch (s.onMem mem).pc) = some i := hdec
  have hpage := inRom_page hrom hs
  rw [← onMem_pc (s := s) mem] at hpage
  obtain ⟨s', hexec, hpc, hm, hu, hops⟩ := hold_exec hrom (hold_onMem hhold mem)
    (untouched_onMem hs.untouched mem) hpage hafter
  refine ⟨s', (step_of_decode hdec').trans hexec, ?_⟩
  rw [opsAt_of_decode hdec', hops, List.append_nil]
  refine inRom_leadsTo hleads ?_ hm hu hplays
  rw [hpc, onMem_pc, hs.pc, BitVec.add_assoc]

/-- The word of a mailbox store.  It is one access in the trace and one step of the hart machine, which
    does not look at any flag there. -/
theorem inRom_store (hrom : RomAt p ext fetch) (hs : InRom p h ops j b s) {r : Row}
    {rs2 rs1 : BitVec 5} {imm : BitVec 12} (hdec : decode (fetch s.pc) = some (.store 2 rs2 rs1 imm))
    (hhold : r.marks.Hold (base w p) h b s) (hplays : Plays p h ops (r.spot.pc b))
    (hnext : storesNext p.hasSndScratch r rs2 rs1 imm = true)
    (hleads : leadsTo w p.hasSndScratch (.at (r.spot.pc 0 |>.after 0)) r.marks (romAt w j + 4) = true)
    (mem : BitVec w → BitVec 8) :
    ∃ s', step ext fetch (s.onMem mem) = .next s' ∧
      InRom p h (ops ++ opsAt fetch (s.onMem mem)) (wordAt (romAt w j + 4)) b s' := by
  have hdec' : decode (fetch (s.onMem mem).pc) = some (.store 2 rs2 rs1 imm) := hdec
  rw [storesNext, Bool.and_eq_true, beq_iff_eq] at hnext
  obtain ⟨hread, hspot⟩ := hnext
  have hbase : s.x rs1 = base w p := means_of_read hhold hread
  have haddr (a : BitVec 12) (ha : a.signExtend w = (a.setWidth w : BitVec w)) :
      effective (s.onMem mem) rs1 a = dmAddr w p a := by
    rw [effective, onMem_x, hbase, ha, dmAddr, base]
  -- the store is the one of the spot, whatever the flags
  obtain ⟨pc, hpc, hop⟩ : ∃ pc, r.spot = .at pc ∧
      opOf p h 0 pc = some (.store (effective (s.onMem mem) rs1 imm) 4 ((s.onMem mem).x rs2)) := by
    have hwidth := hrom.width
    have hs0 (hid : r.marks.s0 = .id) : s.x 8 = h.csr CSR_MHARTID := by
      have hmeans := hhold.s0
      rw [hid] at hmeans
      exact hmeans
    split at hspot
    · rename_i hentry
      rw [Bool.and_eq_true, Bool.and_eq_true, beq_iff_eq, beq_iff_eq, beq_iff_eq] at hspot
      obtain ⟨⟨rfl, rfl⟩, hid⟩ := hspot
      refine ⟨_, hentry, ?_⟩
      rw [haddr _ (by rcases hwidth with rfl | rfl <;> decide), onMem_x, hs0 hid]
      rfl
    · rename_i hgoing
      rw [Bool.and_eq_true, beq_iff_eq, beq_iff_eq] at hspot
      obtain ⟨rfl, rfl⟩ := hspot
      refine ⟨_, hgoing, ?_⟩
      rw [haddr _ (by rcases hwidth with rfl | rfl <;> decide)]
      rfl
    · rename_i hresuming
      rw [Bool.and_eq_true, Bool.and_eq_true, beq_iff_eq, beq_iff_eq, beq_iff_eq] at hspot
      obtain ⟨⟨rfl, rfl⟩, hid⟩ := hspot
      refine ⟨_, hresuming, ?_⟩
      rw [haddr _ (by rcases hwidth with rfl | rfl <;> decide), onMem_x, hs0 hid]
      rfl
    · cases hspot
  have hexec := @exec_store _ _ ext (s.onMem mem) 2 4 rs2 rs1 imm rfl
  have hops : memOps (s.onMem mem) (.store 2 rs2 rs1 imm)
      = [.store (effective (s.onMem mem) rs1 imm) 4 ((s.onMem mem).x rs2)] := rfl
  refine ⟨_, (step_of_decode hdec').trans hexec, ?_⟩
  rw [hpc] at hplays hleads
  rw [opsAt_of_decode hdec', hops]
  refine inRom_leadsTo hleads ?_ ⟨hhold.s0, hhold.a0, hhold.dscratch0, hhold.dscratch1⟩
    ⟨hs.untouched.x, hs.untouched.csr, hs.untouched.fpr⟩ (hplays.snoc 0 hop)
  rw [pc_advance]
  show (s.onMem mem).pc + 4 = _
  rw [onMem_pc, hs.pc, BitVec.add_assoc]

/-- The word of a flag load.  The byte that it finds is the one that the next branch is about, whatever
    the memory is by then. -/
theorem inRom_load (hrom : RomAt p ext fetch) (hs : InRom p h ops j b s) {r : Row}
    {rd rs1 : BitVec 5} (hdec : decode (fetch s.pc) = some (.load 4 rd rs1 FlagsBaseAddr))
    (hhold : r.marks.Hold (base w p) h b s) (hplays : Plays p h ops (r.spot.pc b))
    (hpoints : r.marks.points p.hasSndScratch rs1 = true) {pc : Pc} (hspot : r.spot = .at pc)
    (hpoll : pc = .pollGo ∨ pc = .pollResume) {after : Spot}
    (hafter : ∀ c, after.pc c = pc.after c)
    (hok : ((marksLoaded r.marks rd).any fun m =>
      leadsTo w p.hasSndScratch after m (romAt w j + 4)) = true) (mem : BitVec w → BitVec 8) :
    ∃ s', step ext fetch (s.onMem mem) = .next s' ∧
      InRom p h (ops ++ opsAt fetch (s.onMem mem)) (wordAt (romAt w j + 4)) (mem (flagAddr p h)) s' := by
  have hdec' : decode (fetch (s.onMem mem).pc) = some (.load 4 rd rs1 FlagsBaseAddr) := hdec
  rw [Option.any_eq_true] at hok
  obtain ⟨m, hload, hleads⟩ := hok
  -- wherever the base register points, the load is the one of the own flag byte
  have haddr : effective (s.onMem mem) rs1 FlagsBaseAddr = flagAddr p h :=
    effective_points hrom (hold_onMem hhold mem) hpoints
  obtain ⟨s', hexec, hpc, hm, hu, hops⟩ := hold_load ext rs1 FlagsBaseAddr
    (hold_onMem hhold mem) (untouched_onMem hs.untouched mem) hload
  rw [haddr, onMem_mem] at hm hops
  refine ⟨s', (step_of_decode hdec').trans hexec, ?_⟩
  rw [opsAt_of_decode hdec', hops]
  rw [hspot] at hplays
  refine inRom_leadsTo hleads ?_ hm hu ?_
  · rw [hpc, onMem_pc, hs.pc, BitVec.add_assoc]
  · -- the hart machine does the same load, and moves on by the byte that it got
    rw [hafter]
    refine hplays.snoc _ ?_
    rcases hpoll with rfl | rfl
    · rfl
    · rfl

/-- The word of a branch on one of the flags.  It is no access, and the hart machine has taken its branch
    with the load already, so both ways lead to where that is. -/
theorem inRom_branch (hrom : RomAt p ext fetch) (hs : InRom p h ops j b s) {r : Row}
    {imm : BitVec 13} (hdec : decode (fetch s.pc) = some (.bne 8 0 imm))
    (hrow : (rows p.hasSndScratch).getD j none = some r)
    (hhold : r.marks.Hold (base w p) h b s) (hplays : Plays p h ops (r.spot.pc b)) {yes no : Pc}
    (hflag : (s.x 8 = 0) ↔ taken p.hasSndScratch j (bits b) = false)
    (hspot : r.spot.pc b = if taken p.hasSndScratch j (bits b) then yes else no)
    (hyes : leadsTo w p.hasSndScratch (.at yes) r.marks (romAt w j + imm.signExtend w) = true)
    (hno : leadsTo w p.hasSndScratch (.at no) r.marks (romAt w j + 4) = true)
    (mem : BitVec w → BitVec 8) :
    ∃ s', step ext fetch (s.onMem mem) = .next s' ∧
      InRom p h (ops ++ opsAt fetch (s.onMem mem))
        (if taken p.hasSndScratch j (bits b) then wordAt (romAt w j + imm.signExtend w)
          else wordAt (romAt w j + 4)) b s' := by
  have hdec' : decode (fetch (s.onMem mem).pc) = some (.bne 8 0 imm) := hdec
  have hops : memOps (s.onMem mem) (.bne 8 0 imm) = [] := rfl
  have hexec : exec ext (s.onMem mem) (.bne 8 0 imm)
      = .next (if s.x 8 = 0 then (s.onMem mem).advance
          else { s.onMem mem with pc := (s.onMem mem).pc + imm.signExtend w }) := rfl
  have hkeep := hold_onMem hhold mem
  have hunt := untouched_onMem hs.untouched mem
  rw [opsAt_of_decode hdec', hops, List.append_nil]
  refine ⟨_, (step_of_decode hdec').trans hexec, ?_⟩
  cases ht : taken p.hasSndScratch j (bits b) with
  -- the flag is down: on to the next word
  | false =>
    rw [ht, if_neg Bool.false_ne_true] at hspot
    rw [if_pos (hflag.mpr ht), if_neg Bool.false_ne_true]
    refine inRom_leadsTo hno ?_ ⟨hkeep.s0, hkeep.a0, hkeep.dscratch0, hkeep.dscratch1⟩
      ⟨hunt.x, hunt.csr, hunt.fpr⟩ (hspot ▸ hplays)
    rw [pc_advance, onMem_pc, hs.pc, BitVec.add_assoc]
  -- the flag is up: the branch is taken
  | true =>
    rw [ht, if_pos rfl] at hspot
    rw [if_neg (fun hx => Bool.false_ne_true ((hflag.mp hx).symm.trans ht)), if_pos rfl]
    refine inRom_leadsTo hyes ?_ ⟨hkeep.s0, hkeep.a0, hkeep.dscratch0, hkeep.dscratch1⟩
      ⟨hunt.x, hunt.csr, hunt.fpr⟩ (hspot ▸ hplays)
    show (s.onMem mem).pc + _ = _
    rw [onMem_pc, hs.pc, BitVec.add_assoc]

/-- What the next instruction can be, on a memory whose flag byte is `c`: the hart stays in the ROM, or it
    leaves by one of the two words at which it may. -/
inductive Next (p : Params n) (ext : Extensions f) (fetch : BitVec w → BitVec 32) (h : Hart w f)
    (ops : List (MemOp w)) (j : Nat) (b : Byte) (s : Hart w f) (mem : BitVec w → BitVec 8) : Prop
  /-- another word of the ROM -/
  | rom (s' : Hart w f) (hstep : step ext fetch (s.onMem mem) = .next s')
      (hj : j ≠ goWord p.hasSndScratch ∧ j ≠ dretWord p.hasSndScratch)
      (hrom : InRom p h (ops ++ opsAt fetch (s.onMem mem)) (follow w p.hasSndScratch j (bits b))
        (if loads p.hasSndScratch j then mem (flagAddr p h) else b) s')
  /-- the jump to the program -/
  | go (s' : Hart w f) (hstep : step ext fetch (s.onMem mem) = .next s')
      (hj : j = goWord p.hasSndScratch) (hpc : s'.pc = dmAddr w p WhereToAddr) (hback : Back h s')
      (hplays : Plays p h (ops ++ opsAt fetch (s.onMem mem)) .command)
  /-- `dret` -/
  | dret (hstep : step ext fetch (s.onMem mem) = .dret) (hj : j = dretWord p.hasSndScratch)
      (hback : Back h s) (hplays : Plays p h ops .outside)

/-- Where the ROM jumps to the program, and where it leaves.  It is checked word by word, on the shipped
    code. -/
theorem leaving_words (hw : w = 32 ∨ w = 64) (snd : Bool) : ∀ j < (romCode snd).length,
    ((rows snd).getD j none).isSome = true →
    (j = dretWord snd ↔ decode ((romCode snd).getD j 0) = some .dret) ∧
      (j = goWord snd ↔ ∃ imm, decode ((romCode snd).getD j 0) = some (.jal 0 imm) ∧
        romAt w j + imm.signExtend w = WhereToAddr.setWidth w) := by
  -- a check of the table, word by word; the offset of the jump is unknown to it
  have hcheck : ∀ j < (romCode snd).length, ((rows snd).getD j none).isSome = true →
      (j = dretWord snd ↔ decode ((romCode snd).getD j 0) = some .dret) ∧
        (decide (j = goWord snd) = (decode ((romCode snd).getD j 0)).any fun i =>
          match i with
          | .jal rd imm => rd == 0 && romAt w j + imm.signExtend w == WhereToAddr.setWidth w
          | _ => false) := by
    rcases hw with rfl | rfl <;> cases snd <;> decide
  intro j hj hsome
  obtain ⟨hdret, hgo⟩ := hcheck j hj hsome
  refine ⟨hdret, ?_⟩
  rw [← decide_eq_true_iff (p := j = goWord snd), hgo, Option.any_eq_true]
  constructor
  · rintro ⟨i, hdec, hi⟩
    cases i with
    | jal rd imm =>
      rw [Bool.and_eq_true, beq_iff_eq, beq_iff_eq] at hi
      exact ⟨imm, hi.1 ▸ hdec, hi.2⟩
    | _ => cases hi
  · rintro ⟨imm, hdec, htarget⟩
    refine ⟨_, hdec, ?_⟩
    rw [Bool.and_eq_true, beq_iff_eq, beq_iff_eq]
    exact ⟨rfl, htarget⟩

/-- A word that is neither a `jal` nor `dret` is none at which the hart leaves. -/
theorem stays_of_word (hw : w = 32 ∨ w = 64) {snd : Bool} {i : Instr} (hj : j < (romCode snd).length)
    (hsome : ((rows snd).getD j none).isSome = true)
    (hword : decode ((romCode snd).getD j 0) = some i) (hjal : ∀ imm, i ≠ .jal 0 imm)
    (hne : i ≠ .dret) : j ≠ goWord snd ∧ j ≠ dretWord snd := by
  obtain ⟨hdret, hgo⟩ := leaving_words hw snd j hj hsome
  constructor
  · intro heq
    obtain ⟨imm, himm, -⟩ := hgo.mp heq
    exact hjal imm (Option.some.inj (hword.symm.trans himm))
  · intro heq
    exact hne (Option.some.inj (hword.symm.trans (hdret.mp heq)))

/-- The word of a jump: back to the start of the loop, or to one of its parts, or out of the ROM to the
    program.  It is the last if its target is `WhereTo`, which no word of the ROM is. -/
theorem inRom_jal (hrom : RomAt p ext fetch) (hs : InRom p h ops j b s) {r : Row} {imm : BitVec 21}
    (hj : j < (romCode p.hasSndScratch).length)
    (hrow : (rows p.hasSndScratch).getD j none = some r)
    (hword : decode ((romCode p.hasSndScratch).getD j 0) = some (.jal 0 imm))
    (hdec : decode (fetch s.pc) = some (.jal 0 imm))
    (hhold : r.marks.Hold (base w p) h b s) (hplays : Plays p h ops (r.spot.pc b))
    (hok : leadsTo w p.hasSndScratch r.spot r.marks (romAt w j + imm.signExtend w) = true ∨
      (romAt w j + imm.signExtend w == WhereToAddr.setWidth w && r.spot == .at .command
        && r.marks.back) = true) (mem : BitVec w → BitVec 8) :
    Next p ext fetch h ops j b s mem := by
  obtain ⟨hdret, hgo⟩ := leaving_words hrom.width p.hasSndScratch j hj (by rw [hrow]; rfl)
  have hdec' : decode (fetch (s.onMem mem).pc) = some (.jal 0 imm) := hdec
  have hops : memOps (s.onMem mem) (.jal 0 imm) = [] := rfl
  have hexec : exec ext (s.onMem mem) (.jal 0 imm)
      = .next { s.onMem mem with pc := (s.onMem mem).pc + imm.signExtend w } := by
    rw [exec, setX_zero]
  have hstep := (step_of_decode hdec').trans hexec
  have hpc : (s.onMem mem).pc + imm.signExtend w = base w p + (romAt w j + imm.signExtend w) := by
    rw [onMem_pc, hs.pc, BitVec.add_assoc]
  have hkeep := hold_onMem hhold mem
  have hunt := untouched_onMem hs.untouched mem
  rcases hok with hleads | hleaves
  · -- to a word of the ROM
    have hnot : j ≠ goWord p.hasSndScratch := by
      intro heq
      obtain ⟨imm', himm, htarget⟩ := hgo.mp heq
      rw [hword, Option.some.injEq, Instr.jal.injEq] at himm
      rw [leadsTo, Bool.and_eq_true, beq_iff_eq] at hleads
      rw [himm.2, htarget] at hleads
      rcases hrom.width with rfl | rfl <;> exact absurd hleads.1 (by decide)
    have hne : j ≠ dretWord p.hasSndScratch := by
      intro heq
      cases hword.symm.trans (hdret.mp heq)
    refine .rom _ hstep ⟨hnot, hne⟩ ?_
    rw [follow, loads, hword, opsAt_of_decode hdec', hops, List.append_nil]
    exact inRom_leadsTo hleads hpc ⟨hkeep.s0, hkeep.a0, hkeep.dscratch0, hkeep.dscratch1⟩
      ⟨hunt.x, hunt.csr, hunt.fpr⟩ hplays
  · -- to the program
    rw [Bool.and_eq_true, Bool.and_eq_true, beq_iff_eq, beq_iff_eq] at hleaves
    obtain ⟨⟨htarget, hspot⟩, hback⟩ := hleaves
    refine .go _ hstep (hgo.mpr ⟨imm, hword, htarget⟩) ?_ ?_ ?_
    · show (s.onMem mem).pc + imm.signExtend w = _
      rw [hpc, htarget, dmAddr, base]
    · obtain ⟨hx, hcsr, hfpr⟩ := back_of_marks hback hkeep hunt
      exact ⟨hx, hcsr, hfpr⟩
    · rw [opsAt_of_decode hdec', hops, List.append_nil]
      rw [hspot] at hplays
      exact hplays

/-- The word of a branch.  Its row says which of the two flags `s0` holds: `go`, behind the first load of
    a round, or `resume`, behind the second. -/
theorem inRom_bne (hrom : RomAt p ext fetch) (hs : InRom p h ops j b s) {r : Row} {imm : BitVec 13}
    (hrow : (rows p.hasSndScratch).getD j none = some r)
    (hdec : decode (fetch s.pc) = some (.bne 8 0 imm))
    (hhold : r.marks.Hold (base w p) h b s) (hplays : Plays p h ops (r.spot.pc b))
    (hok : (r.marks.s0 == .go && r.spot == .afterGo
        && leadsTo w p.hasSndScratch (.at .going) r.marks (romAt w j + imm.signExtend w)
        && leadsTo w p.hasSndScratch (.at .pollResume) r.marks (romAt w j + 4)) = true ∨
      (r.marks.s0 == .resume && r.spot == .afterResume
        && leadsTo w p.hasSndScratch (.at .resuming) r.marks (romAt w j + imm.signExtend w)
        && leadsTo w p.hasSndScratch (.at .entry) r.marks (romAt w j + 4)) = true)
    (mem : BitVec w → BitVec 8) :
    ∃ s', step ext fetch (s.onMem mem) = .next s' ∧
      InRom p h (ops ++ opsAt fetch (s.onMem mem))
        (if taken p.hasSndScratch j (bits b) then wordAt (romAt w j + imm.signExtend w)
          else wordAt (romAt w j + 4)) b s' := by
  obtain ⟨hgo0, hresume0⟩ := flag_zero hrom.width b
  have hs0 := hhold.s0
  rcases hok with hok | hok <;>
    rw [Bool.and_eq_true, Bool.and_eq_true, Bool.and_eq_true, beq_iff_eq, beq_iff_eq] at hok
  · -- `go`
    obtain ⟨⟨⟨hmark, hspot⟩, hyes⟩, hno⟩ := hok
    have htaken : taken p.hasSndScratch j (bits b) = b.getLsbD 0 := by
      rw [taken, hrow, Option.any_some, if_pos hmark]
      rfl
    rw [hmark] at hs0
    refine inRom_branch hrom hs hdec hrow hhold hplays ?_ ?_ hyes hno mem
    · rw [htaken, ← hgo0]
      exact iff_of_eq (congrArg (· = (0 : BitVec w)) hs0)
    · rw [hspot, htaken]
      rfl
  · -- `resume`
    obtain ⟨⟨⟨hmark, hspot⟩, hyes⟩, hno⟩ := hok
    have htaken : taken p.hasSndScratch j (bits b) = b.getLsbD 1 := by
      rw [taken, hrow, Option.any_some, hmark, if_neg (by decide)]
      rfl
    rw [hmark] at hs0
    refine inRom_branch hrom hs hdec hrow hhold hplays ?_ ?_ hyes hno mem
    · rw [htaken, ← hresume0]
      exact iff_of_eq (congrArg (· = (0 : BitVec w)) hs0)
    · rw [hspot, htaken]
      rfl

/-- **One instruction** of a hart in the ROM.

    The row of its word has been checked against the rows behind it (`rows_ok`); what is left is one
    case for each kind of word the ROM has. -/
theorem inRom_next (hrom : RomAt p ext fetch) (hs : InRom p h ops j b s) (mem : BitVec w → BitVec 8) :
    Next p ext fetch h ops j b s mem := by
  obtain ⟨r, i, hrow, hword, hdec, hok, hhold, hplays⟩ := inRom_word hrom hs
  have hj : j < (romCode p.hasSndScratch).length := by
    by_contra hge
    rw [not_lt] at hge
    have hnone : decode 0 = none := by decide
    rw [List.getD_eq_getElem?_getD, List.getElem?_eq_none hge] at hword
    cases hnone.symm.trans hword
  have hsome : ((rows p.hasSndScratch).getD j none).isSome = true := by rw [hrow]; rfl
  have hstays := stays_of_word hrom.width hj hsome hword
  rw [rowOk, hrow, Option.all_some, hword, Option.any_some] at hok
  cases i with
  | jal rd imm =>
    rw [Bool.and_eq_true, beq_iff_eq, Bool.or_eq_true] at hok
    obtain ⟨rfl, hok⟩ := hok
    exact inRom_jal hrom hs hj hrow hword hdec hhold hplays hok mem
  | bne rs1 rs2 imm =>
    rw [Bool.and_eq_true, Bool.and_eq_true, beq_iff_eq, beq_iff_eq, Bool.or_eq_true] at hok
    obtain ⟨⟨rfl, rfl⟩, hok⟩ := hok
    obtain ⟨s', hstep, hin⟩ := inRom_bne hrom hs hrow hdec hhold hplays hok mem
    refine .rom s' hstep (hstays (by rintro _ ⟨⟩) (by rintro ⟨⟩)) ?_
    rw [follow, loads, hword]
    cases ht : taken p.hasSndScratch j (bits b) with
    | false =>
      rw [ht] at hin
      exact hin
    | true =>
      rw [ht] at hin
      exact hin
  | store z rs2 rs1 imm =>
    rw [Bool.and_eq_true, Bool.and_eq_true, beq_iff_eq] at hok
    obtain ⟨⟨rfl, hnext⟩, hleads⟩ := hok
    obtain ⟨s', hstep, hin⟩ := inRom_store hrom hs hdec hhold hplays hnext hleads mem
    refine .rom s' hstep (hstays (by rintro _ ⟨⟩) (by rintro ⟨⟩)) ?_
    rw [follow, loads, hword]
    exact hin
  | load z rd rs1 imm =>
    rw [Bool.and_eq_true, Bool.and_eq_true, Bool.and_eq_true, beq_iff_eq, beq_iff_eq,
      Bool.or_eq_true, Bool.and_eq_true, Bool.and_eq_true, beq_iff_eq, beq_iff_eq] at hok
    obtain ⟨⟨⟨rfl, rfl⟩, hpoints⟩, hok⟩ := hok
    have hload : ∃ s', step ext fetch (s.onMem mem) = .next s' ∧
        InRom p h (ops ++ opsAt fetch (s.onMem mem)) (wordAt (romAt w j + 4)) (mem (flagAddr p h))
          s' := by
      -- the first load of a round or the second
      rcases hok with ⟨hspot, hmarks⟩ | ⟨hspot, hmarks⟩
      · exact inRom_load hrom hs hdec hhold hplays hpoints hspot (Or.inl rfl) (fun _ => rfl) hmarks mem
      · exact inRom_load hrom hs hdec hhold hplays hpoints hspot (Or.inr rfl) (fun _ => rfl) hmarks mem
    obtain ⟨s', hstep, hin⟩ := hload
    refine .rom s' hstep (hstays (by rintro _ ⟨⟩) (by rintro ⟨⟩)) ?_
    rw [follow, loads, hword]
    exact hin
  | dret =>
    obtain ⟨hdret, -⟩ := leaving_words hrom.width p.hasSndScratch j hj hsome
    rw [Bool.and_eq_true, beq_iff_eq] at hok
    have hdec' : decode (fetch (s.onMem mem).pc) = some .dret := hdec
    refine .dret (step_of_decode hdec') (hdret.mpr hword) (back_of_marks hok.2 hhold hs.untouched) ?_
    rw [hok.1] at hplays
    exact hplays
  | _ =>
    -- no access and no jump
    obtain ⟨s', hstep, hin⟩ := inRom_straight hrom hs hdec hhold hplays hok mem
    refine .rom s' hstep (hstays (by rintro _ ⟨⟩) (by rintro ⟨⟩)) ?_
    rw [follow, loads, hword]
    exact hin

end Step

/-! ## Whole runs -/

/-- Where a hart is that has entered the ROM and not come to the program yet. -/
inductive Position (p : Params n) (h : Hart w f) (ops : List (MemOp w)) (s : Hart w f) : Prop
  | rom (j : Nat) (b : Byte) (hin : InRom p h ops j b s)
  | go (hpc : s.pc = dmAddr w p WhereToAddr) (hback : Back h s) (hplays : Plays p h ops .command)

/-- The hart has not come to the program. -/
def Inside (p : Params n) (s : Hart w f) : Prop := s.pc ≠ dmAddr w p WhereToAddr

section Runs

variable {p : Params n} {ext : Extensions f} {fetch : BitVec w → BitVec 32} {h s : Hart w f}
  {ops : List (MemOp w)}

/-- At the halt address. -/
theorem inRom_entry (hrom : RomAt p ext fetch) (hpc : h.pc = dmAddr w p (HaltAddress.setWidth 12)) :
    InRom p h [] 0 0 h := by
  refine ⟨hpc.trans (TrapRecovery.dmAddr_vector p hrom.width 0 (by decide)),
    ⟨fun _ _ _ => rfl, fun _ _ _ => rfl, rfl⟩, ?_⟩
  refine ⟨⟨.at .entry, ⟨.s0, .a0, .any, .any⟩⟩, ?_, ⟨rfl, rfl, trivial, trivial⟩, .refl⟩
  cases p.hasSndScratch <;> rfl

/-- Every run is in the ROM or has just come to the jump.  The induction is on the run, with `inRom_next`
    as its step. -/
theorem position_of_trace (hrom : RomAt p ext fetch)
    (hpc : h.pc = dmAddr w p (HaltAddress.setWidth 12))
    (hrun : Trace ext fetch (Inside p) h ops s) : Position p h ops s := by
  refine trace_of_step (Position p h) (.rom 0 0 (inRom_entry hrom hpc)) ?_ hrun
  intro ops u u' mem hu hinside hstep
  cases hu with
  -- a run inside the ROM has not been at the jump
  | go hpc hback hplays => exact absurd hpc hinside
  | rom j b hin =>
    have hnext := inRom_next hrom hin mem
    cases hnext with
    | rom v hv hj hin' =>
      rw [hv] at hstep
      cases hstep
      exact .rom _ _ hin'
    | go v hv hj hpc hback hplays =>
      rw [hv] at hstep
      cases hstep
      exact .go hpc hback hplays
    -- behind a `dret` there is no next state
    | dret hv hj hback hplays =>
      rw [hv] at hstep
      cases hstep

/-- What the machine code does, after a run with these accesses: they are those of a hart machine that is
    at `pc` now, and on the bus they are what run control asks of a hart of that number; the hart is
    about to go on, unless it has come to the program or to `dret`; and then the hart machine has as
    well, and the registers are as they were. -/
structure FollowsTo (p : Params n) (ext : Extensions f) (fetch : BitVec w → BitVec 32) (h : Hart w f)
    (ops : List (MemOp w)) (s : Hart w f) (pc : Pc) : Prop where
  plays : Plays p h ops pc
  bus : (h.csr CSR_MHARTID).toNat < 1024 → ∀ bs : List (DmMem.Access w), List.Forall₂ Carries bs ops →
    OnBus (h.csr CSR_MHARTID).toNat bs pc
  goes : Inside p s → ∀ mem, (∃ s', step ext fetch (s.onMem mem) = .next s') ∨
    step ext fetch (s.onMem mem) = .dret
  program : ¬ Inside p s → pc = .command ∧ Back h s
  outside : Inside p s → ∀ mem, step ext fetch (s.onMem mem) = .dret → pc = .outside ∧ Back h s

/-- **The machine code of the ROM is the hart machine of run control**, in every run from the halt
    address, whatever the debug module shows the hart on the way. -/
theorem rom_follows (hrom : RomAt p ext fetch) (hpc : h.pc = dmAddr w p (HaltAddress.setWidth 12))
    (hrun : Trace ext fetch (Inside p) h ops s) : ∃ pc, FollowsTo p ext fetch h ops s pc := by
  have hbus {pc : Pc} (hplays : Plays p h ops pc) (hid : (h.csr CSR_MHARTID).toNat < 1024)
      (bs : List (DmMem.Access w)) (hbs : List.Forall₂ Carries bs ops) :
      OnBus (h.csr CSR_MHARTID).toNat bs pc :=
    onBus_of_plays hrom.width p hrom.page hid hplays hbs
  cases position_of_trace hrom hpc hrun with
  | go hpc hback hplays =>
    exact ⟨.command, hplays, hbus hplays, fun hin => absurd hpc hin, fun _ => ⟨rfl, hback⟩,
      fun hin => absurd hpc hin⟩
  | rom j b hin =>
    have hinside : Inside p s := by
      obtain ⟨off, hoff, hs⟩ := inRom_page hrom hin
      obtain ⟨r, hrow, -⟩ := hin.row
      have hj : j < 38 := by
        have hlength : (rows p.hasSndScratch).length ≤ 38 := by cases p.hasSndScratch <;> decide
        by_contra hge
        rw [List.getD_eq_getElem?_getD, List.getElem?_eq_none (by omega)] at hrow
        cases hrow
      have hapart : ∀ j < 38, romAt w j ≠ WhereToAddr.setWidth w := by
        rcases hrom.width with rfl | rfl <;> decide
      rw [Inside, hin.pc, dmAddr, ← base]
      exact fun heq => hapart j hj ((BitVec.add_right_inj _).mp heq)
    by_cases hj : j = dretWord p.hasSndScratch
    · -- at `dret`, on any memory
      have hdret (mem : BitVec w → BitVec 8) : step ext fetch (s.onMem mem) = .dret ∧ Back h s ∧
          Plays p h ops .outside := by
        cases inRom_next hrom hin mem with
        | rom v hv hne hin' => exact absurd hj hne.2
        | go v hv hgo hpc hback hplays =>
          rw [hj] at hgo
          cases hsnd : p.hasSndScratch <;> rw [hsnd] at hgo <;> exact absurd hgo (by decide)
        | dret hv hj hback hplays => exact ⟨hv, hback, hplays⟩
      obtain ⟨-, hback, hplays⟩ := hdret s.mem
      exact ⟨.outside, hplays, hbus hplays, fun _ mem => Or.inr (hdret mem).1,
        fun hout => absurd hinside hout, fun _ _ _ => ⟨rfl, hback⟩⟩
    · have hgoes (mem : BitVec w → BitVec 8) : ∃ s', step ext fetch (s.onMem mem) = .next s' := by
        cases inRom_next hrom hin mem with
        | rom v hv hne hin' => exact ⟨v, hv⟩
        | go v hv hgo hpc hback hplays => exact ⟨v, hv⟩
        | dret hv heq hback hplays => exact absurd heq hj
      obtain ⟨r, -, -, hplays⟩ := hin.row
      refine ⟨_, hplays, hbus hplays, fun _ mem => Or.inl (hgoes mem),
        fun hout => absurd hinside hout, ?_⟩
      intro _ mem hdret
      obtain ⟨s', hs'⟩ := hgoes mem
      rw [hs'] at hdret
      cases hdret

end Runs

/-- What the debug module answers is the ROM. -/
theorem romAt_fetched {p : Params n} {ext : Extensions f} (hw : w = 32 ∨ w = 64)
    (hpage : 4096 ∣ p.dmBaseAddress.toNat) (hscratch : Scratch ext p.hasSndScratch)
    (hmhartid : ext.readable CSR_MHARTID = true) (st : DmMem.State n) (i : DmMem.Input n w) :
    RomAt p ext (fetched p st i) :=
  ⟨hw, hpage, hscratch, hmhartid, contains_rom p st i hw hpage⟩

/-- The code of a debug module at `0x1000`, with two scratch registers. -/
def code : BitVec 32 → BitVec 32 := fetched (dmAt 0x1000) idleHalted (presented 0)

theorem romAt_code : RomAt (dmAt 0x1000) allCsrs code :=
  romAt_fetched (Or.inl rfl) (by decide) ⟨rfl, rfl, fun _ => rfl, fun _ => rfl⟩ rfl _ _

/-- Hart 5 at the halt address, every register holding its number. -/
def atHalt : Hart 32 64 :=
  { atProgram (dmAt 0x1000) with
    pc := dmAddr 32 (dmAt 0x1000) (HaltAddress.setWidth 12)
    csr := fun c => if c = CSR_MHARTID then 5 else c.setWidth 32 + 0x1000 }

/-- The flag byte of the hart says this, and so does every other byte. -/
def flagsSay (b : Byte) : BitVec 32 → BitVec 8 := fun _ => b

instance {p : Params n} : DecidablePred (Inside (w := w) (f := f) p) := fun s =>
  inferInstanceAs (Decidable (s.pc ≠ dmAddr w p WhereToAddr))

/-- From the halt address to the program: no flag is set in the first round, `go` in the second. -/
def toProgram : Option (List (MemOp 32) × Hart 32 64) :=
  traceOn allCsrs code (Inside (dmAt 0x1000))
    (List.replicate 20 (flagsSay 0) ++ List.replicate 9 (flagsSay 1)) atHalt

theorem rom_follows_toProgram : ∃ s pc, FollowsTo (dmAt 0x1000) allCsrs code atHalt
    [.store 0x1100 4 5, .load 0x1405 1 0, .load 0x1405 1 0, .store 0x1100 4 5, .load 0x1405 1 1,
      .store 0x1104 4 0] s pc := by
  have hops : toProgram.map (·.1) = some [.store 0x1100 4 5, .load 0x1405 1 0, .load 0x1405 1 0,
    .store 0x1100 4 5, .load 0x1405 1 1, .store 0x1104 4 0] := by decide +kernel
  rw [Option.map_eq_some_iff] at hops
  obtain ⟨r, hr, hops⟩ := hops
  have hrun := trace_of_traceOn hr
  rw [hops] at hrun
  exact ⟨r.2, rom_follows romAt_code rfl hrun⟩

/-! ## The flags are obeyed -/

/-- The access to come is one of the loop's. -/
def loopAccess (pc : Pc) : Bool := pc == .entry || pc == .pollGo || pc == .pollResume

/-- The same, as far as the two flags loaded last decide it. -/
def Spot.loops (x : Bool × Bool) : Spot → Bool
  | .at pc => loopAccess pc
  | .afterGo => !x.1
  | .afterResume => !x.2

/-- The hart machine is in its loop exactly at the places that the table of the ROM calls so. -/
theorem loops_pc (spot : Spot) (b : Byte) : loopAccess (spot.pc b) = spot.loops (bits b) := by
  cases spot with
  | «at» pc => rfl
  | afterGo =>
    show loopAccess (if b.getLsbD 0 then .going else .pollResume) = !b.getLsbD 0
    cases b.getLsbD 0 <;> rfl
  | afterResume =>
    show loopAccess (if b.getLsbD 1 then .resuming else .entry) = !b.getLsbD 1
    cases b.getLsbD 1 <;> rfl

/-- From word `j` on, every load getting the flags `c`, word `to` is reached within `k` instructions, and
    no word at which the hart leaves comes before it. -/
def reaches (w : Nat) (snd : Bool) (c : Bool × Bool) (dest : Nat) : Nat → Nat → Bool × Bool → Bool
  | 0, j, x => j == dest
  | k + 1, j, x => j == dest || (j != goWord snd && j != dretWord snd &&
      reaches w snd c dest k (follow w snd j x) (if loads snd j then c else x))

/-- From the loop, `go` leads to the program and `resume` to `dret`. -/
theorem loop_reaches (hw : w = 32 ∨ w = 64) (snd : Bool) :
    ∀ j < 38, ∀ x0 x1 : Bool, ((rows snd).getD j none).any (fun r => r.spot.loops (x0, x1)) = true →
      reaches w snd (true, false) (goWord snd) 40 j (x0, x1) = true ∧
        reaches w snd (false, true) (dretWord snd) 40 j (x0, x1) = true := by
  rcases hw with rfl | rfl <;> cases snd <;> decide +kernel

section Obeyed

variable {p : Params n} {ext : Extensions f} {fetch : BitVec w → BitVec 32} {h s : Hart w f}
  {ops : List (MemOp w)}

/-- The hart is in the ROM, and its next access is one of the loop's. -/
def Polling (p : Params n) (h : Hart w f) (ops : List (MemOp w)) (s : Hart w f) : Prop :=
  ∃ j b, InRom p h ops j b s ∧
    ((rows p.hasSndScratch).getD j none).any (fun r => r.spot.loops (bits b)) = true

/-- A hart goes where the walk goes, if every memory on the way has the same flag byte.  The walk is on
    the words and the byte alone, so it can be computed. -/
theorem run_of_reaches (hrom : RomAt p ext fetch) (c : Byte) (dest : Nat) (k : Nat) (j : Nat) (b : Byte)
    {ops : List (MemOp w)} {s : Hart w f} (hin : InRom p h ops j b s)
    (hreach : reaches w p.hasSndScratch (bits c) dest k j (bits b) = true)
    (ms : List (BitVec w → BitVec 8)) (hlen : k ≤ ms.length) (hms : ∀ m ∈ ms, m (flagAddr p h) = c) :
    ∃ i ≤ k, ∃ v ops' b', runOn ext fetch (ms.take i) s = some v ∧ InRom p h ops' dest b' v := by
  induction k generalizing j b ops s ms with
  -- no instruction left: the walk says that the hart is there
  | zero =>
    rw [reaches, beq_iff_eq] at hreach
    subst hreach
    exact ⟨0, Nat.le_refl 0, s, ops, b, rfl, hin⟩
  | succ k ih =>
    rw [reaches, Bool.or_eq_true, Bool.and_eq_true, Bool.and_eq_true, beq_iff_eq, bne_iff_ne,
      bne_iff_ne] at hreach
    -- either the hart is there, or one instruction takes it along the walk
    rcases hreach with rfl | ⟨⟨hgo, hdret⟩, hrest⟩
    · exact ⟨0, Nat.zero_le _, s, ops, b, rfl, hin⟩
    · cases ms with
      | nil => exact absurd hlen (Nat.not_succ_le_zero k)
      | cons mem ms =>
        have hmem : mem (flagAddr p h) = c := hms mem (List.mem_cons_self ..)
        cases inRom_next hrom hin mem with
        | go v hv heq hpc hback hplays => exact absurd heq hgo
        | dret hv heq hback hplays => exact absurd heq hdret
        | rom v hv hne hin' =>
          have hbits : bits (if loads p.hasSndScratch j then mem (flagAddr p h) else b)
              = if loads p.hasSndScratch j then bits c else bits b := by
            rw [hmem]
            split_ifs <;> rfl
          rw [← hbits] at hrest
          obtain ⟨i, hi, u, ops', b', hrun, hu⟩ := ih _ _ hin' hrest ms (Nat.le_of_succ_le_succ hlen)
            fun m hm => hms m (List.mem_cons_of_mem mem hm)
          refine ⟨i + 1, Nat.succ_le_succ hi, u, ops', b', ?_, hu⟩
          rw [List.take_succ_cons, runOn_cons _ hv]
          exact hrun

/-- The index of a row is one of the ROM's. -/
theorem lt_of_row {snd : Bool} {j : Nat} {g : Row → Bool}
    (h : ((rows snd).getD j none).any g = true) : j < 38 := by
  have hlength : (rows snd).length ≤ 38 := by cases snd <;> decide
  by_contra hge
  rw [List.getD_eq_getElem?_getD, List.getElem?_eq_none (by omega)] at h
  cases h

/-- The hart runs to the jump to the program, its registers as they were at the halt address. -/
def GoesToProgram (p : Params n) (ext : Extensions f) (fetch : BitVec w → BitVec 32) (h s : Hart w f)
    (ms : List (BitVec w → BitVec 8)) : Prop :=
  ∃ k ≤ 41, ∃ v, runOn ext fetch (ms.take k) s = some v ∧ v.pc = dmAddr w p WhereToAddr ∧ Back h v

/-- The hart runs to the `dret`, its registers as they were at the halt address. -/
def LeavesDebugMode (ext : Extensions f) (fetch : BitVec w → BitVec 32) (h s : Hart w f)
    (ms : List (BitVec w → BitVec 8)) : Prop :=
  ∃ k ≤ 40, ∃ v, runOn ext fetch (ms.take k) s = some v ∧ Back h v ∧
    ∀ mem, step ext fetch (v.onMem mem) = .dret

theorem goesToProgram (hrom : RomAt p ext fetch) (hs : Polling p h ops s)
    (ms : List (BitVec w → BitVec 8)) (hlen : 41 ≤ ms.length)
    (hms : ∀ m ∈ ms, m (flagAddr p h) = 1) : GoesToProgram p ext fetch h s ms := by
  obtain ⟨j, b, hin, hloops⟩ := hs
  obtain ⟨hgo, -⟩ := loop_reaches hrom.width p.hasSndScratch j (lt_of_row hloops) _ _ hloops
  obtain ⟨k, hk, v, ops', b', hrun, hv⟩ :=
    run_of_reaches hrom 1 _ 40 j b hin hgo ms (Nat.le_of_succ_le hlen) hms
  -- one more instruction: the jump
  have hlt : k < ms.length := by omega
  cases inRom_next hrom hv (ms.get ⟨k, hlt⟩) with
  | rom u hu hne hin' => exact absurd rfl hne.1
  | dret hu heq hback hplays =>
    cases hsnd : p.hasSndScratch <;> rw [hsnd] at heq <;> exact absurd heq (by decide)
  | go u hu heq hpc hback hplays =>
    refine ⟨k + 1, Nat.succ_le_succ hk, u, ?_, hpc, hback⟩
    rw [List.take_succ_eq_append_getElem hlt, runOn_append, hrun]
    exact runOn_cons [] hu

theorem leavesDebugMode (hrom : RomAt p ext fetch) (hs : Polling p h ops s)
    (ms : List (BitVec w → BitVec 8)) (hlen : 40 ≤ ms.length)
    (hms : ∀ m ∈ ms, m (flagAddr p h) = 2) : LeavesDebugMode ext fetch h s ms := by
  obtain ⟨j, b, hin, hloops⟩ := hs
  obtain ⟨-, hdret⟩ := loop_reaches hrom.width p.hasSndScratch j (lt_of_row hloops) _ _ hloops
  obtain ⟨k, hk, v, ops', b', hrun, hv⟩ := run_of_reaches hrom 2 _ 40 j b hin hdret ms hlen hms
  have hat (mem : BitVec w → BitVec 8) : step ext fetch (v.onMem mem) = .dret ∧ Back h v := by
    cases inRom_next hrom hv mem with
    | rom u hu hne hin' => exact absurd rfl hne.2
    | go u hu heq hpc hback hplays =>
      cases hsnd : p.hasSndScratch <;> rw [hsnd] at heq <;> exact absurd heq (by decide)
    | dret hu heq hback hplays => exact ⟨hu, hback⟩
  exact ⟨k, hk, v, hrun, (hat v.mem).2, fun mem => (hat mem).1⟩

/-- After a run that leaves the hart machine in its loop, the hart is at a word of the loop. -/
theorem polling_of_trace (hrom : RomAt p ext fetch)
    (hpc : h.pc = dmAddr w p (HaltAddress.setWidth 12)) (hrun : Trace ext fetch (Inside p) h ops s)
    {pc : Pc} (hplays : Plays p h ops pc) (hloop : loopAccess pc = true) : Polling p h ops s := by
  cases position_of_trace hrom hpc hrun with
  | go _ _ hplays' =>
    obtain rfl := plays_unique hrom.width hplays hplays'
    cases hloop
  | rom j b hin =>
    obtain ⟨r, hrow, -, hplays'⟩ := hin.row
    refine ⟨j, b, hin, ?_⟩
    rw [hrow, Option.any_some, ← loops_pc, ← plays_unique hrom.width hplays hplays']
    exact hloop

/-- **The flags are obeyed.**  Take any run from the halt address, on any memory, whose accesses leave the
    hart machine in its loop: before its store to `HALTED` or before one of its loads of the flags.
    When from then on the flag byte says `go`, the hart is at the program within 41 instructions, and
    when it says `resume`, at the `dret` within 40; its registers are as they were at the halt
    address. -/
theorem flags_obeyed (hrom : RomAt p ext fetch) (hpc : h.pc = dmAddr w p (HaltAddress.setWidth 12))
    (hrun : Trace ext fetch (Inside p) h ops s) {pc : Pc} (hplays : Plays p h ops pc)
    (hloop : loopAccess pc = true) (ms : List (BitVec w → BitVec 8)) (hlen : 41 ≤ ms.length) :
    ((∀ m ∈ ms, m (flagAddr p h) = 1) → GoesToProgram p ext fetch h s ms) ∧
      ((∀ m ∈ ms, m (flagAddr p h) = 2) → LeavesDebugMode ext fetch h s ms) := by
  have hpolling := polling_of_trace hrom hpc hrun hplays hloop
  exact ⟨goesToProgram hrom hpolling ms hlen,
    leavesDebugMode hrom hpolling ms (Nat.le_of_succ_le hlen)⟩

end Obeyed

/-- Fourteen instructions from the halt address with no flag set: the hart has parked, and has polled the
    flags once. -/
def polledOnce : Option (List (MemOp 32) × Hart 32 64) :=
  traceOn allCsrs code (Inside (dmAt 0x1000)) (List.replicate 14 (flagsSay 0)) atHalt

/-- From there the hart goes to the program on `go`, and out of debug mode on `resume`. -/
theorem flags_obeyed_polledOnce : ∃ s,
    Trace allCsrs code (Inside (dmAt 0x1000)) atHalt [.store 0x1100 4 5, .load 0x1405 1 0] s ∧
    GoesToProgram (dmAt 0x1000) allCsrs code atHalt s (List.replicate 41 (flagsSay 1)) ∧
      LeavesDebugMode allCsrs code atHalt s (List.replicate 41 (flagsSay 2)) := by
  have hops : polledOnce.map (·.1) = some [.store 0x1100 4 5, .load 0x1405 1 0] := by decide +kernel
  rw [Option.map_eq_some_iff] at hops
  obtain ⟨r, hr, hops⟩ := hops
  have hrun := trace_of_traceOn hr
  rw [hops] at hrun
  have hparked : Plays (dmAt 0x1000) atHalt [.store 0x1100 4 5] .pollGo := .snoc 0 .refl rfl
  have hplays : Plays (dmAt 0x1000) atHalt [.store 0x1100 4 5, .load 0x1405 1 0] .pollResume :=
    .snoc 0 hparked rfl
  refine ⟨r.2, hrun, ?_, ?_⟩
  · refine (flags_obeyed romAt_code rfl hrun hplays rfl _ (by decide)).1 fun m hm => ?_
    rw [List.eq_of_mem_replicate hm]
    rfl
  · refine (flags_obeyed romAt_code rfl hrun hplays rfl _ (by decide)).2 fun m hm => ?_
    rw [List.eq_of_mem_replicate hm]
    rfl

end RiscDbgUart.DebugRom
