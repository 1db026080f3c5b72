/-
  The data registers as one memory.

  The debugger reaches the two data registers over the DMI, a word at a time, and a hart reaches them on
  its bus at `DataBaseAddr`, with byte enables.  What they are for is a memory of eight bytes that both
  sides see: `update` says what a cycle does to such a memory, and `OneMemory` that the registers, the
  loads of the hart and the reads of the debugger agree with it.

  The three paths find the place of an access in different ways.  A load selects the double word by its
  number and the half of it by bit 2 of the address; a DMI access takes the register's number; but a
  store copies the lanes of the bus to the low bytes of the double word, whatever the address.  That is
  the right place on a 64-bit bus, and for the lower register on a 32-bit bus.

  The bytes are compared one by one (`byteAt`).  `data_next` is what a cycle leaves in the register,
  `loaded_byte` and `read_word` what the two sides find, and `memory_kept_iff` says of one cycle that the
  register goes where the memory goes.  A store through the upper half of the double word on a 32-bit bus
  is the one access that does not fit (`StoreFits`).
-/
import RiscDbgUart.Clocked.Lanes
import RiscDbgUart.DebugModule
import RiscDbgUart.HartFlags

set_option linter.unusedVariables false

namespace RiscDbgUart.DebugModule

open Clocked
open DmMem (Params Access DataBaseAddr DataEndAddr)

/-! ## A memory of bytes -/

abbrev Memory := Nat → Byte

/-- Byte `j` of a vector. -/
def byteAt {k : Nat} (v : BitVec k) (j : Nat) : Byte := v.extractLsb' (8 * j) 8

variable {n w : Nat}

/-! ## The two sides -/

/-- The access is to the data registers. -/
def toData (b : Access w) : Bool := decide (DataBaseAddr ≤ b.addr ∧ b.addr ≤ DataEndAddr)

def storesData (b : Access w) : Bool := b.reqI && b.weI && toData b

def loadsData (b : Access w) : Bool := b.reqI && !b.weI && toData b

/-- The place of the bus word in the data registers. -/
def busOffset (b : Access w) : Nat := (b.addr.toNat - DataBaseAddr.toNat) / (w / 8) * (w / 8)

/-- The data register that the debugger writes in the cycle: the access is accepted, and no command is
    executing. -/
def dmiWrites (p : Params n) (s : State n) (i : Input n w) : Option (Fin DataCount) :=
  match DmRegs.dmCsrAddr (csrsIn p s i) with
  | .data k => if DmRegs.overwrites s.csrs (csrsIn p s i) (.data k) then some k else none
  | _ => none

/-- What the cycle does to the memory, if a store of the hart has its place at `base`.  While `dmactive`
    is low the memory is held in reset, as the module is. -/
def updateAt (base : Nat) (p : Params n) (m : Memory) (s : State n) (i : Input n w) : Memory :=
  if dmactiveO s = false then fun _ => 0
  else if storesData i.busI then
    storeLanes m base (w / 8) (fun l => i.busI.beI.getLsbD l) (byteAt i.busI.wdataI)
  else match dmiWrites p s i with
    | some k => storeLanes m (4 * k) 4 (fun _ => true) (byteAt i.dmiReqI.data)
    | none => m

/-- What the cycle does to the memory: a store has its place at its address. -/
def update (p : Params n) (m : Memory) (s : State n) (i : Input n w) : Memory :=
  updateAt (busOffset i.busI) p m s i

/-- The data registers are the memory: they hold what it holds after the cycle, and a load of the hart
    and an accepted read of the debugger find what it held before. -/
structure OneMemory (p : Params n) (c : Memory × State n) (i : Input n w) : Prop where
  kept : ∀ j < 8, byteAt (next p c.2 i).csrs.regs.data j = update p c.1 c.2 i j
  loaded : loadsData i.busI = true → ∀ l < w / 8,
    byteAt (DmMem.rdataO p w (next p c.2 i).mem) l = c.1 (busOffset i.busI + l)
  read : ∀ k, DmRegs.reads c.2.csrs (csrsIn p c.2 i) = true →
    DmRegs.dmCsrAddr (csrsIn p c.2 i) = .data k → ∀ l < 4,
    byteAt (DmRegs.csrReadWrite c.2.csrs (csrsIn p c.2 i)).respQueueData l = c.1 (4 * k + l)

/-- The store of an active module finds its place: the bus is as wide as the two registers, or the
    store goes to the lower one, or both hold what it stores already. -/
def StoreFits (s : State n) (i : Input n w) : Prop :=
  dmactiveO s = true → storesData i.busI = true →
    w = 64 ∨ busOffset i.busI = 0 ∨ ∀ l < 4, i.busI.beI.getLsbD l = true →
      byteAt s.csrs.regs.data l = byteAt i.busI.wdataI l ∧
        byteAt s.csrs.regs.data (4 + l) = byteAt i.busI.wdataI l

instance (s : State n) (i : Input n w) : Decidable (StoreFits s i) := by
  unfold StoreFits; infer_instance

/-! ## Bytes -/

theorem byteAt_bit {k : Nat} (v : BitVec k) (j : Nat) {b : Nat} (hb : b < 8) :
    (byteAt v j).getLsbD b = v.getLsbD (8 * j + b) := by
  rw [byteAt, BitVec.getLsbD_extractLsb', decide_eq_true hb, Bool.true_and]

theorem byteAt_setWord (v : BitVec 64) (x : BitVec 32) (k : Nat) {j : Nat} (hj : j < 8) :
    byteAt (setWord v k x) j = storeLanes (byteAt v) (4 * k) 4 (fun _ => true) (byteAt x) j := by
  apply BitVec.eq_of_getLsbD_eq
  intro b hb
  rw [byteAt_bit _ _ hb, setWord_bit _ _ _ _ (by omega), storeLanes]
  by_cases hin : 4 * k ≤ j ∧ j < 4 * k + 4
  · rw [if_pos (by omega), if_pos ⟨hin.1, hin.2, rfl⟩, byteAt_bit _ _ hb]
    exact congrArg x.getLsbD (by omega)
  · rw [if_neg (by omega), if_neg (fun h => hin ⟨h.1, h.2.1⟩), byteAt_bit _ _ hb]

theorem byteAt_getWord {m : Nat} (v : BitVec m) (k : Nat) {l : Nat} (hl : l < 4) :
    byteAt (getWord v k) l = byteAt v (4 * k + l) := by
  apply BitVec.eq_of_getLsbD_eq
  intro b hb
  rw [byteAt_bit _ _ hb, byteAt_bit _ _ hb, getWord, BitVec.getLsbD_extractLsb',
    decide_eq_true (by omega), Bool.true_and]
  exact congrArg v.getLsbD (by omega)

/-- A double word is its two words. -/
theorem getWord_halves (v : BitVec 64) : getWord v 1 ++ getWord v 0 = v := by
  apply BitVec.eq_of_getLsbD_eq
  intro b hb
  rw [BitVec.getLsbD_append, getWord, getWord, BitVec.getLsbD_extractLsb', BitVec.getLsbD_extractLsb']
  rcases Nat.lt_or_ge b 32 with hlow | hlow
  · simp [hlow]
  · rw [if_neg (by omega), decide_eq_true (by omega), Bool.true_and]
    exact congrArg v.getLsbD (by omega)

/-- What a store of the hart leaves in the data registers: the lanes go to the bottom. -/
theorem writeBytes_byte (b : Access w) (v : BitVec 64) (k : Nat) {j : Nat} (hj : j < 8) :
    byteAt (DmMem.writeBytes b v k) j
      = storeLanes (byteAt v) 0 k (fun l => b.beI.getLsbD l) (byteAt b.wdataI) j := by
  rw [DmMem.writeBytes]
  induction k with
  | zero =>
    rw [storeLanes_zero]
    rfl
  | succ k ih =>
    rw [List.range_succ, List.foldl_append, List.foldl_cons, List.foldl_nil, storeLanes_succ, ← ih,
      Nat.zero_add]
    cases hen : b.beI.getLsbD k
    · rw [if_neg Bool.false_ne_true, if_neg (fun h => Bool.false_ne_true h.2)]
    · rw [if_pos rfl, byteAt, extract_setByte _ _ _ hj]
      exact if_congr (and_iff_left rfl).symm rfl rfl

section Edge

variable {p : Params n} {m m' : Memory} {s : State n} {i : Input n w} {j : Nat}

/-! ## The registers after a cycle -/

theorem dataValid_eq : (csrsIn p s i).dataValidI = storesData i.busI := by
  rw [storesData, toData, Bool.decide_and]
  exact congrArg (i.busI.reqI && i.busI.weI && ·) (Bool.decide_coe _)

/-- The data registers after a cycle: the lanes of a store go to the bottom. -/
theorem data_next (p : Params n) (s : State n) (i : Input n w) (hj : j < 8) :
    byteAt (next p s i).csrs.regs.data j = updateAt 0 p (byteAt s.csrs.regs.data) s i j := by
  rw [updateAt]
  cases hact : dmactiveO s
  · have hregs : (next p s i).csrs.regs = _ :=
      DmRegs.nextRegs_inactive s.csrs (csrsIn p s i) p.selectableHarts hact
    rw [hregs, if_pos rfl]
    exact BitVec.extractLsb'_zero
  · rw [regs_next p i hact, if_neg (by decide)]
    show byteAt (DmRegs.csrReadWrite s.csrs (csrsIn p s i)).d.data j = _
    rw [DmRegs.data_d, dataValid_eq]
    cases hstore : storesData i.busI
    · -- an access of the debugger, or none
      rw [if_neg Bool.false_ne_true, if_neg Bool.false_ne_true, dmiWrites]
      cases DmRegs.dmCsrAddr (csrsIn p s i) with
      | data k =>
        dsimp only
        split_ifs
        · exact byteAt_setWord _ _ _ hj
        · rfl
      | _ => rfl
    · rw [if_pos rfl, if_pos rfl]
      have hout : (csrsIn p s i).dataI = DmMem.writeBytes i.busI s.csrs.regs.data (w / 8) :=
        if_pos ((dataValid_eq (p := p)).trans hstore)
      rw [hout]
      exact writeBytes_byte _ _ _ hj

theorem updateAt_congr (base : Nat) (h : m j = m' j) :
    updateAt base p m s i j = updateAt base p m' s i j := by
  rw [updateAt, updateAt]
  split_ifs
  · rfl
  · exact storeLanes_congr m _ _ _ _ h
  · cases dmiWrites p s i
    · exact h
    · exact storeLanes_congr m _ _ _ _ h

/-- A store in an active module writes its enabled lanes, from the place of the bus word on. -/
theorem updateAt_store (base : Nat) (hact : dmactiveO s = true) (hstore : storesData i.busI = true) :
    updateAt base p m s i
      = storeLanes m base (w / 8) (fun l => i.busI.beI.getLsbD l) (byteAt i.busI.wdataI) := by
  rw [updateAt, hact, if_neg (by decide), hstore, if_pos rfl]

/-- Without one the place does not matter, so two memories that differ in it move alike. -/
theorem updateAt_base (base base' : Nat)
    (h : ¬ (dmactiveO s = true ∧ storesData i.busI = true)) :
    updateAt base p m s i = updateAt base' p m s i := by
  rw [updateAt, updateAt]
  split_ifs with hact hstore
  · rfl
  · exact absurd ⟨Bool.not_eq_false _ ▸ hact, hstore⟩ h
  · rfl

/-! ## What the two sides find -/

/-- Where the data registers are in the address space of the harts. -/
theorem toData_iff {b : Access w} :
    toData b = true ↔ 896 ≤ b.addr.toNat ∧ b.addr.toNat ≤ 903 := by
  rw [toData, decide_eq_true_iff, BitVec.le_def, BitVec.le_def]
  exact Iff.rfl

/-- The place of the bus word on either bus: the wide one has both registers at once, the narrow one either. -/
theorem busOffset_cases {b : Access w} (hw : w = 32 ∨ w = 64) (hb : toData b = true) :
    (w = 64 ∧ busOffset b = 0) ∨ (w = 32 ∧ (busOffset b = 0 ∨ busOffset b = 4)) := by
  rw [toData_iff] at hb
  have hbase : DataBaseAddr.toNat = 896 := rfl
  rw [busOffset, hbase]
  rcases hw with rfl | rfl
  · right
    omega
  · left
    omega

/-- A load finds both registers, the second one on top, whatever its own width. -/
theorem rdataD_data {d : DmMem.Input n w} (q : DmMem.State n) (hload : loadsData d.busI = true) :
    DmMem.rdataD p q d = d.dataI := by
  rw [loadsData, Bool.and_eq_true, toData_iff] at hload
  obtain ⟨hreq, hlow, hhigh⟩ := hload
  have hbase : DataBaseAddr.toNat = 896 := rfl
  have hend : DataEndAddr.toNat = 903 := rfl
  have hwhere : d.busI.addr ≠ DmMem.WhereToAddr := by
    intro h
    rw [h] at hlow
    exact absurd hlow (by decide)
  have hrange : DataBaseAddr ≤ d.busI.addr ∧ d.busI.addr ≤ DataEndAddr := by
    rw [BitVec.le_def, BitVec.le_def]
    omega
  have hdouble : DmMem.doubleWord d DataBaseAddr = 0 := by
    have hfirst : d.busI.addr.extractLsb' 3 9 = DataBaseAddr.extractLsb' 3 9 := by
      apply BitVec.eq_of_toNat_eq
      rw [BitVec.extractLsb'_toNat, BitVec.extractLsb'_toNat, Nat.shiftRight_eq_div_pow,
        Nat.shiftRight_eq_div_pow, hbase]
      omega
    rw [DmMem.doubleWord, hfirst, BitVec.sub_self]
    rfl
  rw [DmMem.rdataD]
  simp only [hreq, if_true, if_neg hwhere, if_pos hrange, hdouble]
  exact getWord_halves d.dataI

/-- A load of the hart finds the bytes at its address, a cycle after it asked for them. -/
theorem loaded_byte (hw : w = 32 ∨ w = 64) (hload : loadsData i.busI = true) {l : Nat}
    (hl : l < w / 8) : byteAt (DmMem.rdataO p w (next p s i).mem) l
      = byteAt s.csrs.regs.data (busOffset i.busI + l) := by
  have hrange : 896 ≤ i.busI.addr.toNat ∧ i.busI.addr.toNat ≤ 903 := by
    rw [loadsData, Bool.and_eq_true] at hload
    exact toData_iff.mp hload.2
  have hoffset : i.busI.addr.toNat % 8 / (w / 8) * (w / 8) = busOffset i.busI := by
    have hbase : DataBaseAddr.toNat = 896 := rfl
    rw [busOffset, hbase]
    have hmod : i.busI.addr.toNat % 8 = i.busI.addr.toNat - 896 := by omega
    rw [hmod]
  have hbyte := DmMem.rdataO_byte p s.mem (i := memIn p s i) hw
    (show i.busI.addr.toNat < 2048 by omega) hl
  rw [rdataD_data s.mem (show loadsData (memIn p s i).busI = true from hload)] at hbyte
  rw [byteAt, byteAt, ← hoffset]
  exact hbyte

/-- A read of the debugger finds the register, in the cycle in which it is accepted. -/
theorem read_word {q : DmRegs.State n} {d : DmRegs.Input n w} {k : Fin DataCount}
    (hread : DmRegs.reads q d = true) (haddr : DmRegs.dmCsrAddr d = .data k) :
    (DmRegs.csrReadWrite q d).respQueueData = getWord q.regs.data k := by
  rcases DmRegs.access_cases q d with ⟨-, hr, -⟩ | ⟨-, -, h⟩ | ⟨-, hr, -⟩
  · rw [hread] at hr
    cases hr
  · rw [h]
    show (DmRegs.read q d (DmRegs.defaults q d)).respQueueData = _
    rw [DmRegs.read, haddr]
    simp only [DmRegs.busyError_eq]
    cases d.cmdbusyI <;> rfl
  · rw [hread] at hr
    cases hr

/-! ## One cycle -/

/-- The registers hold the memory. -/
def Holds (c : Memory × State n) : Prop := ∀ j < 8, byteAt c.2.csrs.regs.data j = c.1 j

/-- **The one place where the two differ**: a store whose lanes do not belong to the bottom. -/
theorem memory_kept_iff (hw : w = 32 ∨ w = 64) (hm : ∀ j < 8, byteAt s.csrs.regs.data j = m j) :
    (∀ j < 8, byteAt (next p s i).csrs.regs.data j = update p m s i j) ↔ StoreFits s i := by
  have hcode : (∀ j < 8, byteAt (next p s i).csrs.regs.data j = update p m s i j) ↔
      ∀ j < 8, updateAt 0 p m s i j = update p m s i j := by
    refine forall₂_congr fun j hj => ?_
    rw [data_next p s i hj, updateAt_congr 0 (hm j hj)]
  rw [hcode, StoreFits, update]
  by_cases hs : dmactiveO s = true ∧ storesData i.busI = true
  · obtain ⟨hact, hstore⟩ := hs
    have hdata : toData i.busI = true := by
      rw [storesData, Bool.and_eq_true] at hstore
      exact hstore.2
    rw [imp_iff_right hact, imp_iff_right hstore]
    rcases busOffset_cases hw hdata with ⟨h64, hoff⟩ | ⟨rfl, hoff | hoff⟩
    · exact iff_of_true (fun _ _ => by rw [hoff]) (Or.inl h64)
    · exact iff_of_true (fun _ _ => by rw [hoff]) (Or.inr (Or.inl hoff))
    · -- the upper register on the narrow bus
      rw [hoff, updateAt_store 0 hact hstore, updateAt_store 4 hact hstore,
        or_iff_right (by decide), or_iff_right (by decide)]
      refine (storeLanes_shift_iff m _ _ 4).trans ?_
      refine forall₃_congr fun l hl hen => ?_
      rw [hm l (by omega), hm (4 + l) (by omega)]
  · refine iff_of_true (fun j _ => ?_) (fun hact hstore => absurd ⟨hact, hstore⟩ hs)
    rw [updateAt_base 0 (busOffset i.busI) hs]

/-- **One cycle**: where the registers hold the memory, they are the memory in this cycle if the store
    finds its place. -/
theorem oneMemory_iff {c : Memory × State n} (hw : w = 32 ∨ w = 64) (hc : Holds c) :
    OneMemory p c i ↔ StoreFits c.2 i := by
  rw [← memory_kept_iff (p := p) hw hc]
  constructor
  · intro h
    exact h.kept
  · intro h
    refine ⟨h, ?_, ?_⟩
    · intro hload l hl
      have hrange : busOffset i.busI + l < 8 := by
        have hdata : toData i.busI = true := by
          rw [loadsData, Bool.and_eq_true] at hload
          exact hload.2
        rcases busOffset_cases hw hdata with ⟨rfl, hoff⟩ | ⟨rfl, hoff | hoff⟩ <;> omega
      rw [loaded_byte hw hload hl, hc _ hrange]
    · intro k hread haddr l hl
      have hk : (k : Nat) < 2 := k.isLt
      rw [read_word hread haddr, byteAt_getWord _ _ hl]
      exact hc _ (by omega)

end Edge

/-! ## Whole runs -/

/-- **The data registers are one memory**, on either bus, in a run from reset with any accesses of the
    debugger and the harts in any order, exactly when every store in an active module finds its
    place. -/
theorem one_memory_iff (hw : w = 32 ∨ w = 64) (p : Params n) (romAddr : Nat)
    (is : List (Input n w)) :
    Always (watched (next p) (update p)) (OneMemory p) (fun _ => 0, reset romAddr) is ↔
      Always (next p) StoreFits (reset romAddr) is := by
  rw [← always_watched (next p) (update p) StoreFits is (fun _ => 0, reset romAddr)]
  refine always_iff_always Holds ?_ (fun c i hc => oneMemory_iff hw hc) is _ ?_
  · intro c i hc hfits
    exact (memory_kept_iff hw hc).mpr hfits
  · intro j _
    exact BitVec.extractLsb'_zero

/-- One hart, on a bus of either width, with the debug module in the zero page. -/
def sharedHart : Params 1 := { selectableHarts := 1, dmBaseAddress := 0 }

/-- The debugger sets `dmactive`, a hart stores at `a`, over the whole width of the bus, and the debugger
    reads the second data register. -/
def sharedRun (w : Nat) (a : BitVec w) : List (Input 1 w) :=
  [{ dmiReqValidI := true, dmiReqI := ⟨0x10, DTM_WRITE, 1⟩ },
    { busI :=
        { reqI := true, weI := true, addrI := a, wdataI := 0x1122334455667788
          beI := BitVec.allOnes _ } },
    { dmiReqValidI := true, dmiReqI := ⟨0x05, DTM_READ, 0⟩ }]

theorem one_memory_shared :
    Always (watched (next sharedHart) (update sharedHart)) (OneMemory sharedHart) (fun _ => 0, reset 0)
      (sharedRun 64 0x380) :=
  (one_memory_iff (Or.inr rfl) sharedHart 0 (sharedRun 64 0x380)).mpr (by decide +kernel)

/-- On the narrow bus a store to the second data register goes to the first. -/
theorem not_one_memory_narrow :
    ¬ Always (watched (next sharedHart) (update sharedHart)) (OneMemory sharedHart) (fun _ => 0, reset 0)
      (sharedRun 32 0x384) := by
  intro h
  have hkept := h.2.1.kept 4 (by decide)
  revert hkept
  decide +kernel

end RiscDbgUart.DebugModule
