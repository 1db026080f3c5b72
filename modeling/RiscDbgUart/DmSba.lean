/-
  `dm_sba.sv`: the system bus host of the debug module.

  One state machine with a request phase and a response phase for reads and for writes.  It has no
  registers for the transfer: address, data and access size are those of `dm_csrs`, in every cycle, and
  the address goes back to `dm_csrs` through this block in every cycle too.  A response of a write and
  one of a read end a transfer by the same signal.

  `w` is `BusWidth`.  The port `dmactive_i` is not read by anything in the source and is left out.

  The lemmas at the end are about the sizes that occur: the size that is wired to the width of the bus, for
  which all bytes are enabled and nothing is wrong with an access (`badAccess_of_le`,
  `beMask_full`), and the size zero that the registers hold while the module is inactive
  (`beMask_byte`).
-/
import RiscDbgUart.DmPkg

set_option linter.unusedVariables false

namespace RiscDbgUart.DmSba

/-- `sba_state_e` -/
inductive SbaState where
  | Idle | Read | Write | WaitRead | WaitWrite
deriving DecidableEq, Repr

/-- The answers of the bus, and what `dm_csrs` sends: address, data and flags in every cycle, and a pulse for
    each of the three accesses that may start a transfer. -/
structure Input (w : Nat) where
  masterGntI : Bool
  masterRValidI : Bool
  masterRRdataI : BitVec w
  sbaddressI : BitVec w
  sbaddressWriteValidI : Bool
  sbreadonaddrI : Bool
  sbautoincrementI : Bool
  sbaccessI : BitVec 3
  sbreadondataI : Bool
  sbdataI : BitVec w
  sbdataReadValidI : Bool
  sbdataWriteValidI : Bool

variable {w : Nat}

/-! ## `p_be_mask` -/

/-- `be_idx`, the byte of the bus word that the address points at. -/
def beIdx (i : Input w) : Nat := i.sbaddressI.toNat % 2 ^ clog2 (w / 8)

/-- `be_mask`: the lanes of an access of the given size at the given address.  A size that the bus does not
    have gives no lane, but for the double word on a 32-bit bus, which gives all. -/
def beMask (i : Input w) : BitVec (w / 8) :=
  match i.sbaccessI.toNat with
  | 0 => setBit 0 (beIdx i) true
  | 1 => (3#2).setWidth (w / 8) <<< (beIdx i / 2 * 2)
  | 2 => if w = 64 then (15#4).setWidth (w / 8) <<< (beIdx i / 4 * 4) else BitVec.allOnes (w / 8)
  | 3 => BitVec.allOnes (w / 8)
  | _ => 0

/-! ## `p_fsm` -/

/-- `sbbusy_o` -/
def sbbusyO (s : SbaState) : Bool := s != .Idle

/-- The error case: the access is wider than the bus can be, and the machine is not idle. -/
def badAccess (s : SbaState) (i : Input w) : Bool := decide (i.sbaccessI > 3) && s != .Idle

def sberrorValidO (s : SbaState) (i : Input w) : Bool := badAccess s i
def sberrorO (s : SbaState) (i : Input w) : BitVec 3 := if badAccess s i then 3 else 0

def masterReqO (s : SbaState) (i : Input w) : Bool :=
  (s == .Read || s == .Write) && !badAccess s i

def masterAddO (i : Input w) : BitVec w := i.sbaddressI
def masterWeO (s : SbaState) : Bool := s == .Write
def masterWdataO (i : Input w) : BitVec w := i.sbdataI

/-- `master_be_o`: with `ReadByteEnable` the mask goes out for a read too, otherwise a read has none. -/
def masterBeO (readByteEnable : Bool) (s : SbaState) (i : Input w) : BitVec (w / 8) :=
  match s with
  | .Read => if readByteEnable then beMask i else 0
  | .Write => beMask i
  | _ => 0

/-- `sbdata_valid_o` -/
def sbdataValidO (i : Input w) : Bool := i.masterRValidI
def sbdataO (i : Input w) : BitVec w := i.masterRRdataI

/-- `sbaddress_o`: the address, incremented by the access size when a transfer ends under
    `sbautoincrement`.  In every other cycle the register gets back what it sent. -/
def sbaddressO (s : SbaState) (i : Input w) : BitVec w :=
  match s with
  | .WaitRead | .WaitWrite =>
    if sbdataValidO i && i.sbautoincrementI then
      i.sbaddressI + (1#w <<< i.sbaccessI.toNat)
    else i.sbaddressI
  | _ => i.sbaddressI

/-- `state_d` before the error case.  A pulse starts a transfer from `Idle` only; a request is kept up until
    it is granted, and its answer waited for. -/
def transferD (s : SbaState) (i : Input w) : SbaState :=
  match s with
  | .Idle =>
    let d := SbaState.Idle
    -- the debugger requested a read, a write, another read; the later assignment wins
    let d := if i.sbaddressWriteValidI && i.sbreadonaddrI then .Read else d
    let d := if i.sbdataWriteValidI then .Write else d
    if i.sbdataReadValidI && i.sbreadondataI then .Read else d
  | .Read => if i.masterGntI then .WaitRead else .Read
  | .Write => if i.masterGntI then .WaitWrite else .Write
  | .WaitRead => if sbdataValidO i then .Idle else .WaitRead
  | .WaitWrite => if sbdataValidO i then .Idle else .WaitWrite

/-- `state_d` -/
def next (s : SbaState) (i : Input w) : SbaState :=
  if badAccess s i then .Idle else transferD s i

/-! ## Accesses of a size there is -/

/-- The transfer that the cycle's pulses start.  More than one pulse in a cycle cannot come from one access,
    but the source gives them an order. -/
def starts (i : Input w) : SbaState :=
  if i.sbdataReadValidI && i.sbreadondataI then .Read
  else if i.sbdataWriteValidI then .Write
  else if i.sbaddressWriteValidI && i.sbreadonaddrI then .Read
  else .Idle

theorem starts_cases (i : Input w) : starts i = .Idle ∨ starts i = .Read ∨ starts i = .Write := by
  unfold starts
  split_ifs
  · exact Or.inr (Or.inl rfl)
  · exact Or.inr (Or.inr rfl)
  · exact Or.inr (Or.inl rfl)
  · exact Or.inl rfl

/-- The address moves on when the machine gets the answer that it waits for. -/
theorem sbaddressO_eq (s : SbaState) (i : Input w) :
    sbaddressO s i
      = i.sbaddressI
        + (if (s == .WaitRead || s == .WaitWrite) && i.masterRValidI && i.sbautoincrementI then
            1#w <<< i.sbaccessI.toNat
          else 0) := by
  unfold sbaddressO sbdataValidO
  cases s
  · simp
  · simp
  · simp
  · cases i.masterRValidI <;> cases i.sbautoincrementI <;> simp
  · cases i.masterRValidI <;> cases i.sbautoincrementI <;> simp

section Sizes

variable {s : SbaState} {i : Input w}

theorem badAccess_of_le (h : i.sbaccessI ≤ 3) : badAccess s i = false := by
  have hno : ¬ i.sbaccessI > 3 := BitVec.not_lt.mpr h
  unfold badAccess
  rw [decide_eq_false hno, Bool.false_and]

theorem next_of_le (h : i.sbaccessI ≤ 3) : next s i = transferD s i := by
  unfold next
  rw [badAccess_of_le h]
  rfl

theorem transferD_idle (i : Input w) : transferD .Idle i = starts i := by
  unfold transferD starts
  split_ifs <;> rfl

/-- A request stays on the bus until it is granted. -/
theorem transferD_request (h : s = .Read ∨ s = .Write) : transferD s i
    = if i.masterGntI then (if s = .Read then .WaitRead else .WaitWrite) else s := by
  rcases h with rfl | rfl
  · rfl
  · rfl

/-- A granted request is waited for until the bus answers. -/
theorem transferD_waits (h : s = .WaitRead ∨ s = .WaitWrite) :
    transferD s i = if i.masterRValidI then .Idle else s := by
  rcases h with rfl | rfl
  · rfl
  · rfl

/-- The access that fills the bus enables every byte. -/
theorem beMask_full (hw : w = 32 ∨ w = 64) (h : i.sbaccessI = if w = 64 then 3 else 2) :
    beMask i = BitVec.allOnes (w / 8) := by
  unfold beMask
  rw [h]
  rcases hw with rfl | rfl
  · rfl
  · rfl

/-- A one-byte access enables one byte. -/
theorem beMask_byte (h : i.sbaccessI = 0) : beMask i = setBit 0 (beIdx i) true := by
  unfold beMask
  rw [h]
  rfl

end Sizes

end RiscDbgUart.DmSba
