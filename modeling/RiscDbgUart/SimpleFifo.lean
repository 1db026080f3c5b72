/-
  `fifo.sv`: the receive FIFO of the UART, a ring of `2 ** ABITS` bytes with a write and a read
  pointer.  `full` and `empty` are registers of their own, because equal pointers mean either.

  Each of the three branches of `FSM` keeps only the flags it can change, so the invariant has to tie
  both flags to the pointers: with `n` bytes stored the write pointer is `n` cells past the read
  pointer, `empty` says `n = 0` and `full` says `n = 2 ^ ABITS` (`Filled`).  Under it the bytes from
  the read pointer on are a queue of capacity `2 ^ ABITS` (`Holds`), cycle by cycle
  (`holds_next`) and so for every run (`refines_queue`).

  `HALF_FULL_O` compares a distance that is computed in two ways.  While the write pointer is not below
  the read pointer it is the number of bytes; below it, where the number is `2 ^ ABITS + w - r`, the
  source adds the pointers and half the capacity.  `halfFull_iff` gives the pointers for which the
  comparison is right nevertheless.

  The memory's index range `[2**ABITS-1:0]` is taken as it reads; `W_DATA_I` and the memory are eight
  bits wide.

  The three branches are `next_read`, `next_write` and `next_both`; a cycle with neither is `next_still`.
  For each of them there is a lemma that the queue moves the same way (`holds_read`, `holds_write`,
  `holds_both`), and `holds_next` is the case analysis over the two inputs and the two flags.
-/
import RiscDbgUart.UartPkg
import RiscDbgUart.Clocked.Machine
import RiscDbgUart.Clocked.Ring

set_option linter.unusedVariables false

namespace RiscDbgUart.SimpleFifo

open Clocked

variable {abits : Nat}

/-! ## The module -/

/-- The two pointers, the two flags, and the memory.  The pointers are as wide as the addresses, so the
    flags tell a full FIFO from an empty one. -/
structure State (abits : Nat) where
  wPtr : BitVec abits
  rPtr : BitVec abits
  full : Bool
  empty : Bool
  ram : BitVec abits → Byte

structure Input where
  reI : Bool := false
  weI : Bool := false
  wDataI : Byte := 0
deriving DecidableEq, Repr

/-- `w_en = WE_I & ~full` -/
def wEn (s : State abits) (i : Input) : Bool := i.weI && !s.full

/-- `FULL_O` -/
def fullO (s : State abits) : Bool := s.full

/-- `EMPTY_O` -/
def emptyO (s : State abits) : Bool := s.empty

/-- `R_DATA_O = ram[r_ptr % 2**ABITS]` -/
def rDataO (s : State abits) : Byte := s.ram s.rPtr

/-- `distance`, truncated to `ABITS` bits.  The sum in the second branch is the source's: it is the number of
    bytes only for some pointers. -/
def distance (s : State abits) : BitVec abits :=
  if s.rPtr ≤ s.wPtr then s.wPtr - s.rPtr
  else BitVec.ofNat abits (2 ^ (abits - 1)) + (s.wPtr + s.rPtr)

/-- `HALF_FULL_O = distance >= 2**(ABITS-1) || full` -/
def halfFullO (s : State abits) : Bool := decide (2 ^ (abits - 1) ≤ (distance s).toNat) || s.full

/-- `FSM`: a read, a write, or both.  A branch assigns a flag only where it can change; the other keeps its
    value. -/
def fsm (s : State abits) (i : Input) : State abits :=
  let wPtrInc := s.wPtr + 1
  let rPtrInc := s.rPtr + 1
  if !wEn s i && i.reI then
    if !s.empty then
      { s with
        rPtr := rPtrInc, full := false, empty := if rPtrInc = s.wPtr then true else s.empty }
    else s
  else if wEn s i && !i.reI then
    if !s.full then
      { s with
        wPtr := wPtrInc, empty := false, full := if wPtrInc = s.rPtr then true else s.full }
    else s
  else if wEn s i && i.reI then { s with wPtr := wPtrInc, rPtr := rPtrInc }
  else s

/-- The edge with `RST_NI` low; the memory has no reset. -/
def reset (abits : Nat) (ram : BitVec abits → Byte) : State abits :=
  { wPtr := 0, rPtr := 0, full := false, empty := true, ram := ram }

/-- The edge with `RST_NI` high: `FSM_CORE` and `PROC_WRITE`. -/
def next (s : State abits) (i : Input) : State abits :=
  { fsm s i with ram := if wEn s i then Function.update s.ram s.wPtr i.wDataI else s.ram }

/-! ## The queue -/

/-- The queue beside the FIFO: it is offered what is written and read when the FIFO is read. -/
def track (q : List Byte) (s : State abits) (i : Input) : List Byte :=
  queueStep (2 ^ abits) q i.reI (if i.weI then some i.wDataI else none)

/-- What the outputs of the FIFO say about a queue.  Of an empty one they say nothing about the data. -/
structure Shows (q : List Byte) (s : State abits) : Prop where
  empty : emptyO s = true ↔ q = []
  full : fullO s = true ↔ q.length = 2 ^ abits
  oldest : ∀ b ∈ q.head?, rDataO s = b

/-- The side condition of the readers: `RE_I` only while `EMPTY_O` is low. -/
def ReadsFilled (s : State abits) (i : Input) : Prop := i.reI = true → emptyO s = false

instance (s : State abits) (i : Input) : Decidable (ReadsFilled s i) := by
  unfold ReadsFilled; infer_instance

/-- The byte a write brings in. -/
def accepted (s : State abits) (i : Input) : List Byte :=
  if i.weI && !fullO s then [i.wDataI] else []

/-- The byte a read takes out. -/
def taken (s : State abits) (i : Input) : List Byte := if i.reI then [rDataO s] else []

/-! ## The invariant -/

/-- The FIFO stores `n` bytes: pointers and flags agree on it.  The pointers alone do not tell `0` from the
    capacity. -/
structure Filled (s : State abits) (n : Nat) : Prop where
  le : n ≤ 2 ^ abits
  wPtr : s.wPtr = s.rPtr + BitVec.ofNat abits n
  empty : s.empty = decide (n = 0)
  full : s.full = decide (n = 2 ^ abits)

/-- The FIFO stores the queue `q`. -/
def Holds (q : List Byte) (s : State abits) : Prop :=
  Filled s q.length ∧ ring s.ram s.rPtr q.length = q

theorem holds_reset (ram : BitVec abits → Byte) : Holds [] (reset abits ram) := by
  refine ⟨⟨Nat.zero_le _, rfl, rfl, ?_⟩, rfl⟩
  have := Nat.two_pow_pos abits
  exact (decide_eq_false (by simp; omega)).symm

/-! ## One cycle -/

section Step

variable {s : State abits} {i : Input} {q : List Byte} {b : Byte}

theorem next_read (hw : wEn s i = false) (hr : i.reI = true) (he : s.empty = false) :
    next s i = { s with
      rPtr := s.rPtr + 1, full := false, empty := decide (s.rPtr + 1 = s.wPtr) } := by
  simp only [next, fsm, hw, hr, he]
  by_cases h : s.rPtr + 1 = s.wPtr <;> simp

theorem next_write (hw : wEn s i = true) (hr : i.reI = false) :
    next s i = { s with
      wPtr := s.wPtr + 1, empty := false, full := decide (s.wPtr + 1 = s.rPtr)
      ram := Function.update s.ram s.wPtr i.wDataI } := by
  have hfull : s.full = false := by
    unfold wEn at hw
    rw [Bool.and_eq_true, Bool.not_eq_true'] at hw
    exact hw.2
  simp only [next, fsm, hw, hr, hfull]
  by_cases h : s.wPtr + 1 = s.rPtr <;> simp

theorem next_both (hw : wEn s i = true) (hr : i.reI = true) :
    next s i = { s with
      wPtr := s.wPtr + 1, rPtr := s.rPtr + 1
      ram := Function.update s.ram s.wPtr i.wDataI } := by
  simp [next, fsm, hw, hr]

theorem next_still (hw : wEn s i = false) (hr : i.reI = false) : next s i = s := by
  simp [next, fsm, hw, hr]

/-- A read takes the oldest byte out, and the FIFO is empty if the pointers meet. -/
theorem holds_read (h : Holds (b :: q) s) :
    Holds q { s with rPtr := s.rPtr + 1, full := false, empty := decide (s.rPtr + 1 = s.wPtr) } := by
  obtain ⟨⟨hle, hptr, hempty, hfull⟩, hring⟩ := h
  rw [List.length_cons] at hle hptr
  have hptr' : s.wPtr = s.rPtr + 1 + BitVec.ofNat abits q.length := by
    rw [hptr, add_one_add_ofNat]
  refine ⟨⟨by omega, hptr', ?_, ?_⟩, ?_⟩
  · show decide (s.rPtr + 1 = s.wPtr) = _
    rw [hptr', decide_eq_decide, eq_comm, add_ofNat_eq_self_iff (by omega)]
    exact or_iff_left (by omega)
  · exact (decide_eq_false (by omega)).symm
  · exact (List.cons.inj hring).2

/-- A write appends a byte, and the FIFO is full if the pointers meet. -/
theorem holds_write (x : Byte) (h : Holds q s) (hroom : q.length < 2 ^ abits) :
    Holds (q ++ [x]) { s with
      wPtr := s.wPtr + 1, empty := false, full := decide (s.wPtr + 1 = s.rPtr)
      ram := Function.update s.ram s.wPtr x } := by
  obtain ⟨⟨hle, hptr, hempty, hfull⟩, hring⟩ := h
  have hlen : (q ++ [x]).length = q.length + 1 := List.length_append
  have hptr' : s.wPtr + 1 = s.rPtr + BitVec.ofNat abits (q.length + 1) := by
    rw [hptr, BitVec.add_assoc, BitVec.ofNat_add]
    rfl
  refine ⟨⟨by omega, ?_, ?_, ?_⟩, ?_⟩
  · rw [hlen]
    exact hptr'
  · exact (decide_eq_false (by omega)).symm
  · show decide (s.wPtr + 1 = s.rPtr) = _
    rw [hptr', hlen, decide_eq_decide, add_ofNat_eq_self_iff (by omega)]
    exact or_iff_right (by omega)
  · show ring (Function.update s.ram s.wPtr x) s.rPtr (q ++ [x]).length = _
    rw [hlen, hptr, ring_push s.ram s.rPtr q.length x hroom, hring]

/-- A read and a write together leave as many bytes, so neither flag changes. -/
theorem holds_both (x : Byte) (h : Holds (b :: q) s) (hroom : (b :: q).length < 2 ^ abits) :
    Holds (q ++ [x]) { s with
      wPtr := s.wPtr + 1, rPtr := s.rPtr + 1, ram := Function.update s.ram s.wPtr x } := by
  obtain ⟨⟨hle, hptr, hempty, hfull⟩, hring⟩ := h
  have hlen : (q ++ [x]).length = (b :: q).length := List.length_append
  refine ⟨⟨by omega, ?_, ?_, ?_⟩, ?_⟩
  · show s.wPtr + 1 = s.rPtr + 1 + BitVec.ofNat abits (q ++ [x]).length
    rw [hlen, hptr, BitVec.add_assoc, BitVec.add_assoc, BitVec.add_comm (BitVec.ofNat _ _)]
  · show s.empty = _
    rw [hempty, hlen]
  · show s.full = _
    rw [hfull, hlen]
  · show ring (Function.update s.ram s.wPtr x) (s.rPtr + 1) (q ++ [x]).length = _
    rw [List.length_cons] at hroom hptr
    rw [hlen, hptr, ← add_one_add_ofNat, List.length_cons,
      ring_push s.ram (s.rPtr + 1) q.length x (by omega), (List.cons.inj hring).2]

/-- What is written while the FIFO is full is dropped. -/
theorem track_blocked (h : Holds q s) (hw : wEn s i = false) :
    track q s i = if i.reI then q.tail else q := by
  unfold wEn at hw
  unfold track queueStep
  rcases Bool.and_eq_false_iff.mp hw with hwe | hfull
  · rw [hwe]
    simp
  · rw [h.1.full, Bool.not_eq_false', decide_eq_true_iff] at hfull
    rw [if_pos hfull, List.append_nil]

theorem track_writes (h : Holds q s) (hw : wEn s i = true) :
    q.length < 2 ^ abits ∧ track q s i = (if i.reI then q.tail else q) ++ [i.wDataI] := by
  unfold wEn at hw
  rw [Bool.and_eq_true, Bool.not_eq_true', h.1.full, decide_eq_false_iff_not] at hw
  have hle := h.1.le
  refine ⟨by omega, ?_⟩
  unfold track queueStep
  rw [if_neg hw.2, hw.1]
  rfl

/-- A read under the side condition finds a byte, and the empty flag says so. -/
theorem exists_oldest (h : Holds q s) (hread : ReadsFilled s i) (hr : i.reI = true) :
    ∃ b t, q = b :: t ∧ s.empty = false := by
  have hempty : s.empty = false := hread hr
  have hlen := h.1.empty
  rw [hempty, eq_comm, decide_eq_false_iff_not] at hlen
  cases q with
  | nil => exact absurd rfl hlen
  | cons b t => exact ⟨b, t, rfl, hempty⟩

/-- **One cycle keeps the queue.**  A read of an empty FIFO and a write into a full one are dropped on both
    sides. -/
theorem holds_next (h : Holds q s) (hread : ReadsFilled s i) : Holds (track q s i) (next s i) := by
  cases hw : wEn s i
  · rw [track_blocked h hw]
    cases hr : i.reI
    · rw [next_still hw hr]
      exact h
    · obtain ⟨b, t, rfl, hempty⟩ := exists_oldest h hread hr
      rw [next_read hw hr hempty]
      exact holds_read h
  · obtain ⟨hroom, htrack⟩ := track_writes h hw
    rw [htrack]
    cases hr : i.reI
    · rw [next_write hw hr]
      exact holds_write i.wDataI h hroom
    · obtain ⟨b, t, rfl, hempty⟩ := exists_oldest h hread hr
      rw [next_both hw hr]
      exact holds_both i.wDataI h hroom

/-- A FIFO that stores a queue shows it, flags and oldest byte. -/
theorem holds_shows (h : Holds q s) : Shows q s := by
  obtain ⟨⟨hle, hptr, hempty, hfull⟩, hring⟩ := h
  refine ⟨?_, ?_, ?_⟩
  · unfold emptyO
    rw [hempty, decide_eq_true_iff, List.length_eq_zero_iff]
  · unfold fullO
    rw [hfull, decide_eq_true_iff]
  · intro b hb
    cases q with
    | nil => exact nomatch hb
    | cons b' t =>
      have hfirst : s.ram s.rPtr = b' := (List.cons.inj hring).1
      exact hfirst.trans (Option.some.inj hb)

/-- What a cycle writes and reads accounts for the change of the queue. -/
theorem track_account (h : Holds q s) (hread : ReadsFilled s i) :
    q ++ accepted s i = taken s i ++ track q s i := by
  have haccepted : accepted s i = if wEn s i then [i.wDataI] else [] := rfl
  have htail : taken s i ++ (if i.reI then q.tail else q) = q := by
    unfold taken
    cases hr : i.reI
    · rfl
    · obtain ⟨b, t, rfl, -⟩ := exists_oldest h hread hr
      rw [(holds_shows h).oldest b rfl]
      rfl
  rw [haccepted]
  cases hw : wEn s i
  · rw [track_blocked h hw, htail]
    exact List.append_nil q
  · rw [(track_writes h hw).2, ← List.append_assoc, htail]
    rfl

end Step

/-! ## The queue, over whole runs -/

/-- **`SIMPLE_FIFO` is a bounded queue.**  Beside the FIFO runs a queue of capacity `2 ^ ABITS` that is
    offered every write and read by every read.  In every state the flags and the data output show
    that queue, and what was accepted is what was taken, in the same order, followed by what the queue
    still holds. -/
theorem refines_queue (ram : BitVec abits → Byte) (is : List Input)
    (hread : Always next ReadsFilled (reset abits ram) is) :
    Throughout (watched next track) (fun c => Shows c.1 c.2) ([], reset abits ram) is ∧
    emitted next accepted (reset abits ram) is
      = emitted next taken (reset abits ram) is
        ++ (run (watched next track) ([], reset abits ram) is).1 := by
  let Inv : List Byte × State abits → Prop := fun c => Holds c.1 c.2
  have hinit : Inv ([], reset abits ram) := holds_reset ram
  have hside : Always (watched next track) (fun c i => ReadsFilled c.2 i) ([], reset abits ram) is :=
    (always_watched next track ReadsFilled is ([], reset abits ram)).mpr hread
  -- a step of the queue and a step of the code keep them alike
  have hstep : ∀ c i, Inv c → ReadsFilled c.2 i → Inv (watched next track c i) := by
    intro c i h hr
    exact holds_next h hr
  constructor
  · apply throughout_of_step Inv _ (fun c i => ReadsFilled c.2 i) hstep _ is _ hinit hside
    intro c h
    exact holds_shows h
  · -- what is accepted goes to the end of the queue, what is taken comes from its front
    have hlaw : ∀ c i, Inv c → ReadsFilled c.2 i →
        c.1 ++ accepted c.2 i = taken c.2 i ++ (watched next track c i).1 := by
      intro c i h hr
      exact track_account h hr
    have hsum := emitted_conserved Inv (fun c i => accepted c.2 i) (fun c i => taken c.2 i)
      (fun c => c.1) hstep hlaw is ([], reset abits ram) hinit hside
    rw [emitted_watched, emitted_watched] at hsum
    exact hsum

/-- Three writes, the last one into a full FIFO, with reads in between and after. -/
def mixedRun : List Input :=
  [{ weI := true, wDataI := 0x11 }, { weI := true, wDataI := 0x22 },
   { weI := true, wDataI := 0x33, reI := true }, { weI := true, wDataI := 0x44, reI := true }]

theorem refines_queue_mixedRun :
    Throughout (watched next track) (fun c => Shows c.1 c.2) ([], reset 1 fun _ => 0) mixedRun ∧
    emitted next accepted (reset 1 fun _ => 0) mixedRun
      = emitted next taken (reset 1 fun _ => 0) mixedRun
        ++ (run (watched next track) ([], reset 1 fun _ => 0) mixedRun).1 :=
  refines_queue _ _ (by decide)

example : emitted next taken (reset 1 fun _ => 0) mixedRun = [0x11, 0x22] ∧
    (run (watched next track) ([], reset 1 fun _ => 0) mixedRun).1 = [0x44] := by
  decide

/-! ## The half-full flag -/

/-- The pointers for which the comparison of `distance` is right: the write pointer is not below the
    read pointer, or the sum of the two, taken around the ring, lies in its lower half just when they
    are at most half a ring apart. -/
def Comparable (s : State abits) : Prop :=
  s.rPtr.toNat ≤ s.wPtr.toNat ∨
  s.wPtr.toNat + s.rPtr.toNat < 2 ^ (abits - 1) ∨
  (s.wPtr.toNat + s.rPtr.toNat < 2 ^ abits ∧ s.wPtr.toNat + 2 ^ (abits - 1) < s.rPtr.toNat) ∨
  (2 ^ abits ≤ s.wPtr.toNat + s.rPtr.toNat ∧
    s.wPtr.toNat + s.rPtr.toNat < 2 ^ abits + 2 ^ (abits - 1) ∧
    s.rPtr.toNat ≤ s.wPtr.toNat + 2 ^ (abits - 1))

instance (s : State abits) : Decidable (Comparable s) := by unfold Comparable; infer_instance

/-- The flag is right about a FIFO that stores `n` bytes. -/
def HalfFullRight (n : Nat) (s : State abits) : Prop :=
  halfFullO s = true ↔ 2 ^ (abits - 1) ≤ n

instance (n : Nat) (s : State abits) : Decidable (HalfFullRight n s) := by
  unfold HalfFullRight; infer_instance

theorem mod_of_lt_two_mul {x m : Nat} (h : x < 2 * m) : x % m = if x < m then x else x - m := by
  split_ifs with hx
  · exact Nat.mod_eq_of_lt hx
  · rw [Nat.mod_eq_sub_mod (by omega), Nat.mod_eq_of_lt (by omega)]

theorem half_le_mod_iff {x m : Nat} (h : x < 4 * m) :
    m ≤ (m + x) % (2 * m) ↔ x < m ∨ (2 * m ≤ x ∧ x < 3 * m) := by
  rcases Nat.lt_or_ge (m + x) (2 * m) with hx | hx
  · rw [Nat.mod_eq_of_lt hx]
    omega
  · rw [Nat.mod_eq_sub_mod hx, mod_of_lt_two_mul (by omega)]
    split_ifs <;> omega

/-- Where the write pointer is when `n` bytes are stored, past the end of the memory or not. -/
theorem Filled.wPtr_toNat {s : State abits} {n : Nat} (h : Filled s n) :
    s.wPtr.toNat
      = if s.rPtr.toNat + n < 2 ^ abits then s.rPtr.toNat + n else s.rPtr.toNat + n - 2 ^ abits := by
  have hr := s.rPtr.isLt
  have hle := h.le
  rw [h.wPtr, BitVec.toNat_add, BitVec.toNat_ofNat, Nat.add_mod_mod,
    mod_of_lt_two_mul (by omega)]

/-- `distance`, branch by branch, over the natural numbers. -/
theorem distance_toNat (s : State abits) (ha : 1 ≤ abits) :
    (distance s).toNat
      = if s.rPtr.toNat ≤ s.wPtr.toNat then s.wPtr.toNat - s.rPtr.toNat
        else (2 ^ (abits - 1) + (s.wPtr.toNat + s.rPtr.toNat)) % 2 ^ abits := by
  have hhalf : 2 ^ (abits - 1) < 2 ^ abits := Nat.pow_lt_pow_right (by omega) (by omega)
  unfold distance
  by_cases h : s.rPtr ≤ s.wPtr
  · rw [if_pos h, if_pos (BitVec.le_def.mp h), BitVec.toNat_sub_of_le h]
  · rw [if_neg h, if_neg (fun hle => h (BitVec.le_def.mpr hle)), BitVec.toNat_add,
      BitVec.toNat_add, BitVec.toNat_ofNat, Nat.mod_eq_of_lt hhalf, Nat.add_mod_mod]

/-- **Exactly when the flag is right.**  While the pointers have not wrapped it always is; after that the
    condition is on the two pointers alone. -/
theorem halfFullRight_iff {s : State abits} {n : Nat} (h : Filled s n) (ha : 1 ≤ abits) :
    HalfFullRight n s ↔ Comparable s := by
  have hpow : 2 ^ abits = 2 * 2 ^ (abits - 1) := by
    rw [← Nat.pow_succ', Nat.succ_eq_add_one, Nat.sub_add_cancel ha]
  have hle := h.le
  have hr := s.rPtr.isLt
  have hw := h.wPtr_toNat
  have hd := distance_toNat s ha
  unfold HalfFullRight Comparable halfFullO
  rw [h.full, Bool.or_eq_true, decide_eq_true_iff, decide_eq_true_iff]
  generalize hH : 2 ^ (abits - 1) = half at *
  rw [hpow] at hle hr hw hd ⊢
  rcases Nat.lt_or_ge (s.rPtr.toNat + n) (2 * half) with hin | hwrap
  · -- not wrapped: the distance is the number of bytes
    rw [if_pos hin] at hw
    rw [if_pos (by omega)] at hd
    rw [hd]
    exact iff_of_true (by omega) (Or.inl (by omega))
  · rw [if_neg (by omega)] at hw
    by_cases hfull : n = 2 * half
    · exact iff_of_true (by omega) (Or.inl (by omega))
    · rw [if_neg (by omega)] at hd
      rw [hd, half_le_mod_iff (by omega)]
      constructor
      · intro hright
        by_contra hnot
        omega
      · intro hcomp
        omega

/-- **The half-full flag is right throughout exactly the runs whose pointers stay comparable.** -/
theorem halfFull_right_iff (ha : 1 ≤ abits) (ram : BitVec abits → Byte) (is : List Input)
    (hread : Always next ReadsFilled (reset abits ram) is) :
    Throughout (watched next track) (fun c => HalfFullRight c.1.length c.2)
        ([], reset abits ram) is ↔
      Throughout next Comparable (reset abits ram) is := by
  have hside : Always (watched next track) (fun c i => ReadsFilled c.2 i) ([], reset abits ram) is :=
    (always_watched next track ReadsFilled is ([], reset abits ram)).mpr hread
  rw [← throughout_watched next track Comparable is ([], reset abits ram)]
  apply throughout_congr (fun c : List Byte × State abits => Holds c.1 c.2) _ _ _ is _ _ hside
  · intro c i h hr
    exact holds_next h hr
  · intro c h
    exact halfFullRight_iff h.1 ha
  · exact holds_reset ram

/-- A run of the receive FIFO (`ABITS = 2`): two bytes in, two out, and two in again. -/
def wrappedRun : List Input :=
  [{ weI := true, wDataI := 0x11 }, { weI := true, wDataI := 0x22 }, { reI := true },
   { reI := true }, { weI := true, wDataI := 0x33 }, { weI := true, wDataI := 0x44 }]

theorem halfFull_right_iff_mixedRun :
    Throughout (watched next track) (fun c => HalfFullRight c.1.length c.2)
        ([], reset 1 fun _ => 0) mixedRun ↔
      Throughout next Comparable (reset 1 fun _ => 0) mixedRun :=
  halfFull_right_iff (by decide) _ _ (by decide)

/-- After it two of four bytes are stored and the flag is low. -/
theorem not_halfFull_right_wrappedRun :
    Always next ReadsFilled (reset 2 fun _ => 0) wrappedRun ∧
    ¬ Throughout (watched next track) (fun c => HalfFullRight c.1.length c.2)
        ([], reset 2 fun _ => 0) wrappedRun := by
  decide

end RiscDbgUart.SimpleFifo
