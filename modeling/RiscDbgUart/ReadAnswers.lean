/-
  Whether an acknowledged read is answered.

  `CMD_READ` ends when the serializer's `DONE_O` is seen, but nothing says that the DONE is the one
  of this read.  A transfer the arbiter ran on its own, for a valid peripheral or under
  `CMD_CONT_READ`, leaves DONE up when it ends; a read that was waiting for it is accepted in that
  very cycle, ends in the next one and hands over nothing.  The second way to the wrong number of
  bytes is a peripheral that the arbiter follows in the cycle in which it accepts the read for the
  last time: the read then runs at the peripheral's address and length.

  The ledger remembers the address of the last read accepted and counts the bytes the serializer has
  handed over since.  `clean` excludes the two ways, and under it every read that ends has been
  answered in full.

  The serializer is `Regular` in every reachable state: busy and done exclude each other, and the counter
  of one that is neither is at zero.  What a read goes through is a `Phase`, from the command that is
  waiting for the arbiter to the last byte; `booked_next` is one cycle of it.  A cycle that is not clean
  leaves the phases, and this is the only way out of them.
-/
import RiscDbgUart.ReadTransfer

set_option linter.unusedVariables false

namespace RiscDbgUart.DmiUartTap

open Clocked

/-! ## The ledger -/

/-- The bytes a register is read in. -/
def byteLength (a : Addr) : Nat := (getReadLength a + 7) / 8

theorem byteLength_bounds (a : Addr) : 1 ≤ byteLength a ∧ byteLength a ≤ 6 := by
  have h := getReadLength_bounds a
  unfold byteLength
  omega

/-- The bytes of the word `w` at the address `a` from the byte `k` on, the lowest first. -/
def wordBytes (a : Addr) (w : BitVec WIDTH) (k : Nat) : List Byte :=
  (List.range' k (byteLength a - k)).map fun j => serialByte w (getReadLength a) (8 * j)

theorem wordBytes_step {a : Addr} (w : BitVec WIDTH) {k : Nat} (h : k < byteLength a) :
    wordBytes a w k = serialByte w (getReadLength a) (8 * k) :: wordBytes a w (k + 1) := by
  have hlen : byteLength a - k = (byteLength a - (k + 1)) + 1 := by omega
  rw [wordBytes, hlen, List.range'_succ, List.map_cons]
  rfl

theorem wordBytes_end {a : Addr} (w : BitVec WIDTH) {k : Nat} (h : byteLength a ≤ k) :
    wordBytes a w k = [] := by
  rw [wordBytes, Nat.sub_eq_zero_of_le h]
  rfl

/-- The arbiter takes a `CMD_READ` from the decoder in this cycle. -/
def acceptsRead (s : State) : Bool :=
  accepts s && (CommandDecoder.out s.dec).readCommandO == CMD_READ

/-- The bytes handed over in a cycle. -/
def handsOver (s : State) (i : Input) : List Byte := TxSerializer.handsOver s.ser (serIn s i)

/-- The last read accepted, and the bytes handed over since. -/
structure Ledger where
  address : Addr
  bytes : Nat
deriving DecidableEq, Repr

/-- A read that is accepted opens a new page; otherwise the bytes are counted. -/
def note (g : Ledger) (s : State) (i : Input) : Ledger :=
  if acceptsRead s then { address := (CommandDecoder.out s.dec).readAddressO, bytes := 0 }
  else { g with bytes := g.bytes + (handsOver s i).length }

/-- If the current command goes from read to none in this cycle, the bytes of the register have been
    handed over since the read was accepted, no more and no fewer. -/
def Answered (g : Ledger) (s : State) (i : Input) : Prop :=
  s.rd.currentReadCommand = CMD_READ → (next s i).rd.currentReadCommand = CMD_NOP →
    g.bytes + (handsOver s i).length = byteLength g.address

instance (g : Ledger) (s : State) (i : Input) : Decidable (Answered g s i) :=
  inferInstanceAs (Decidable (_ → _))

/-- No DONE of an earlier transfer meets the read that is accepted in this cycle: there is none, or
    the serializer is being reset, or the read side is ending a command of its own.  In the last two cases
    the DONE is gone before the read looks at it. -/
def settled (s : State) : Bool :=
  !s.ser.doneO || s.rd.serReset || s.rd.currentReadCommand == CMD_READ ||
    s.rd.currentReadCommand == CMD_RESET

/-- The read that is accepted in this cycle will run at its own length: no peripheral is followed, or
    one of as many bytes, or the read is accepted once more before the serializer starts. -/
def measured (s : State) (i : Input) : Bool :=
  !follows s i || byteLength i.validAddressI == byteLength (CommandDecoder.out s.dec).readAddressO ||
    (!s.rd.readArbiterReady && !starts s)

/-- A read is accepted only when the serializer is settled and its length is measured. -/
def clean (s : State) (i : Input) : Bool := !acceptsRead s || (settled s && measured s i)

/-! ## The serializer between two transfers -/

/-- A busy serializer is not done, an idle one that is not done is at its first byte, and it offers
    bytes only while busy.  This holds in every reachable state, whatever the read arbiter does. -/
structure Regular (s : State) : Prop where
  done : s.ser.busyO = true → s.ser.doneO = false
  count : s.ser.busyO = false → s.ser.doneO = false → s.ser.count = 0
  offer : s.ser.writeO = true → s.ser.busyO = true

theorem regular_reset (s : State) : Regular (reset s) where
  done h := by cases h
  count _ _ := rfl
  offer h := by cases h

/-- While it is not serving, the counter only moves to zero and no byte is offered next. -/
theorem next_count_rest {s : State} (i : Input) (h : serving s = false) :
    (next s i).ser.count = (if s.rd.serReset then 0 else s.ser.count) ∧
      (next s i).ser.writeO = false := by
  rw [next_ser, TxSerializer.next_count, TxSerializer.next_writeO]
  unfold serving at h
  unfold TxSerializer.serves serIn
  cases hr : s.rd.serReset
  · rw [hr] at h
    simp only [Bool.not_false, Bool.and_true] at h
    simp [h]
  · simp

theorem next_offer {s : State} (i : Input) (h : serving s = true) :
    (next s i).ser.writeO = i.txReadyI := by
  obtain ⟨hb, hr, hc⟩ := (serving_iff s).mp h
  rw [next_ser, TxSerializer.next_writeO]
  simp [TxSerializer.serves, serIn, hb, hr, hc]

/-- While it is serving, the counter moves by the byte that is handed over. -/
theorem next_count_serving {s : State} (i : Input) (h : serving s = true)
    (hlen : s.rd.serLength ≤ 41) : (next s i).ser.count
      = if s.ser.writeO && !i.txReadyI then s.ser.count + 8 else s.ser.count := by
  obtain ⟨hb, hr, hlt⟩ := (serving_iff s).mp h
  rw [next_ser, TxSerializer.next_count]
  simp only [serIn, hr, TxSerializer.serves, hb, hlt, clog2_maxBits]
  cases s.ser.writeO <;> cases i.txReadyI <;> simp
  omega

/-- The byte register is reloaded with the byte the counter is at. -/
theorem next_dataByte {s : State} (i : Input) (h : s.rd.serReset = false) :
    (next s i).ser.dataByteO
      = serialByte (i.readDataI.setWidth MAX_BITS) s.rd.serLength s.ser.count := by
  rw [next_ser, TxSerializer.next_dataByteO]
  show (if s.rd.serReset then _ else _) = _
  rw [h]
  rfl

theorem regular_next {s : State} (i : Input) (h : Regular s) : Regular (next s i) where
  -- a serializer that is busy, or is started, is not done
  done hb := by
    rw [next_busy, Bool.or_eq_true] at hb
    rw [next_done]
    rcases hb with hs | hv
    · obtain ⟨-, hd, -, hb⟩ := (starts_iff s).mp hs
      simp [hd, hb]
    · obtain ⟨hb, -, -⟩ := (serving_iff s).mp hv
      simp [h.done hb, hv]
  -- a serializer that is neither busy nor done is at the first byte
  count hb hd := by
    rw [next_busy, Bool.or_eq_false_iff] at hb
    rw [(next_count_rest i hb.2).1]
    rw [next_done, hb.2] at hd
    cases hr : s.rd.serReset
    · rw [hr] at hd
      simp only [Bool.not_false, Bool.true_and, Bool.and_true, Bool.or_eq_false_iff] at hd
      exact h.count hd.2 hd.1
    · rfl
  -- a byte is on offer only while it serves
  offer hw := by
    cases hv : serving s
    · rw [(next_count_rest i hv).2] at hw; cases hw
    · rw [next_busy, hv, Bool.or_true]

/-! ## The phases of a read -/

/-- The bytes of the read are being handed over: `g.bytes` of them so far, out of as many as the
    register of `g.address` has.  The length is compared in bytes, since that is what the host counts. -/
structure Answering (g : Ledger) (s : State) : Prop where
  done : s.ser.doneO = false
  count : s.ser.count = 8 * g.bytes
  room : s.ser.count < s.rd.serLength + 8
  short : s.rd.serLength ≤ 41
  length : (s.rd.serLength + 7) / 8 = byteLength g.address
  reset : s.rd.serReset = true → s.ser.busyO = false
  offer : s.ser.writeO = true → s.ser.count < s.rd.serLength

/-- Where a current `CMD_READ` stands. -/
inductive Phase (g : Ledger) (s : State) : Prop
  /-- It is accepted once more in this cycle. -/
  | again (ha : acceptsRead s = true) (hd : s.ser.doneO = false)
  | answering (h : Answering g s)
  /-- DONE is up and all bytes have been handed over. -/
  | answered (hd : s.ser.doneO = true) (hn : g.bytes = byteLength g.address)

/-- What holds of ledger and module in every clean run: the serializer is regular, and a current `CMD_READ`
    is in one of its phases. -/
structure Booked (g : Ledger) (s : State) : Prop where
  regular : Regular s
  phase : s.rd.currentReadCommand = CMD_READ → Phase g s

theorem acceptsRead_iff (s : State) : acceptsRead s = true ↔
    accepts s = true ∧ (CommandDecoder.out s.dec).readCommandO = CMD_READ := by
  rw [acceptsRead, Bool.and_eq_true, beq_iff_eq]

/-- While a read is current the arbiter follows no peripheral. -/
theorem follows_reading {s : State} (i : Input) (h : s.rd.currentReadCommand = CMD_READ) :
    follows s i = false := by
  simp [follows, listens, h]

/-- An idle serializer hands nothing over, as it has no byte on offer. -/
theorem handsOver_idle {s : State} (i : Input) (h : Regular s) (hb : s.ser.busyO = false) :
    handsOver s i = [] := by
  have hw : s.ser.writeO = false := by
    cases hw : s.ser.writeO
    · rfl
    · rw [h.offer hw] at hb; cases hb
  simp [handsOver, TxSerializer.handsOver, hw]

/-- Outside idle and without an acknowledge the decoder offers the same read again. -/
theorem offered_again {s : State} {i : Input} (h : acceptsRead s = true)
    (hready : s.rd.readArbiterReady = false) (hs : starts s = false) :
    acceptsRead (next s i) = true := by
  obtain ⟨ha, hc⟩ := (acceptsRead_iff s).mp h
  have hb := accepts_idle ha
  have hvalid : (CommandDecoder.out s.dec).readArbiterValidO = true := by
    unfold accepts at ha
    rw [Bool.and_eq_true] at ha
    exact ha.2
  have hhand := ((CommandDecoder.out_readValid s.dec).mp hvalid).1
  have hcmd : s.dec.cmd = CMD_READ := by rw [← (CommandDecoder.out_read hvalid).1, hc]
  have hdec : (next s i).dec = s.dec := by
    rw [next_dec]
    simp [CommandDecoder.next, hhand, hcmd, decIn, hready]
  have hidle : (next s i).ser.busyO = false := by
    rw [next_busy, hs]
    simp [serving, hb]
  rw [acceptsRead_iff, accepts, hdec, hidle, hvalid]
  exact ⟨rfl, hc⟩

/-! ## One cycle -/

/-- The serializer is at its first byte after the cycle that accepts a read. -/
theorem accept_fresh {s : State} {i : Input} (h : Regular s) (ha : acceptsRead s = true)
    (hset : settled s = true) (hnext : (next s i).rd.currentReadCommand = CMD_READ) :
    (next s i).ser.doneO = false ∧ (next s i).ser.count = 0 ∧ (next s i).ser.writeO = false := by
  have hb := accepts_idle ((acceptsRead_iff s).mp ha).1
  have hrest : serving s = false := by simp [serving, hb]
  obtain ⟨hnreset, hnread⟩ := next_read_keeps hnext
  have hd : s.ser.doneO = false ∨ s.rd.serReset = true := by
    unfold settled at hset
    simp only [Bool.or_eq_true, Bool.not_eq_true', beq_iff_eq] at hset
    rcases hset with ((hd | hr) | hread) | hres
    · exact Or.inl hd
    · exact Or.inr hr
    · exact Or.inl (hnread hread)
    · exact absurd hres hnreset
  obtain ⟨hcount, hoffer⟩ := next_count_rest i hrest
  rw [next_done, hb, hcount, hoffer]
  rcases hd with hd | hr
  · rw [h.count hb hd]
    simp [hd]
  · simp [hr]

/-- A start and a reset of the serializer do not follow the same cycle. -/
theorem accept_no_reset {s : State} {i : Input} (ha : acceptsRead s = true)
    (hnext : (next s i).rd.currentReadCommand = CMD_READ)
    (hr : (next s i).rd.serReset = true) : (next s i).ser.busyO = false := by
  have hb := accepts_idle ((acceptsRead_iff s).mp ha).1
  have hrest : serving s = false := by simp [serving, hb]
  rw [next_busy, hrest, Bool.or_false]
  cases hs : starts s
  · rfl
  · -- only a reset command resets a serializer that is not done
    obtain ⟨-, hnd, -, -⟩ := (starts_iff s).mp hs
    rw [next_rd, readArbiter_serReset, hnd, Bool.false_and, Bool.or_false, beq_iff_eq] at hr
    exact absurd hr (next_read_keeps hnext).1

/-- A read that is accepted and stays current starts from the first byte. -/
theorem phase_accept {g : Ledger} {s : State} {i : Input} (h : Booked g s)
    (ha : acceptsRead s = true) (hclean : clean s i = true)
    (hnext : (next s i).rd.currentReadCommand = CMD_READ) : Phase (note g s i) (next s i) := by
  rw [clean, ha, Bool.not_true, Bool.false_or, Bool.and_eq_true] at hclean
  obtain ⟨hset, hmeas⟩ := hclean
  obtain ⟨hdone, hcount, hoffer⟩ := accept_fresh h.regular ha hset hnext
  -- the length is the one of the address that is followed: of a valid device, or of the command
  have hlen : (next s i).rd.serLength = if follows s i then getReadLength i.validAddressI
      else getReadLength (CommandDecoder.out s.dec).readAddressO := by
    rw [next_rd, readArbiter_length, if_pos ((acceptsRead_iff s).mp ha).1]
  have hshort : (next s i).rd.serLength ≤ 41 := by
    rw [hlen]
    split
    · exact (getReadLength_bounds _).2
    · exact (getReadLength_bounds _).2
  rw [note, if_pos ha]
  have hansw (heq : ((next s i).rd.serLength + 7) / 8
      = byteLength (CommandDecoder.out s.dec).readAddressO) :
      Phase ⟨(CommandDecoder.out s.dec).readAddressO, 0⟩ (next s i) :=
    Phase.answering
      { done := hdone
        count := hcount
        room := by rw [hcount]; omega
        short := hshort
        length := heq
        reset := accept_no_reset ha hnext
        offer := fun hw => by rw [hoffer] at hw; cases hw }
  -- no device is valid, so the length is that of the command
  cases hf : follows s i
  · rw [hf] at hlen
    exact hansw (by rw [hlen]; rfl)
  · rw [hf] at hlen
    rw [measured, hf] at hmeas
    simp only [Bool.not_true, Bool.false_or, Bool.or_eq_true, beq_iff_eq, Bool.and_eq_true,
      Bool.not_eq_true'] at hmeas
    -- a device is valid: it has the same length, or the answer starts again in the next cycle
    rcases hmeas with heq | ⟨hready, hs⟩
    · exact hansw (by rw [hlen]; exact heq)
    · exact Phase.again (offered_again ha hready hs) hdone

/-- The read that stays current without being accepted was current and not done, and the arbiter
    changes neither its length nor its serializer's reset. -/
theorem goes_on {s : State} {i : Input} (ha : acceptsRead s = false)
    (hnext : (next s i).rd.currentReadCommand = CMD_READ) :
    s.rd.currentReadCommand = CMD_READ ∧ s.ser.doneO = false ∧
      (next s i).rd.serLength = s.rd.serLength ∧ (next s i).rd.serReset = false := by
  obtain ⟨hnreset, hnread⟩ := next_read_keeps hnext
  have hna : accepts s = false := by
    cases hacc : accepts s
    · rfl
    · -- another command would have replaced the read
      rw [next_rd, readArbiter_command, if_pos hacc] at hnext
      split at hnext
      · cases hnext
      · rw [acceptsRead, hacc, hnext] at ha
        cases ha
  have hread : s.rd.currentReadCommand = CMD_READ := by
    rw [next_rd, readArbiter_command, hna] at hnext
    split at hnext
    · cases hnext
    · exact hnext
  refine ⟨hread, hnread hread, ?_, ?_⟩
  · rw [next_rd, readArbiter_length, hna, follows_reading i hread]
    rfl
  · rw [next_rd, readArbiter_serReset, hnread hread, hread]
    rfl

/-- A serializer that is not serving hands nothing over for the read. -/
theorem answering_rests {g : Ledger} {s : State} (i : Input) (hreg : Regular s)
    (h : Answering g s) (hv : serving s = false) : handsOver s i = [] := by
  cases hb : s.ser.busyO
  · exact handsOver_idle i hreg hb
  · have hw : s.ser.writeO = false := by
      cases hw : s.ser.writeO
      · rfl
      · have hr : s.rd.serReset = false := by
          cases hr : s.rd.serReset
          · rfl
          · rw [h.reset hr] at hb; cases hb
        rw [(serving_iff s).mpr ⟨hb, hr, h.offer hw⟩] at hv
        cases hv
    simp [handsOver, TxSerializer.handsOver, hw]

/-- A cycle in which the serializer does not serve: it has not been started, or the word is over. -/
theorem answering_next_rest {g : Ledger} {s : State} {i : Input} (hreg : Regular s)
    (h : Answering g s) (ha : acceptsRead s = false)
    (hnext : (next s i).rd.currentReadCommand = CMD_READ) (hv : serving s = false) :
    Phase (note g s i) (next s i) := by
  obtain ⟨-, hnd, hlen, hnreset⟩ := goes_on ha hnext
  obtain ⟨hcount, hoffer⟩ := next_count_rest i hv
  have hnote : note g s i = g := by
    rw [note, if_neg (by simp [ha]), answering_rests i hreg h hv]
    rfl
  rw [hnote]
  cases hb : s.ser.busyO
  · -- not started: it is at the first byte, and nothing is on offer
    have h0 := hreg.count hb hnd
    refine Phase.answering
      { done := by rw [next_done, hnd, hb]; simp
        count := by rw [hcount, ← h.count, h0, ite_self]
        room := by rw [hcount, h0, ite_self]; omega
        short := by rw [hlen]; exact h.short
        length := by rw [hlen]; exact h.length
        reset := fun hr => by rw [hnreset] at hr; cases hr
        offer := fun hw => by rw [hoffer] at hw; cases hw }
  · -- started, and it does not serve: all bytes of the word are over
    have hr : s.rd.serReset = false := by
      cases hr : s.rd.serReset
      · rfl
      · rw [h.reset hr] at hb; cases hb
    have hfull : s.rd.serLength ≤ s.ser.count := by
      by_contra hlt
      rw [(serving_iff s).mpr ⟨hb, hr, Nat.lt_of_not_le hlt⟩] at hv
      cases hv
    refine Phase.answered (by rw [next_done, hb, hr, hv]; simp) ?_
    have hc := h.count
    have hroom := h.room
    rw [← h.length]
    omega

/-- A cycle in which the serializer serves: it hands over one byte or none. -/
theorem answering_next_serving {g : Ledger} {s : State} {i : Input} (hreg : Regular s)
    (h : Answering g s) (ha : acceptsRead s = false)
    (hnext : (next s i).rd.currentReadCommand = CMD_READ) (hv : serving s = true) :
    Phase (note g s i) (next s i) := by
  obtain ⟨-, hnd, hlen, hnreset⟩ := goes_on ha hnext
  obtain ⟨hb, hr, hlt⟩ := (serving_iff s).mp hv
  have hshort := h.short
  have hc := h.count
  have hcount := next_count_serving i hv hshort
  have hnote : note g s i
      = { g with bytes := if s.ser.writeO && !i.txReadyI then g.bytes + 1 else g.bytes } := by
    rw [note, if_neg (by simp [ha])]
    by_cases hx : (s.ser.writeO && !i.txReadyI) = true <;>
      simp [handsOver, TxSerializer.handsOver, serIn, hx]
  refine Phase.answering
    { done := by rw [next_done, hnd, hb, hv]; simp
      count := by rw [hcount, hnote]; split <;> simp_all; omega
      room := by rw [hcount, hlen]; split <;> omega
      short := by rw [hlen]; exact h.short
      length := by rw [hlen, hnote]; exact h.length
      reset := fun hr => by rw [hnreset] at hr; cases hr
      offer := fun hw => by
        -- the next byte is offered only if the transmitter was ready, so none was handed over
        rw [next_offer i hv] at hw
        rw [hcount, hlen, hw, Bool.not_true, Bool.and_false]
        exact hlt }

/-- The cycle lemma: a clean cycle keeps the books, in each of the phases. -/
theorem booked_next {g : Ledger} {s : State} {i : Input} (h : Booked g s)
    (hclean : clean s i = true) : Booked (note g s i) (next s i) where
  regular := regular_next i h.regular
  phase hnext := by
    cases ha : acceptsRead s
    · obtain ⟨hread, hnd, -, -⟩ := goes_on ha hnext
      cases h.phase hread with
      | again hagain _ => rw [ha] at hagain; cases hagain
      | answering hansw =>
        cases hv : serving s
        · exact answering_next_rest h.regular hansw ha hnext hv
        · exact answering_next_serving h.regular hansw ha hnext hv
      | answered hd _ => rw [hnd] at hd; cases hd
    · exact phase_accept h ha hclean hnext

/-- A read ends only when it is done, if nothing else takes its place. -/
theorem ends_done {s : State} {i : Input} (hread : s.rd.currentReadCommand = CMD_READ)
    (hnext : (next s i).rd.currentReadCommand = CMD_NOP) : s.ser.doneO = true := by
  cases hd : s.ser.doneO
  · rw [next_rd, readArbiter_command, hread, hd] at hnext
    cases ha : accepts s
    · rw [ha] at hnext; cases hnext
    · have hvalid : (CommandDecoder.out s.dec).readArbiterValidO = true := by
        unfold accepts at ha
        rw [Bool.and_eq_true] at ha
        exact ha.2
      have hcmd := ((CommandDecoder.out_readValid s.dec).mp hvalid).2
      rw [ha, (CommandDecoder.out_read hvalid).1] at hnext
      rcases hcmd with hc | hc | hc <;> rw [hc] at hnext <;> cases hnext
  · rfl

theorem booked_answered {g : Ledger} {s : State} {i : Input} (h : Booked g s) :
    Answered g s i := by
  intro hread hnext
  have hd := ends_done hread hnext
  have hb : s.ser.busyO = false := by
    cases hb : s.ser.busyO
    · rfl
    · rw [h.regular.done hb] at hd; cases hd
  rw [handsOver_idle i h.regular hb]
  cases h.phase hread with
  | again _ hnd => rw [hd] at hnd; cases hnd
  | answering hansw => rw [hansw.done] at hd; cases hd
  | answered _ hn => exact hn

/-! ## Runs -/

/-- **No acknowledged read goes unanswered — in clean runs.**  For every run from reset whose cycles
    are all clean, whatever the ledger held before: in every cycle in which the current command goes
    from read to none, exactly the bytes of the register have been handed over since that read was
    accepted. -/
theorem reads_answered (g : Ledger) (s₀ : State) (is : List Input)
    (hclean : Always next (fun s i => clean s i = true) (reset s₀) is) :
    Always (watched next note) (fun p i => Answered p.1 p.2 i) (g, reset s₀) is := by
  have hinit : Booked g (reset s₀) :=
    { regular := regular_reset s₀, phase := fun h => by cases h }
  exact always_of_step (fun p : Ledger × State => Booked p.1 p.2) (fun p i => clean p.2 i = true) _
    (fun p i hp hc => booked_next hp hc) (fun p i hp _ => booked_answered hp) is _ hinit
    ((always_watched next note (fun s i => clean s i = true) is (g, reset s₀)).mpr hclean)

/-- A transmitter that takes a byte every third cycle. -/
def pacedCycles : Nat → List Input
  | 0 => []
  | n + 1 => { readDataI := 0xAABBCCDD, readValidI := true }
      :: { readDataI := 0xAABBCCDD, readValidI := true }
      :: { readDataI := 0xAABBCCDD, readValidI := true, txReadyI := false } :: pacedCycles n

/-- A read of the identification register and its answer. -/
def idcodeRun : List Input :=
  { dataRecI := symbolOf CMD_READ ADDR_IDCODE, rxEmptyI := false, cmdRecI := true } :: pacedCycles 7

theorem idcode_read_answered :
    Always (watched next note) (fun p i => Answered p.1 p.2 i) (⟨0, 0⟩, reset default) idcodeRun ∧
      (run (watched next note) (⟨0, 0⟩, reset default) idcodeRun).1 = ⟨ADDR_IDCODE, 4⟩ :=
  ⟨reads_answered ⟨0, 0⟩ default idcodeRun (by decide +kernel), by decide +kernel⟩

/-- STB0's status channel is sent on its own; a read of the identification register arrives in the
    middle of it. -/
def waitingRun : List Input :=
  List.replicate 5 { validAddressI := ADDR_STB0_CS, readDataI := 0x55 }
    ++ { dataRecI := symbolOf CMD_READ ADDR_IDCODE, rxEmptyI := false, cmdRecI := true }
    :: pacedCycles 7

/-- The read meets the DONE of the status byte: it ends at once, and no byte is handed over for it. -/
theorem waiting_read_dropped :
    ¬ Always (watched next note) (fun p i => Answered p.1 p.2 i) (⟨0, 0⟩, reset default)
        waitingRun ∧
    (run (watched next note) (⟨0, 0⟩, reset default) waitingRun).1 = ⟨ADDR_IDCODE, 0⟩ ∧
    (run next (reset default) waitingRun).rd.currentReadCommand = CMD_NOP := by
  decide +kernel

end RiscDbgUart.DmiUartTap
