/-
  Whether a read of the DMI register waits for the operation that is outstanding.

  `DMI_UART` answers the TAP only while nothing is outstanding, and the read arbiter starts the
  serializer when `READ_VALID_I` is high.  But the valid the arbiter sees comes from a latch which is
  open only while `READ_READY_O` is high, and the arbiter looks at it one cycle before ready has been
  raised for the new address.  What it sees there is what the access before has left behind; if that
  was a valid, the serializer starts at once and sends the response of an earlier operation.

  The waiter remembers that the last command accepted was a read of the DMI register and that an
  operation has been outstanding in every cycle since.  `fresh` says that the cycle which accepts
  such a read leaves nothing behind that could start the serializer.
-/
import RiscDbgUart.Clocked.Machine
import RiscDbgUart.ReadTransfer
import RiscDbgUart.ReadSide

set_option linter.unusedVariables false

namespace RiscDbgUart.DmiReadSide

open Clocked DmiUartTap

/-! ## Waiting for the debug module -/

/-- The arbiter accepts a `CMD_READ` of `ADDR_DMI` in this cycle. -/
def acceptsDmiRead (s : State) : Bool :=
  accepts s.side.tap && (CommandDecoder.out s.side.tap.dec).readCommandO == CMD_READ &&
    (CommandDecoder.out s.side.tap.dec).readAddressO == ADDR_DMI

/-- The last command accepted is a read of the DMI register, and an operation has been outstanding
    in that cycle and in every cycle since. -/
def wait (g : Bool) (s : State) (i : Input) : Bool :=
  DmiUart.outstanding s.dmi && (acceptsDmiRead s || (g && !accepts s.side.tap))

/-- While the operation is outstanding and the read is current, the serializer is not busy.  So no byte of an
    earlier response goes out under the read. -/
def Patient (g : Bool) (s : State) : Prop :=
  g = true → DmiUart.outstanding s.dmi = true → s.side.tap.rd.currentReadCommand = CMD_READ →
    s.side.tap.rd.currentReadAddress = ADDR_DMI → s.side.tap.ser.busyO = false

instance (g : Bool) (s : State) : Decidable (Patient g s) :=
  inferInstanceAs (Decidable (_ → _ → _ → _ → _))

/-- The valid the arbiter sees in this cycle. -/
def validI (s : State) (i : Input) : Bool := (ReadSide.settled s.side (devices s i)).1

/-- A command accepted in this cycle becomes current and is not over at once: no reset is current and
    no DONE is up that would end it. -/
def armed (s : State) : Bool :=
  s.side.tap.rd.currentReadCommand != CMD_RESET &&
    (!s.side.tap.ser.doneO ||
      (s.side.tap.rd.serReset && s.side.tap.rd.currentReadCommand != CMD_READ))

/-- No peripheral takes the address away from the DMI register in this cycle. -/
def addressed (s : State) (i : Input) : Bool :=
  !follows s.side.tap (tapIn s i) || s.side.ic.validAddressO == ADDR_DMI

/-- The cycle leaves nothing behind that starts the serializer: it is not being started, the valid
    the arbiter sees is low, and the arbiter is not serving a valid peripheral. -/
def quiet (s : State) (i : Input) : Bool :=
  !starts s.side.tap && !validI s i && !(stays s.side.tap (tapIn s i) && !s.side.tap.ser.doneO)

/-- A read of the DMI register is accepted over an outstanding operation only in a quiet cycle. -/
def fresh (s : State) (i : Input) : Bool :=
  !(acceptsDmiRead s && DmiUart.outstanding s.dmi && armed s && addressed s i) || quiet s i

/-! ## One cycle -/

/-- While the read waits, the serializer is idle and nothing is about to start it: the bridge offers
    no answer, and a closed latch holds no valid. -/
structure Waiting (g : Bool) (s : State) : Prop where
  silent : g = true → s.dmi.tapReadValidO = false
  idle : g = true → s.side.tap.rd.currentReadCommand = CMD_READ →
    s.side.tap.rd.currentReadAddress = ADDR_DMI →
      s.side.tap.ser.busyO = false ∧ (s.side.tap.ser.doneO = true ∨ (starts s.side.tap = false ∧
        (s.side.tap.rd.readReadyO = false → s.side.ic.readValid = false)))

theorem waiting_patient {g : Bool} {s : State} (h : Waiting g s) : Patient g s :=
  fun hg _ hread haddr => (h.idle hg hread haddr).1

/-- With the bridge silent the valid at the DMI address is low, through the latch or past it. -/
theorem validI_low {s : State} (i : Input) (haddr : s.side.tap.rd.currentReadAddress = ADDR_DMI)
    (hsilent : s.dmi.tapReadValidO = false)
    (hclosed : s.side.tap.rd.readReadyO = false → s.side.ic.readValid = false) :
    validI s i = false := by
  cases hr : s.side.tap.rd.readReadyO
  · rw [validI, ReadSide.settled_closed _ hr]
    exact hclosed hr
  · simp [validI, ReadSide.settled, ReadInterconnect.settle, hr, haddr, devices, hsilent]

/-- The bridge that has an operation outstanding is silent in the next cycle. -/
theorem silent_next {s : State} {i : Input} (h : DmiUart.outstanding s.dmi = true) :
    (next s i).dmi.tapReadValidO = false := by
  show (DmiUart.next s.dmi (dmiIn s i)).tapReadValidO = false
  rw [DmiUart.next_tapReadValidO, h]
  rfl

theorem acceptsDmiRead_iff (s : State) : acceptsDmiRead s = true ↔
    accepts s.side.tap = true ∧ (CommandDecoder.out s.side.tap.dec).readCommandO = CMD_READ ∧
      (CommandDecoder.out s.side.tap.dec).readAddressO = ADDR_DMI := by
  simp [acceptsDmiRead, and_assoc]

/-- After a quiet cycle without a busy serializer, nothing starts it in the next cycle. -/
theorem quiet_next {s : State} {i : Input} (hb : s.side.tap.ser.busyO = false)
    (hstart : starts s.side.tap = false) (hvalid : validI s i = false)
    (hstay : (stays s.side.tap (tapIn s i) && !s.side.tap.ser.doneO) = false) :
    (next s i).side.tap.ser.busyO = false ∧ starts (next s i).side.tap = false ∧
      (next s i).side.ic.readValid = false := by
  have hserve : serving s.side.tap = false := by simp [serving, hb]
  have hrun : (next s i).side.tap.rd.serRun = false := by
    show (readArbiter s.side.tap (tapIn s i)).serRun = false
    have hv : (tapIn s i).readValidI = false := hvalid
    rw [readArbiter_serRun, hv, Bool.and_false, Bool.false_or, Bool.and_comm]
    exact hstay
  refine ⟨?_, ?_, hvalid⟩
  · show (DmiUartTap.next s.side.tap (tapIn s i)).ser.busyO = false
    rw [next_busy, hstart, hserve]
    rfl
  · simp [starts, hrun]

/-- A read that is not armed, and still becomes current, meets a DONE that is not being reset. -/
theorem unarmed_done {s : State} (h : armed s = false)
    (hnreset : s.side.tap.rd.currentReadCommand ≠ CMD_RESET)
    (hnread : s.side.tap.rd.currentReadCommand = CMD_READ → s.side.tap.ser.doneO = false) :
    s.side.tap.ser.doneO = true ∧ s.side.tap.rd.serReset = false := by
  cases hd : s.side.tap.ser.doneO
  · rw [armed, hd] at h
    simp only [Bool.not_false, Bool.true_or, Bool.and_true, bne_eq_false_iff_eq] at h
    exact absurd h hnreset
  · have hne : s.side.tap.rd.currentReadCommand ≠ CMD_READ := by
      intro hc
      rw [hnread hc] at hd
      cases hd
    refine ⟨rfl, ?_⟩
    cases hr : s.side.tap.rd.serReset
    · rfl
    · rw [armed, hd, hr, bne_iff_ne.mpr hnreset, bne_iff_ne.mpr hne] at h
      cases h

/-- A read accepted in a fresh cycle starts to wait: the valid that the arbiter will see is not an old one. -/
theorem waiting_accept {g : Bool} {s : State} {i : Input} (ha : acceptsDmiRead s = true)
    (hout : DmiUart.outstanding s.dmi = true) (hfresh : fresh s i = true) :
    Waiting (wait g s i) (next s i) where
  silent _ := silent_next hout
  idle _ hread haddr := by
    obtain ⟨hacc, -, -⟩ := (acceptsDmiRead_iff s).mp ha
    have hb := accepts_idle hacc
    have hserve : serving s.side.tap = false := by simp [serving, hb]
    obtain ⟨hnreset, hnread⟩ := next_read_keeps (i := tapIn s i) hread
    have haddressed : addressed s i = true := by
      have haddr' : (readArbiter s.side.tap (tapIn s i)).currentReadAddress = ADDR_DMI := haddr
      rw [readArbiter_address] at haddr'
      unfold addressed
      cases hf : follows s.side.tap (tapIn s i)
      · rfl
      · rw [hf] at haddr'
        have hv : s.side.ic.validAddressO = ADDR_DMI := haddr'
        rw [hv]
        rfl
    rw [fresh, ha, hout, haddressed] at hfresh
    cases harm : armed s
    · -- a DONE is up, not being reset, that will end the read in the next cycle
      obtain ⟨hd, hr⟩ := unarmed_done harm hnreset hnread
      have hstart : starts s.side.tap = false := by simp [starts, hd]
      refine ⟨?_, Or.inl ?_⟩
      · show (DmiUartTap.next s.side.tap (tapIn s i)).ser.busyO = false
        rw [next_busy, hstart, hserve]
        rfl
      · show (DmiUartTap.next s.side.tap (tapIn s i)).ser.doneO = true
        rw [next_done, hd, hr]
        rfl
    · rw [harm] at hfresh
      have hq : quiet s i = true := hfresh
      unfold quiet at hq
      simp only [Bool.and_eq_true, Bool.not_eq_true'] at hq
      obtain ⟨⟨hstart, hvalid⟩, hstay⟩ := hq
      obtain ⟨h1, h2, h3⟩ := quiet_next hb hstart hvalid hstay
      exact ⟨h1, Or.inr ⟨h2, fun _ => h3⟩⟩

/-- A read that waits goes on waiting while no command is accepted. -/
theorem waiting_goes_on {g : Bool} {s : State} {i : Input} (h : Waiting g s) (hg : g = true)
    (ha : accepts s.side.tap = false) (hout : DmiUart.outstanding s.dmi = true) :
    Waiting (wait g s i) (next s i) where
  silent _ := silent_next hout
  idle _ hread haddr := by
    obtain ⟨-, hnread⟩ := next_read_keeps (i := tapIn s i) hread
    have hread' : (readArbiter s.side.tap (tapIn s i)).currentReadCommand = CMD_READ := hread
    rw [readArbiter_command, ha] at hread'
    have hcur : s.side.tap.rd.currentReadCommand = CMD_READ := by
      split at hread'
      · cases hread'
      · exact hread'
    -- under a read the arbiter neither follows nor serves a peripheral
    have hl : listens s.side.tap = false := by simp [listens, hcur]
    have haddr' : (readArbiter s.side.tap (tapIn s i)).currentReadAddress = ADDR_DMI := haddr
    rw [readArbiter_address, follows, hl, ha] at haddr'
    have hnd := hnread hcur
    obtain ⟨hb, hor⟩ := h.idle hg hcur haddr'
    rcases hor with hd | ⟨hstart, hclosed⟩
    · rw [hnd] at hd; cases hd
    · have hvalid := validI_low i haddr' (h.silent hg) hclosed
      have hstay : (stays s.side.tap (tapIn s i) && !s.side.tap.ser.doneO) = false := by
        rw [stays, hl]; rfl
      obtain ⟨h1, h2, h3⟩ := quiet_next hb hstart hvalid hstay
      exact ⟨h1, Or.inr ⟨h2, fun _ => h3⟩⟩

/-- The step lemma: a read is accepted, or one goes on waiting, or there is none. -/
theorem waiting_next {g : Bool} {s : State} {i : Input} (h : Waiting g s)
    (hfresh : fresh s i = true) : Waiting (wait g s i) (next s i) := by
  cases hout : DmiUart.outstanding s.dmi
  · have hw : wait g s i = false := by rw [wait, hout]; rfl
    rw [hw]
    exact ⟨fun hf => (by cases hf), fun hf => (by cases hf)⟩
  cases ha : acceptsDmiRead s
  · cases hg : g && !accepts s.side.tap
    · have hw : wait g s i = false := by rw [wait, ha, hg, Bool.or_false, Bool.and_false]
      rw [hw]
      exact ⟨fun hf => (by cases hf), fun hf => (by cases hf)⟩
    · rw [Bool.and_eq_true, Bool.not_eq_true'] at hg
      exact waiting_goes_on h hg.1 hg.2 hout
  · exact waiting_accept ha hout hfresh

/-! ## Runs -/

/-- **A read of the DMI register waits for the outstanding operation — in fresh runs.**  For every
    run from reset whose cycles are all fresh: while the operation over which the read was accepted is
    outstanding and the read is current, the serializer is not busy, in every state of the run. -/
theorem dmi_read_waits (s₀ : State) (i₀ : Input) (is : List Input)
    (hfresh : Always next (fun s i => fresh s i = true) (reset s₀ i₀) is) :
    Throughout (watched next wait) (fun p => Patient p.1 p.2) (false, reset s₀ i₀) is :=
  throughout_of_step (fun p : Bool × State => Waiting p.1 p.2) _ (fun p i => fresh p.2 i = true)
    (fun p i hp hc => waiting_next hp hc) (fun p hp => waiting_patient hp) is _
    ⟨fun h => (by cases h), fun h => (by cases h)⟩
    ((always_watched next wait (fun s i => fresh s i = true) is (false, reset s₀ i₀)).mpr hfresh)

/-- A cycle in which a read of the register `a` is at the head of the receive side; the bus is not
    ready. -/
def readSymbol (a : Addr) : Input :=
  { sideI := { tapI := { dataRecI := symbolOf CMD_READ a, rxEmptyI := false, cmdRecI := true } }
    dmiI := { dmiReqReadyI := false } }

/-- A cycle in which the word of a read request is at the bridge's write port; the bus is not
    ready. -/
def requestWord : Input :=
  { dmiI := { tapWriteValidI := true, tapWriteDataI := 1, dmiReqReadyI := false } }

/-- A cycle in which the bus is not ready. -/
def busStalled : Input := { dmiI := { dmiReqReadyI := false } }

/-- Three cycles of a transmitter that is busy in the last of them. -/
def sent : List Input :=
  [{}, {}, { sideI := { tapI := { txReadyI := false } } }]

/-- A request that stays on the bus, and a read of the DMI register. -/
def firstRead : List Input :=
  requestWord :: busStalled :: readSymbol ADDR_DMI :: List.replicate 12 busStalled

theorem first_read_waits :
    Throughout (watched next wait) (fun p => Patient p.1 p.2) (false, reset default {}) firstRead ∧
      (run (watched next wait) (false, reset default {}) firstRead).1 = true :=
  ⟨dmi_read_waits default {} firstRead (by decide +kernel), by decide +kernel⟩

/-- The same after a read of the identification register. -/
def secondRead : List Input :=
  readSymbol ADDR_IDCODE :: (List.replicate 7 sent).flatten ++ firstRead

/-- The valid of the identification register is still in the latch: the serializer is busy with the
    DMI register while the request is on the bus. -/
theorem second_read_does_not_wait :
    ¬ Throughout (watched next wait) (fun p => Patient p.1 p.2) (false, reset default {})
        secondRead ∧
    (run next (reset default {}) secondRead).side.tap.rd.currentReadAddress = ADDR_DMI ∧
    (run next (reset default {}) secondRead).side.tap.ser.busyO = true ∧
    DmiUart.outstanding (run next (reset default {}) secondRead).dmi = true := by
  decide +kernel

end RiscDbgUart.DmiReadSide
