/-
  Whether a running read transaction is left alone.

  The read arbiter takes the address and the command of a new read from the decoder only outside of
  a running transaction (`!ser_busy`).  Its other branch, which follows the interconnect to a valid
  peripheral, does not ask the serializer: it moves `READ_ADDRESS_O`, `ser_length` and the
  notification while the bytes of a word are on their way.  And the guard of the first branch looks
  at `BUSY_O`, which rises one cycle after `ser_run` has started the serializer.

  An `Observer` remembers what the transfer in progress was started with; `Atomic` compares.
  `undisturbed` is the condition on a cycle that decides the matter, in both directions.

  The two directions come from one lemma about a cycle: as long as the transfer in progress is atomic so
  far, the next cycle leaves it so exactly when it is undisturbed (`atomic_next_iff`).
-/
import RiscDbgUart.Clocked.Machine
import RiscDbgUart.DmiUartTap

set_option linter.unusedVariables false

namespace RiscDbgUart.DmiUartTap

open Clocked

/-! ## Starting and running -/

/-- `ser_run` starts the serializer in this cycle: `BUSY_O` rises at its end. -/
def starts (s : State) : Bool :=
  s.rd.serRun && !s.ser.doneO && !s.rd.serReset && !s.ser.busyO

/-- The serializer is busy and stays so: there are bytes left and no reset. -/
def serving (s : State) : Bool :=
  s.ser.busyO && !s.rd.serReset && decide (s.ser.count < s.rd.serLength)

/-- Busy after a cycle means started or kept busy in it. -/
theorem next_busy (s : State) (i : Input) : (next s i).ser.busyO = (starts s || serving s) := by
  rw [next_ser, TxSerializer.next_busyO]
  unfold TxSerializer.serves starts serving serIn
  cases s.ser.busyO <;> cases s.rd.serRun <;> cases s.ser.doneO <;> cases s.rd.serReset <;> simp

/-- DONE stays until the serializer is reset, and comes up when a word is over. -/
theorem next_done (s : State) (i : Input) : (next s i).ser.doneO
    = (!s.rd.serReset && (s.ser.doneO || (s.ser.busyO && !serving s))) := by
  rw [next_ser, TxSerializer.next_doneO]
  unfold TxSerializer.serves serving serIn
  cases s.rd.serReset <;> simp

theorem starts_iff (s : State) : starts s = true ↔
    s.rd.serRun = true ∧ s.ser.doneO = false ∧ s.rd.serReset = false ∧ s.ser.busyO = false := by
  simp [starts, and_assoc]

theorem serving_iff (s : State) : serving s = true ↔
    s.ser.busyO = true ∧ s.rd.serReset = false ∧ s.ser.count < s.rd.serLength := by
  simp [serving, and_assoc]

/-- The decoder's commands wait for the serializer. -/
theorem accepts_idle {s : State} (h : accepts s = true) : s.ser.busyO = false := by
  unfold accepts at h
  rw [Bool.and_eq_true, Bool.not_eq_true'] at h
  exact h.1

theorem accepts_of_busy {s : State} (h : s.ser.busyO = true) : accepts s = false := by
  unfold accepts
  rw [h, Bool.not_true, Bool.false_and]

/-- Where `CMD_READ` is current after a cycle, the command before it was neither a reset nor a read
    that ended in that cycle. -/
theorem next_read_keeps {s : State} {i : Input}
    (hnext : (next s i).rd.currentReadCommand = CMD_READ) :
    s.rd.currentReadCommand ≠ CMD_RESET ∧
      (s.rd.currentReadCommand = CMD_READ → s.ser.doneO = false) := by
  rw [next_rd, readArbiter_command] at hnext
  split at hnext
  · cases hnext
  · rename_i hkeep
    obtain ⟨hreset, hread⟩ := not_or.mp hkeep
    refine ⟨hreset, fun hc => ?_⟩
    cases hd : s.ser.doneO
    · rfl
    · exact absurd ⟨hc, hd⟩ hread

/-! ## The transfer in progress -/

/-- What an observer of the read side remembers: the address and the length the transfer in progress
    was started with, and whether this is its first busy cycle.  The module itself keeps no such copy. -/
structure Observer where
  address : Addr
  length : Nat
  first : Bool
deriving DecidableEq, Repr

/-- The observer looks at the registers in the cycle in which the serializer is started. -/
def observe (g : Observer) (s : State) (i : Input) : Observer :=
  if starts s then { address := s.rd.currentReadAddress, length := s.rd.serLength, first := true }
  else { g with first := false }

/-- **Atomicity of a transfer.**  While the serializer is busy, address and length are those it was
    started with, and after the first busy cycle there is no notification.  The notification of the transfer
    itself may still be up in its first cycle. -/
def Atomic (g : Observer) (s : State) : Prop :=
  s.ser.busyO = true →
    s.rd.currentReadAddress = g.address ∧ s.rd.serLength = g.length ∧
      (s.rd.sendCommand = true → g.first = true)

instance (g : Observer) (s : State) : Decidable (Atomic g s) :=
  inferInstanceAs (Decidable (_ → _))

/-- The arbiter leaves the transfer alone in this cycle: while the serializer is busy it follows no
    peripheral, and in the cycle that starts the serializer it also accepts no command for another
    address or length. -/
def undisturbed (s : State) (i : Input) : Bool :=
  if starts s then
    !follows s i && (!accepts s ||
      ((CommandDecoder.out s.dec).readAddressO == s.rd.currentReadAddress &&
        getReadLength (CommandDecoder.out s.dec).readAddressO == s.rd.serLength))
  else !(serving s && follows s i)

/-! ## One cycle -/

/-- In the cycle that starts a transfer, address and length survive exactly if it is undisturbed. -/
theorem atomic_start (g : Observer) {s : State} (i : Input) (hs : starts s = true) :
    Atomic (observe g s i) (next s i) ↔ undisturbed s i = true := by
  have hbusy : (next s i).ser.busyO = true := by rw [next_busy, hs, Bool.true_or]
  unfold Atomic
  rw [hbusy, observe, if_pos hs, undisturbed, if_pos hs, next_rd, readArbiter_address,
    readArbiter_length]
  simp only [implies_true, and_true, forall_const]
  cases hf : follows s i
  · cases ha : accepts s <;> simp
  · -- the peripheral's address is not the one the transfer was started with
    have hne : i.validAddressI ≠ s.rd.currentReadAddress := by
      unfold follows at hf
      rw [Bool.and_eq_true, bne_iff_ne] at hf
      exact hf.2
    simp [hne]

/-- Between two busy cycles the decoder is held off, so only a peripheral can disturb. -/
theorem atomic_serving {g : Observer} {s : State} (i : Input) (hs : starts s = false)
    (hv : serving s = true) (h : Atomic g s) :
    Atomic (observe g s i) (next s i) ↔ undisturbed s i = true := by
  have hbusy : (next s i).ser.busyO = true := by rw [next_busy, hv, Bool.or_true]
  have hb : s.ser.busyO = true := ((serving_iff s).mp hv).1
  obtain ⟨haddr, hlen, -⟩ := h hb
  unfold Atomic
  rw [hbusy, observe, if_neg (by simp [hs]), undisturbed, if_neg (by simp [hs]), next_rd,
    readArbiter_address, readArbiter_length, readArbiter_sendCommand, accepts_of_busy hb]
  cases hf : follows s i
  · simp [haddr, hlen]
  · simp [hv]

/-- A cycle keeps the transfer atomic exactly if it leaves the transfer alone.  This is both directions of
    the result, for one cycle. -/
theorem atomic_next_iff {g : Observer} {s : State} (i : Input) (h : Atomic g s) :
    Atomic (observe g s i) (next s i) ↔ undisturbed s i = true := by
  cases hs : starts s
  · cases hv : serving s
    · -- the serializer is not busy after the cycle
      have hidle : (next s i).ser.busyO = false := by rw [next_busy, hs, hv, Bool.or_false]
      refine iff_of_true (fun hb => ?_) ?_
      · rw [hidle] at hb; cases hb
      · rw [undisturbed, hs, hv]; rfl
    · exact atomic_serving i hs hv h
  · exact atomic_start g i hs

/-! ## Runs -/

/-- **A running read transaction is atomic — in undisturbed runs, and only there.**  For every run
    from reset, whatever the observer held before: in every state the run passes through the transfer
    in progress is atomic, if and only if every cycle of the run is undisturbed. -/
theorem transfers_atomic_iff_undisturbed (g : Observer) (s₀ : State) (is : List Input) :
    Throughout (watched next observe) (fun p => Atomic p.1 p.2) (g, reset s₀) is ↔
      Always next (fun s i => undisturbed s i = true) (reset s₀) is := by
  have hreset : Atomic g (reset s₀) := by
    intro hb
    cases hb
  rw [throughout_iff_always (watched next observe) (fun p => Atomic p.1 p.2)
    (fun p i => undisturbed p.2 i = true) (fun p i hp => atomic_next_iff i hp) is
    (g, reset s₀) hreset]
  exact always_watched next observe (fun s i => undisturbed s i = true) is (g, reset s₀)

/-- STB0's data channel becomes valid and its transfer is started; then its status channel becomes
    valid as well. -/
def overtakenRun : List Input :=
  List.replicate 8 { validAddressI := ADDR_STB0_D, readDataI := 0xAABBCCDD, readValidI := true }
    ++ List.replicate 2 { validAddressI := ADDR_STB0_CS, readDataI := 0xAABBCCDD, readValidI := true }

/-- The arbiter follows the status channel in the middle of the data word: address, length and a
    notification change while the serializer is busy. -/
theorem data_transfer_overtaken :
    ¬ Throughout (watched next observe) (fun p => Atomic p.1 p.2) (⟨0, 0, false⟩, reset default)
        overtakenRun ∧
    (run (watched next observe) (⟨0, 0, false⟩, reset default) overtakenRun).1
      = ⟨ADDR_STB0_D, 32, false⟩ ∧
    (run next (reset default) overtakenRun).ser.busyO = true ∧
    (run next (reset default) overtakenRun).rd.currentReadAddress = ADDR_STB0_CS ∧
    (run next (reset default) overtakenRun).rd.serLength = 8 := by
  decide +kernel

end RiscDbgUart.DmiUartTap
