/-
  Whether the host can tell which register a byte comes from: the TAP and `TX_Escape` wired together.

  A read address is announced by a pulse of `SEND_COMMAND_O`.  The pulse is not gated by the
  transmitter's ready and nobody repeats it, while `TX_Escape` looks at it only when it holds no
  symbol.  The serializer reports DONE as soon as its last byte has been handed over, so the pulse of
  the next read can fall into the time in which that byte is still being sent.  Then the notification
  is gone and the bytes that follow carry the label of the register before.

  The listener remembers the last command symbol `TX_Escape` has accepted, and the address
  `READ_ADDRESS_O` had in the cycle in which the serializer loaded the byte it now shows.  `heard`
  excludes the lost notification; under it every data byte is labelled.

  An address is announced in one of three ways (`Announced`): its notification is on offer, or it has been
  accepted, or nothing has been read since the reset.  `inv_next` keeps that through every cycle that is
  heard; `inv_labelled` reads the label of a byte off it.
-/
import RiscDbgUart.ReadTransfer
import RiscDbgUart.TxEscape

set_option linter.unusedVariables false

namespace RiscDbgUart.TapTx

open Clocked DmiUartTap

/-! ## The two modules wired together -/

structure State where
  tap : DmiUartTap.State
  tx : TxEscape.State
deriving DecidableEq, Repr, Inhabited

/-- The pins of the TAP that `TX_Escape` does not drive, and the ready of the transmitter. -/
structure Input where
  tapI : DmiUartTap.Input := {}
  txReadyI : Bool := true

/-- What the TAP sees. -/
def tapIn (s : State) (i : Input) : DmiUartTap.Input :=
  { i.tapI with txReadyI := TxEscape.txReadyO s.tx i.txReadyI }

/-- What `TX_Escape` sees: the bytes of the serializer, and the commands that announce them. -/
def txIn (s : State) (i : Input) : TxEscape.Input :=
  { txReadyI := i.txReadyI
    dataSendI := s.tap.ser.dataByteO
    writeI := s.tap.ser.writeO
    writeCommandI := s.tap.rd.sendCommand
    commandI := s.tap.rd.commandO }

def reset (s : State) : State := { tap := DmiUartTap.reset s.tap, tx := TxEscape.reset }

def next (esc : Byte) (s : State) (i : Input) : State :=
  { tap := DmiUartTap.next s.tap (tapIn s i), tx := TxEscape.next esc s.tx (txIn s i) }

/-! ## The listener -/

/-- The last command symbol accepted by `TX_Escape`, and the address of the register that
    `DATA_SEND_O` was loaded from.  The second is needed because the address register may have moved on. -/
structure Listener where
  last : Option Byte
  address : Addr
deriving DecidableEq, Repr

def listen (g : Listener) (s : State) (i : Input) : Listener :=
  { last := if TxEscape.takesCommand s.tx (txIn s i) then some s.tap.rd.commandO else g.last
    address := s.tap.rd.currentReadAddress }

/-- At reset nothing has been announced. -/
def silence : Listener := { last := none, address := ADDR_IDCODE }

/-- A data byte that `TX_Escape` accepts in this cycle is labelled with the address of its
    register. -/
def Labelled (g : Listener) (s : State) (i : Input) : Prop :=
  TxEscape.takesData s.tx (txIn s i) = true → g.last = some (headerOf g.address)

instance (g : Listener) (s : State) (i : Input) : Decidable (Labelled g s i) :=
  inferInstanceAs (Decidable (_ → _))

/-- The notification of this cycle finds `TX_Escape` free, or repeats the last one accepted, or is
    followed by another one in the next cycle.  In the last two cases it does no harm that it is lost. -/
def notified (g : Listener) (s : State) (i : Input) : Bool :=
  !s.tap.rd.sendCommand || !s.tx.sendData || g.last == some s.tap.rd.commandO ||
    follows s.tap (tapIn s i) || accepts s.tap

/-- No notification is lost, and the arbiter serves no peripheral on its own before the first one. -/
def heard (g : Listener) (s : State) (i : Input) : Bool :=
  notified g s i && !(stays s.tap (tapIn s i) && g.last == none && !s.tap.rd.sendCommand)

/-! ## The current address is announced -/

/-- Nothing has been announced since reset, and nothing is being read or sent. -/
structure Virgin (g : Listener) (s : State) : Prop where
  last : g.last = none
  command : reading s.tap = false
  run : s.tap.rd.serRun = false
  busy : s.tap.ser.busyO = false
  offer : s.tap.ser.writeO = false

/-- Where the notification of the current address is: on offer, accepted by `TX_Escape`, or not needed because
    nothing has been read since the reset. -/
inductive Announced (g : Listener) (s : State) : Prop
  | sending (h : s.tap.rd.sendCommand = true)
  | accepted (h : g.last = some (headerOf s.tap.rd.currentReadAddress))
  | virgin (h : Virgin g s)

/-- What holds in every run in which all notifications are heard: a notification on offer is the one of the
    current address, and that address is announced. -/
structure Inv (g : Listener) (s : State) : Prop where
  header : s.tap.rd.sendCommand = true →
    s.tap.rd.commandO = headerOf s.tap.rd.currentReadAddress
  address : s.tap.rd.sendCommand = false → s.tap.rd.currentReadAddress = g.address
  announced : Announced g s

theorem inv_reset (s : State) : Inv silence (reset s) where
  header h := by cases h
  address _ := rfl
  announced := Announced.virgin ⟨rfl, rfl, rfl, rfl, rfl⟩

/-- The address changes only together with a notification, in one and the same assignment. -/
theorem address_keeps {s : DmiUartTap.State} {i : DmiUartTap.Input}
    (h : (readArbiter s i).sendCommand = false) :
    (readArbiter s i).currentReadAddress = s.rd.currentReadAddress := by
  rw [readArbiter_sendCommand, Bool.or_eq_false_iff] at h
  rw [readArbiter_address, h.1, h.2]
  rfl

/-- Nothing moves on the read side until something is announced. -/
theorem virgin_next {esc : Byte} {g : Listener} {s : State} {i : Input} (h : Virgin g s)
    (hsend : s.tap.rd.sendCommand = false) (hheard : heard g s i = true)
    (hnext : (next esc s i).tap.rd.sendCommand = false) :
    Virgin (listen g s i) (next esc s i) := by
  have hnext' : (readArbiter s.tap (tapIn s i)).sendCommand = false := hnext
  rw [readArbiter_sendCommand, Bool.or_eq_false_iff] at hnext'
  have hstay : stays s.tap (tapIn s i) = false := by
    rw [heard, h.last, hsend] at hheard
    cases hst : stays s.tap (tapIn s i)
    · rfl
    · rw [hst] at hheard; simp at hheard
  have hstart : starts s.tap = false := by simp [starts, h.run]
  have hserve : serving s.tap = false := by simp [serving, h.busy]
  refine
    { last := ?_
      command := ?_
      run := ?_
      busy := ?_
      offer := ?_ }
  · simp [listen, TxEscape.takesCommand, txIn, hsend, h.last]
  · -- only a command that is accepted makes the arbiter read
    have hc := readArbiter_command s.tap (tapIn s i)
    rw [hnext'.2, if_neg Bool.false_ne_true] at hc
    show reading (DmiUartTap.next s.tap (tapIn s i)) = false
    have hr := h.command
    unfold reading at hr ⊢
    rw [next_rd, hc]
    split
    · rfl
    · exact hr
  · show (readArbiter s.tap (tapIn s i)).serRun = false
    rw [readArbiter_serRun, h.command, hstay]
    simp
  · show (DmiUartTap.next s.tap (tapIn s i)).ser.busyO = false
    rw [next_busy, hstart, hserve]
    rfl
  · show (DmiUartTap.next s.tap (tapIn s i)).ser.writeO = false
    rw [next_ser, TxSerializer.next_writeO]
    simp [TxSerializer.serves, h.busy]

/-- A notification that is not followed by another one is the last command symbol accepted. -/
theorem notified_accepted {g : Listener} {s : State} {i : Input} (h : Inv g s)
    (hn : notified g s i = true) (hsend : s.tap.rd.sendCommand = true)
    (hnext : (readArbiter s.tap (tapIn s i)).sendCommand = false) :
    (listen g s i).last = some (headerOf s.tap.rd.currentReadAddress) := by
  rw [readArbiter_sendCommand, Bool.or_eq_false_iff] at hnext
  rw [notified, hsend, hnext.1, hnext.2] at hn
  simp only [Bool.not_true, Bool.false_or, Bool.or_false, Bool.or_eq_true, Bool.not_eq_true',
    beq_iff_eq] at hn
  rw [← h.header hsend]
  rcases hn with hfree | hlast
  · simp [listen, TxEscape.takesCommand, txIn, hfree, hsend]
  · simp [listen, TxEscape.takesCommand, txIn, hsend, hlast]

/-- The step lemma: a cycle in which the notification is heard keeps the current address announced. -/
theorem inv_next {esc : Byte} {g : Listener} {s : State} {i : Input} (h : Inv g s)
    (hheard : heard g s i = true) : Inv (listen g s i) (next esc s i) where
  header hs := readArbiter_commandO s.tap (tapIn s i) hs
  address hs := address_keeps hs
  announced := by
    have hn : notified g s i = true := by
      unfold heard at hheard
      rw [Bool.and_eq_true] at hheard
      exact hheard.1
    -- the notification is over, or still on offer
    cases hs : (next esc s i).tap.rd.sendCommand
    · have haddr : (next esc s i).tap.rd.currentReadAddress = s.tap.rd.currentReadAddress :=
        address_keeps hs
      -- nothing was on offer: what was announced before stays so
      cases hsend : s.tap.rd.sendCommand
      · have hlast : (listen g s i).last = g.last := by
          simp [listen, TxEscape.takesCommand, txIn, hsend]
        cases h.announced with
        | sending hyes => rw [hsend] at hyes; cases hyes
        | accepted hg => exact Announced.accepted (by rw [hlast, haddr]; exact hg)
        | virgin hv => exact Announced.virgin (virgin_next hv hsend hheard hs)
      · -- it was on offer, and it is taken in this cycle
        refine Announced.accepted ?_
        rw [haddr]
        exact notified_accepted h hn hsend hs
    · exact Announced.sending hs

/-- A byte is accepted only in a cycle without a notification, so its address is the announced one. -/
theorem inv_labelled {g : Listener} {s : State} {i : Input} (h : Inv g s) : Labelled g s i := by
  intro htake
  unfold TxEscape.takesData at htake
  simp only [txIn, Bool.and_eq_true, Bool.not_eq_true'] at htake
  obtain ⟨⟨-, hsend⟩, hwrite⟩ := htake
  rw [← h.address hsend]
  cases h.announced with
  | sending hyes => rw [hsend] at hyes; cases hyes
  | accepted hg => exact hg
  | virgin hv => rw [hv.offer] at hwrite; cases hwrite

/-! ## Runs -/

/-- **Responses are labelled correctly on the wire — when every notification is heard.**  For every
    run from reset in which no notification is lost, whenever `TX_Escape` accepts a data byte, the
    last command symbol it accepted before is the header of the register the byte was taken from. -/
theorem responses_labelled (esc : Byte) (s₀ : State) (is : List Input)
    (hheard : Always (watched (next esc) listen) (fun p i => heard p.1 p.2 i = true)
      (silence, reset s₀) is) :
    Always (watched (next esc) listen) (fun p i => Labelled p.1 p.2 i) (silence, reset s₀) is :=
  always_of_step (fun p : Listener × State => Inv p.1 p.2) (fun p i => heard p.1 p.2 i = true) _
    (fun p i hp hc => inv_next hp hc) (fun p i hp _ => inv_labelled hp) is _ (inv_reset s₀) hheard

/-- The pins of a run with a transmitter that takes a byte when it is ready and `WRITE_O` is high and
    is then busy for ten cycles; `wait` of them are left. -/
def withTransmitter (esc : Byte) : State → Nat → List DmiUartTap.Input → List Input
  | _, _, [] => []
  | s, wait, t :: ts =>
    let i : Input := { tapI := t, txReadyI := wait == 0 }
    i :: withTransmitter esc (next esc s i) (if wait == 0 && s.tx.writeO then 10 else wait - 1) ts

/-- A cycle in which a read of the register `a` is at the head of the receive side. -/
def readSymbol (a : Addr) : DmiUartTap.Input :=
  { dataRecI := symbolOf CMD_READ a, rxEmptyI := false, cmdRecI := true
    readValidI := true, readDataI := 0x11223344 }

/-- A cycle with nothing received. -/
def noSymbol : DmiUartTap.Input := { readValidI := true, readDataI := 0x11223344 }

/-- A read of the identification register and, `gap` cycles later, one of the status register. -/
def twoReads (gap : Nat) : List Input :=
  withTransmitter ESC (reset default) 0
    (readSymbol ADDR_IDCODE :: List.replicate gap noSymbol
      ++ readSymbol ADDR_DTMCS :: List.replicate 120 noSymbol)

theorem spaced_reads_labelled :
    Always (watched (next ESC) listen) (fun p i => Labelled p.1 p.2 i) (silence, reset default)
      (twoReads 100) :=
  responses_labelled ESC default (twoReads 100) (by decide +kernel)

/-- Back to back, the notification of the second read is lost: its bytes carry the label of the
    first. -/
theorem queued_read_mislabelled :
    ¬ Always (watched (next ESC) listen) (fun p i => Labelled p.1 p.2 i) (silence, reset default)
        (twoReads 8) ∧
    (run (watched (next ESC) listen) (silence, reset default) (twoReads 8)).1
      = { last := some (headerOf ADDR_IDCODE), address := ADDR_DTMCS } := by
  decide +kernel

end RiscDbgUart.TapTx
