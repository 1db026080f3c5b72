/-
  `TX_Escape` and `UART_TX` under flow control.

  `UART_TX` asks the other side to pause with an `ESC` of its own and lets it go on with `RESUME`, so
  that a pause and its end read as the command `RESUME`.  `TX_Escape` does not know: it takes every
  rising edge of ready for the end of its own byte.  A byte of it is lost when such a frame comes
  between it and the transmitter, what it sends between the `ESC` and the `RESUME` is read as a
  command, and a pause that was not announced, because an escape byte had been sent last, is ended
  with a `RESUME` of its own if other bytes have been sent meanwhile.

  The condition `undisturbed` leaves these out.  While the transmitter's own frames are on the line
  and from a pause to its end, `TX_Escape` holds no symbol; and a pause that was not announced is not
  ended with a frame.  `Watch` remembers what the two need: whose frame was the last one, and whether
  the pause has been announced.

  Under the condition the pair is the buffer of one symbol of `TxLink`, with the transmitter's own
  frames as idle time (`link_next`), so the bytes of the symbols and the own bytes only have to be
  put together again on the side of the receiver.
-/
import RiscDbgUart.TxLink
import RiscDbgUart.UartTx

set_option linter.unusedVariables false

namespace RiscDbgUart.FlowControl

open Clocked Stuffing

/-! ## The two modules wired together -/

structure State where
  esc : TxEscape.State
  tx : UartTx.State
deriving DecidableEq, Repr, Inhabited

/-- What drives the pair: the symbol the TAP offers, `TX_Escape`'s side of it with a valid bit for data
    and one for commands, the receiver's request to pause, and the line of the second channel. -/
structure Input where
  dataSendI : Byte := 0
  writeI : Bool := false
  writeCommandI : Bool := false
  commandI : Byte := 0
  sendPauseI : Bool := false
  tx1I : Bool := false
deriving DecidableEq, Repr

/-- What `TX_Escape` sees. -/
def escIn (s : State) (i : Input) : TxEscape.Input :=
  { txReadyI := !UartTx.txBusyO s.tx
    dataSendI := i.dataSendI
    writeI := i.writeI
    writeCommandI := i.writeCommandI
    commandI := i.commandI }

/-- What `UART_TX` sees.  The channel is the first one, so the line is the transmitter's own, and a
    byte of `TX_Escape` comes with the flag that tells an escape byte from any other. -/
def txIn (s : State) (i : Input) : UartTx.Input :=
  { txStartI := s.esc.writeO
    sendPauseI := i.sendPauseI
    escDetectedI := s.esc.escDetectedO
    channelI := false
    tx1I := i.tx1I
    dataI := s.esc.dataSendO }

def reset (r : Rates) (s : State) : State := { esc := TxEscape.reset, tx := UartTx.reset r s.tx }

def next (r : Rates) (s : State) (i : Input) : State :=
  { esc := TxEscape.next ESC s.esc (escIn s i), tx := UartTx.next r s.tx (txIn s i) }

/-- The symbol `TX_Escape` accepts. -/
def accepted (s : State) (i : Input) : List (Symbol Byte) :=
  if TxEscape.takesCommand s.esc (escIn s i) then [.command i.commandI]
  else if TxEscape.takesData s.esc (escIn s i) then [.data i.dataSendI]
  else []

/-- The byte `UART_TX` frames. -/
def framed (s : State) (i : Input) : List Byte := UartTx.framed s.tx (txIn s i)

/-- The symbols without the commands that end a pause. -/
def clean (syms : List (Symbol Byte)) : List (Symbol Byte) :=
  syms.filter (· ≠ Symbol.command UartTx.RESUME)

/-- Decoding what has been framed gives the symbols accepted, but for the one `TX_Escape` may hold. -/
def Decoded (r : Rates) (s₀ : State) (is : List Input) : Prop :=
  ∃ held : List (Symbol Byte), held.length ≤ 1 ∧
    ((run (next r) (reset r s₀) is).esc.sendData = false → held = []) ∧
    emitted (next r) accepted (reset r s₀) is
      = clean (decode ESC false (emitted (next r) framed (reset r s₀) is)) ++ held

/-! ## The condition -/

/-- What `UART_TX` has said on its own.  The registers do not tell an own frame from one of the client,
    nor a pause that was announced from one that was not, so the theorem keeps the account beside them. -/
structure Watch where
  own : Bool
  announced : Bool
deriving DecidableEq, Repr, Inhabited

/-- The bookkeeping of one cycle.  A pause is announced by an `ESC`, unless the client's last byte was
    flagged as one; then it begins silently. -/
def see (g : Watch) (s : State) (i : Input) : Watch :=
  { own :=
      if UartTx.injects s.tx (txIn s i) then true
      else if UartTx.takes s.tx (txIn s i) then false
      else g.own
    announced :=
      if UartTx.pauses s.tx (txIn s i) then !s.tx.lastEsc
      else if UartTx.resumes s.tx (txIn s i) then false
      else g.announced }

/-- `TX_Escape` holds a symbol after the cycle: it had one and the last byte of it is not through, or
    it takes one now. -/
def keeps (s : State) (i : Input) : Bool :=
  if s.esc.sendData then !(TxEscape.txDone s.esc (!UartTx.txBusyO s.tx) && !s.esc.sendEsc)
  else TxEscape.takesCommand s.esc (escIn s i) || TxEscape.takesData s.esc (escIn s i)

/-- An own frame begins or is on the line, or an announced pause goes on. -/
def reserved (g : Watch) (s : State) (i : Input) : Bool :=
  UartTx.injects s.tx (txIn s i) || (UartTx.txBusyO s.tx && g.own) || g.announced

/-- The cycle does not let flow control and a symbol meet: nothing is held while the line is reserved,
    and a pause that was not announced ends silently. -/
def undisturbed (g : Watch) (s : State) (i : Input) : Bool :=
  !(reserved g s i && keeps s i) &&
    !(UartTx.resumes s.tx (txIn s i) && !g.announced && !s.tx.lastEsc)

variable {r : Rates} {g : Watch} {s : State} {i : Input}

/-- The pair as a buffer of one symbol: without a symbol the own frames do not count. -/
def link (s : State) : TxLink.State :=
  if s.esc.sendData then { tx := s.esc, ready := !UartTx.txBusyO s.tx }
  else { tx := { s.esc with bufferedTxReady := true }, ready := true }

/-- The buffer is told when the transmitter gets ready. -/
def linkIn (r : Rates) (s : State) (i : Input) : TxLink.Input :=
  { dataSendI := i.dataSendI
    writeI := i.writeI
    writeCommandI := i.writeCommandI
    commandI := i.commandI
    wake := !UartTx.txBusyO (next r s i).tx }

/-- What the condition keeps.  The pair is a regular link; the escape byte of a symbol is flagged as
    one; while the line is busy, the frame is the transmitter's own exactly if no symbol is held; and
    in an announced pause nothing is held and the last frame was no `ESC`. -/
structure Inv (g : Watch) (s : State) : Prop where
  regular : TxLink.Regular ESC (link s)
  detected : s.esc.writeO = true → s.esc.escDetectedO = s.esc.sendEsc
  busy : UartTx.txBusyO s.tx = true → s.esc.sendData = !g.own
  announced : g.announced = true → s.tx.pausing = true ∧ s.tx.lastEsc = false ∧
    s.esc.sendData = false

/-! ## The pair as a buffer of one symbol -/

theorem link_held (hd : s.esc.sendData = true) :
    link s = { tx := s.esc, ready := !UartTx.txBusyO s.tx } := if_pos hd

theorem link_free (hd : s.esc.sendData = false) :
    link s = { tx := { s.esc with bufferedTxReady := true }, ready := true } :=
  if_neg (by rw [hd]; exact Bool.false_ne_true)

theorem Inv.rest (h : Inv g s) (hd : s.esc.sendData = false) :
    s.esc.sendEsc = false ∧ s.esc.writeO = false := by
  have hrest := h.regular.rest
  rw [link_free hd] at hrest
  exact (hrest hd).2

/-- A byte on offer to a transmitter that is not busy belongs to the symbol that is held, and it is
    the one that is due. -/
theorem Inv.offer (h : Inv g s) (hb : UartTx.txBusyO s.tx = false) (hw : s.esc.writeO = true) :
    s.esc.sendData = true ∧ s.esc.bufferedTxReady = true ∧
      s.esc.dataSendO = if s.esc.sendEsc then ESC else s.esc.dataBuffer := by
  cases hd : s.esc.sendData
  · rw [(h.rest hd).2] at hw
    cases hw
  · have hoffer := h.regular.offer
    rw [link_held hd] at hoffer
    exact ⟨rfl, hoffer (by simp [hb]) hw⟩

/-- A byte is taken only when it is on offer. -/
theorem writeO_of_takes (ht : UartTx.takes s.tx (txIn s i) = true) :
    UartTx.txBusyO s.tx = false ∧ s.esc.writeO = true := by
  rw [UartTx.takes, Bool.and_eq_true, Bool.and_eq_true, beq_iff_eq] at ht
  exact ⟨by rw [UartTx.txBusyO, ht.1.1]; rfl, ht.2⟩

/-- Without a symbol there is no byte on offer, so the transmitter takes none. -/
theorem takes_free (h : Inv g s) (hd : s.esc.sendData = false) :
    UartTx.takes s.tx (txIn s i) = false := by
  rw [← Bool.not_eq_true]
  intro ht
  have hw := (writeO_of_takes ht).2
  rw [(h.rest hd).2] at hw
  cases hw

/-- `keeps` says what it is meant to say. -/
theorem next_sendData (s : State) (i : Input) : (next r s i).esc.sendData = keeps s i := by
  rw [next, TxEscape.next_sendData]
  rfl

theorem next_busy (hb : UartTx.txBusyO s.tx = false) : UartTx.txBusyO (next r s i).tx
    = (UartTx.injects s.tx (txIn s i) || UartTx.takes s.tx (txIn s i)) := by
  have hidle : s.tx.state = .idle := by simpa [UartTx.txBusyO] using hb
  rw [UartTx.txBusyO, next, UartTx.next_state_idle hidle rfl]
  cases UartTx.injects s.tx (txIn s i) || UartTx.takes s.tx (txIn s i) <;> rfl

theorem accepted_eq (s : State) (i : Input) : accepted s i = TxLink.taken (link s) (linkIn r s i) := by
  unfold accepted TxLink.taken TxEscape.takesCommand TxEscape.takesData
  cases hd : s.esc.sendData
  · rw [link_free hd]
    simp [hd, escIn, TxLink.txIn, linkIn]
  · rw [link_held hd]
    simp [hd, escIn, TxLink.txIn, linkIn]

/-- A symbol that is kept is not disturbed. -/
theorem undisturbed_keeps (hc : undisturbed g s i = true) (hk : keeps s i = true) :
    UartTx.injects s.tx (txIn s i) = false ∧ (UartTx.txBusyO s.tx && g.own) = false ∧
      g.announced = false := by
  rw [undisturbed, Bool.and_eq_true, hk, Bool.and_true, Bool.not_eq_true', reserved,
    Bool.or_eq_false_iff, Bool.or_eq_false_iff] at hc
  exact ⟨hc.1.1.1, hc.1.1.2, hc.1.2⟩

/-- Over no symbol: own frames are idle time.  They make the transmitter busy, which the buffer does
    not see, as `link` has it ready for as long as nothing is held. -/
theorem link_next_free (h : Inv g s) (hc : undisturbed g s i = true)
    (hd : s.esc.sendData = false) :
    link (next r s i) = TxLink.next ESC (link s) (linkIn r s i) := by
  obtain ⟨he, hw⟩ := h.rest hd
  have hleft := TxEscape.next_free ESC s.esc (escIn s i) hd he
  have hright := TxEscape.next_free ESC (link s).tx (TxLink.txIn (link s) (linkIn r s i))
    (by rw [link_free hd, hd]) (by rw [link_free hd, he])
  rw [TxLink.next, hright, link_free hd]
  cases hk : keeps s i
  · rw [link_free (by rw [next_sendData, hk]), next, hleft, hw]
    rfl
  · -- a symbol is loaded, so no own frame begins or is on the line
    obtain ⟨hinj, hown, -⟩ := undisturbed_keeps hc hk
    have hb : UartTx.txBusyO s.tx = false := by
      cases hb : UartTx.txBusyO s.tx
      · rfl
      · have hdown := h.busy hb
        rw [hb, Bool.true_and] at hown
        rw [hown, hd] at hdown
        cases hdown
    have hb' : UartTx.txBusyO (next r s i).tx = false := by
      rw [next_busy hb, hinj, takes_free h hd]
      rfl
    have hready : (escIn s i).txReadyI = true := by
      rw [escIn, hb]
      rfl
    rw [link_held (by rw [next_sendData, hk]), hb', next, hleft, hready, hw]
    rfl

/-- Over a symbol `TX_Escape` and the buffer are the same. -/
theorem next_held (r : Rates) (hd : s.esc.sendData = true) (i : Input) :
    TxLink.next ESC (link s) (linkIn r s i) = { tx := (next r s i).esc
                                                ready := if !UartTx.txBusyO s.tx then !s.esc.writeO
                                                  else !UartTx.txBusyO (next r s i).tx } := by
  rw [link_held hd]
  rfl

/-- The symbol is kept, and the transmitter is ready or not as the buffer has it: a byte on offer to
    a ready transmitter makes it busy, and nothing else does. -/
theorem link_next_kept (hd : s.esc.sendData = true) (hk : keeps s i = true)
    (hready : UartTx.txBusyO s.tx = false → UartTx.txBusyO (next r s i).tx = s.esc.writeO) :
    link (next r s i) = TxLink.next ESC (link s) (linkIn r s i) := by
  rw [link_held (by rw [next_sendData, hk]), next_held r hd]
  cases hb : UartTx.txBusyO s.tx
  · rw [hready hb]
    rfl
  · rfl

/-- `TX_Escape` notices the end of the last byte: the transmitter is ready again, which it was not in
    the cycle before. -/
theorem done_of_not_keeps (hd : s.esc.sendData = true) (hk : keeps s i = false) :
    UartTx.txBusyO s.tx = false ∧ s.esc.bufferedTxReady = false := by
  rw [keeps, if_pos hd, TxEscape.txDone] at hk
  cases hb : UartTx.txBusyO s.tx
  · cases hr : s.esc.bufferedTxReady
    · exact ⟨rfl, rfl⟩
    · rw [hr] at hk
      cases hk
  · rw [hb] at hk
    simp at hk

/-- The last byte of the symbol is through, and nothing is on offer.  From here on the readiness of
    the transmitter no longer counts. -/
theorem link_next_done (h : Inv g s) (hd : s.esc.sendData = true) (hk : keeps s i = false) :
    s.esc.writeO = false ∧ link (next r s i) = TxLink.next ESC (link s) (linkIn r s i) := by
  obtain ⟨hb, hr⟩ := done_of_not_keeps hd hk
  have hw : s.esc.writeO = false := by
    cases hw : s.esc.writeO
    · rfl
    · rw [(h.offer hb hw).2.1] at hr
      cases hr
  refine ⟨hw, ?_⟩
  have hbuf : (next r s i).esc.bufferedTxReady = true := by
    rw [next, TxEscape.next_held _ _ _ hd, escIn, hb]
    rfl
  have heta : ({ (next r s i).esc with bufferedTxReady := true } : TxEscape.State)
      = (next r s i).esc := by rw [← hbuf]
  rw [link_free (by rw [next_sendData, hk]), next_held r hd, hb, hw, heta]
  rfl

/-- A byte on offer that is not taken stays on offer.  This is what a silent pause or resume of the
    transmitter does to it, and the buffer sees no step. -/
theorem link_next_offer (h : Inv g s) (hb : UartTx.txBusyO s.tx = false)
    (hw : s.esc.writeO = true) (hb' : UartTx.txBusyO (next r s i).tx = false) :
    link (next r s i) = link s := by
  obtain ⟨hd, hr, hbyte⟩ := h.offer hb hw
  have hesc : (next r s i).esc = s.esc :=
    TxEscape.next_offered ESC s.esc (escIn s i) hd hr hw hbyte (h.detected hw)
      (by rw [escIn, hb]; rfl)
  rw [link_held (by rw [hesc, hd]), link_held hd, hesc, hb, hb']

/-- **One cycle of the pair** is one cycle of the buffer, or none if a silent pause begins or ends
    while a byte is on offer. -/
theorem link_next (h : Inv g s) (hc : undisturbed g s i = true) :
    (link (next r s i) = TxLink.next ESC (link s) (linkIn r s i) ∧
      UartTx.taken s.tx (txIn s i) = TxLink.wire (link s)) ∨
    (link (next r s i) = link s ∧ UartTx.taken s.tx (txIn s i) = [] ∧ accepted s i = []) := by
  cases hd : s.esc.sendData
  · -- nothing is held
    left
    refine ⟨link_next_free h hc hd, ?_⟩
    rw [UartTx.taken, takes_free h hd, TxLink.wire, link_free hd, (h.rest hd).2]
    rfl
  cases hk : keeps s i
  · -- the last byte is through
    left
    obtain ⟨hw, hlink⟩ := link_next_done h hd hk
    refine ⟨hlink, ?_⟩
    rw [UartTx.taken, UartTx.takes, TxLink.wire, link_held hd, hw]
    simp [txIn, hw]
  · obtain ⟨hinj, -, -⟩ := undisturbed_keeps hc hk
    cases ht : UartTx.takes s.tx (txIn s i)
    · cases hb : UartTx.txBusyO s.tx
      · have hb' : UartTx.txBusyO (next r s i).tx = false := by
          rw [next_busy hb, hinj, ht]
          rfl
        cases hw : s.esc.writeO
        · left
          refine ⟨link_next_kept hd hk fun _ => by rw [hb', hw], ?_⟩
          rw [UartTx.taken, ht, TxLink.wire, link_held hd, hw, Bool.and_false]
          rfl
        · right
          refine ⟨link_next_offer h hb hw hb', by rw [UartTx.taken, ht]; rfl, ?_⟩
          simp [accepted, TxEscape.takesCommand, TxEscape.takesData, hd]
      · left
        refine ⟨link_next_kept hd hk fun hb' => absurd (hb'.symm.trans hb) (by simp), ?_⟩
        rw [UartTx.taken, ht, TxLink.wire, link_held hd, hb]
        rfl
    · left
      obtain ⟨hb, hw⟩ := writeO_of_takes ht
      refine ⟨link_next_kept hd hk fun _ => by rw [next_busy hb, ht, hw, Bool.or_true], ?_⟩
      rw [UartTx.taken, ht, TxLink.wire, link_held hd, hb, hw]
      rfl

theorem keeps_of_reserved (hc : undisturbed g s i = true) (hr : reserved g s i = true) :
    keeps s i = false := by
  rw [undisturbed, Bool.and_eq_true, hr, Bool.true_and, Bool.not_eq_true'] at hc
  exact hc.1

/-- A frame on the line is the own one or that of the symbol that is held.  What begins in this cycle
    is noted by `see`; what was on the line before is known from the invariant. -/
theorem busy_next (h : Inv g s) (hc : undisturbed g s i = true)
    (hb' : UartTx.txBusyO (next r s i).tx = true) : keeps s i = !(see g s i).own := by
  cases hb : UartTx.txBusyO s.tx
  · -- a new frame: of a flow control byte, or of the symbol that is offered
    rw [next_busy hb, Bool.or_eq_true] at hb'
    cases hinj : UartTx.injects s.tx (txIn s i)
    · have ht : UartTx.takes s.tx (txIn s i) = true := by
        rcases hb' with hi | ht
        · rw [hinj] at hi
          cases hi
        · exact ht
      obtain ⟨hd, hr, -⟩ := h.offer hb (writeO_of_takes ht).2
      rw [see, hinj, ht, keeps, if_pos hd, TxEscape.txDone, hr]
      rfl
    · rw [see, hinj, keeps_of_reserved hc (by rw [reserved, hinj]; rfl)]
      rfl
  · -- the frame of before goes on
    obtain ⟨hinj, ht⟩ := UartTx.busy_nothing (txIn s i) hb
    rw [see, hinj, ht]
    have hd := h.busy hb
    cases ho : g.own
    · rw [ho] at hd
      rw [keeps, hd, TxEscape.txDone, hb]
      simp
    · rw [keeps_of_reserved hc (by rw [reserved, hb, ho, Bool.true_and, Bool.or_true]; rfl)]
      simp

/-- An announced pause goes on with nothing held, because it reserves the line, and with no `ESC` as
    the last frame. -/
theorem announced_next (h : Inv g s) (hc : undisturbed g s i = true)
    (ha : (see g s i).announced = true) : (next r s i).tx.pausing = true ∧
      (next r s i).tx.lastEsc = false ∧ (next r s i).esc.sendData = false := by
  rw [next_sendData, next, UartTx.next_pausing rfl, UartTx.next_lastEsc rfl]
  cases hp : UartTx.pauses s.tx (txIn s i)
  · cases hres : UartTx.resumes s.tx (txIn s i)
    · have hg : g.announced = true := by simpa [see, hp, hres] using ha
      obtain ⟨hpaus, hlast, hd⟩ := h.announced hg
      rw [takes_free h hd, hpaus, hlast]
      exact ⟨rfl, rfl, keeps_of_reserved hc (by rw [reserved, hg, Bool.or_true])⟩
    · simp [see, hp, hres] at ha
  · have hlast : s.tx.lastEsc = false := by simpa [see, hp] using ha
    rw [UartTx.takes_of_pauses hp, hlast]
    refine ⟨rfl, rfl, keeps_of_reserved hc ?_⟩
    rw [reserved, UartTx.injects, hp, hlast]
    rfl

/-- A byte that will be on offer is flagged as an escape byte exactly if it is one. -/
theorem detected_next (h : Inv g s) (hw : (next r s i).esc.writeO = true) :
    (next r s i).esc.escDetectedO = (next r s i).esc.sendEsc := by
  cases hd : s.esc.sendData
  · rw [next, TxEscape.next_free _ _ _ hd (h.rest hd).1] at hw
    cases hw
  · rw [next, TxEscape.next_held _ _ _ hd] at hw ⊢
    simp only [Bool.and_eq_true, Bool.not_eq_true'] at hw
    simp [hw.2]

theorem inv_next (h : Inv g s) (hc : undisturbed g s i = true) :
    Inv (see g s i) (next r s i) where
  regular := by
    rcases link_next (r := r) h hc with ⟨hlink, -⟩ | ⟨hlink, -, -⟩
    · rw [hlink]
      exact TxLink.regular_next _ h.regular
    · rw [hlink]
      exact h.regular
  detected := detected_next h
  busy hb' := by
    rw [next_sendData]
    exact busy_next h hc hb'
  announced := announced_next h hc

theorem inv_reset (r : Rates) (s : State) : Inv ⟨false, false⟩ (reset r s) where
  regular := by
    rw [link_free rfl]
    exact ⟨fun _ => ⟨rfl, rfl, rfl⟩, fun _ hw => nomatch hw⟩
  detected hw := nomatch hw
  busy hb := nomatch hb
  announced ha := nomatch ha

/-! ## What the receiver makes of it -/

/-- The bytes of the symbol that is held and has not been framed. -/
def pending (s : State) : List Byte := TxLink.pending ESC (link s)

/-- **One cycle of the pair moves bytes** from the symbol accepted to the frames: what was held and
    what is accepted is what the transmitter takes and what is held then. -/
theorem pending_next (h : Inv g s) (hc : undisturbed g s i = true) :
    pending s ++ encode ESC (accepted s i)
      = UartTx.taken s.tx (txIn s i) ++ pending (next r s i) := by
  rcases link_next (r := r) h hc with ⟨hlink, hwire⟩ | ⟨hlink, htaken, hacc⟩
  · rw [pending, pending, hlink, hwire, accepted_eq (r := r)]
    exact TxLink.pending_next _ h.regular
  · rw [pending, pending, hlink, htaken, hacc]
    exact List.append_nil _

theorem pending_free (h : Inv g s) (hd : s.esc.sendData = false) : pending s = [] := by
  refine TxLink.pending_free h.regular (TxLink.stage_free.mpr ?_)
  rw [link_free hd]
  exact hd

/-- What is framed, and what is held, decodes to the symbols accepted; the receiver is behind an
    escape byte that belongs to no symbol exactly while a pause is announced. -/
structure Decodes (f : List Byte) (syms : List (Symbol Byte)) (g : Watch) (s : State) : Prop where
  symbols : clean (decode ESC false (f ++ pending s)) = syms
  behind : escaped ESC false (f ++ pending s) = g.announced
  whole : (pending s).length = 2 → escaped ESC false f = false

theorem accepted_of_not_keeps (hk : keeps s i = false) : accepted s i = [] := by
  unfold keeps at hk
  split_ifs at hk with hd
  · simp [accepted, TxEscape.takesCommand, TxEscape.takesData, hd]
  · rw [Bool.or_eq_false_iff] at hk
    rw [accepted, hk.1, hk.2]
    rfl

theorem clean_append (xs ys : List (Symbol Byte)) : clean (xs ++ ys) = clean xs ++ clean ys :=
  List.filter_append ..

variable {f : List Byte} {syms : List (Symbol Byte)}

/-- Where no frame of its own begins, an announced pause neither begins nor ends: both come with a
    frame, but for the silent ones, which announce nothing. -/
theorem announced_kept (h : Inv g s) (hinj : UartTx.injects s.tx (txIn s i) = false) :
    (see g s i).announced = g.announced := by
  have hsilent : (UartTx.pauses s.tx (txIn s i) || UartTx.resumes s.tx (txIn s i)) = true →
      s.tx.lastEsc = true := by
    intro hor
    rw [UartTx.injects, hor, Bool.true_and, Bool.not_eq_false'] at hinj
    exact hinj
  have hnone : s.tx.lastEsc = true → g.announced = false := by
    intro hl
    rw [← Bool.not_eq_true]
    intro ha
    rw [(h.announced ha).2.1] at hl
    cases hl
  rw [see]
  cases hp : UartTx.pauses s.tx (txIn s i)
  · cases hr : UartTx.resumes s.tx (txIn s i)
    · rfl
    · exact (hnone (hsilent (by rw [hr, Bool.or_true]))).symm
  · have hl := hsilent (by rw [hp]; rfl)
    simp [hl, hnone hl]

/-- Around an own frame no symbol is held: it reserves the line, so the symbol before it is through
    and the next one has not been accepted. -/
theorem pending_inject (h : Inv g s) (hc : undisturbed g s i = true)
    (hinj : UartTx.injects s.tx (txIn s i) = true) :
    accepted s i = [] ∧ pending s = [] ∧ pending (next r s i) = [] := by
  have hk := keeps_of_reserved hc (show reserved g s i = true by rw [reserved, hinj]; rfl)
  have hacc := accepted_of_not_keeps hk
  have hrest : pending (next r s i) = [] :=
    pending_free (inv_next h hc) (by rw [next_sendData, hk])
  refine ⟨hacc, ?_, hrest⟩
  have ht : UartTx.takes s.tx (txIn s i) = false := by
    rw [UartTx.injects, Bool.and_eq_true, Bool.or_eq_true] at hinj
    rcases hinj.1 with hp | hr
    · exact UartTx.takes_of_pauses hp
    · exact UartTx.takes_of_resumes hr
  have hlaw := pending_next (r := r) h hc
  rw [hrest, hacc, UartTx.taken, ht] at hlaw
  exact (List.append_nil _).symm.trans hlaw

/-- An own frame is the `ESC` of a pause, or the `RESUME` of one that has been announced.  A `RESUME`
    without an announcement is what the condition excludes. -/
theorem framed_inject (h : Inv g s) (hc : undisturbed g s i = true)
    (hinj : UartTx.injects s.tx (txIn s i) = true) :
    (g.announced = false ∧ framed s i = [ESC] ∧ (see g s i).announced = true) ∨
    (g.announced = true ∧ framed s i = [UartTx.RESUME] ∧ (see g s i).announced = false) := by
  rw [UartTx.injects, Bool.and_eq_true, Bool.or_eq_true, Bool.not_eq_true'] at hinj
  obtain ⟨hown, hl⟩ := hinj
  cases hp : UartTx.pauses s.tx (txIn s i)
  · right
    have hr : UartTx.resumes s.tx (txIn s i) = true := by
      rcases hown with hp' | hr
      · rw [hp] at hp'
        cases hp'
      · exact hr
    refine ⟨?_, ?_, ?_⟩
    · -- a pause that began silently is not ended with a frame
      rw [undisturbed, Bool.and_eq_true, hr, hl] at hc
      simpa using hc.2
    · rw [framed, UartTx.framed, hp, hr, hl]
      rfl
    · rw [see, hp, hr]
      rfl
  · left
    refine ⟨?_, ?_, ?_⟩
    · rw [← Bool.not_eq_true]
      intro ha
      have hpaus := (h.announced ha).1
      rw [UartTx.pausing_of_pauses hp] at hpaus
      cases hpaus
    · rw [framed, UartTx.framed, hp, hl]
      rfl
    · rw [see, hp, hl]
      rfl

/-- An own frame adds no symbol: `RESUME` comes right behind the `ESC` of its pause, and the two decode
    to the command that `clean` drops. -/
theorem decodes_inject (hs : Decodes f syms g s) (h : Inv g s) (hc : undisturbed g s i = true)
    (hinj : UartTx.injects s.tx (txIn s i) = true) :
    Decodes (f ++ framed s i) (syms ++ accepted s i) (see g s i) (next r s i) := by
  obtain ⟨hacc, hpend, hrest⟩ := pending_inject (r := r) h hc hinj
  obtain ⟨hsyms, hbehind, -⟩ := hs
  rw [hpend, List.append_nil] at hsyms hbehind
  have hown : clean (decode ESC g.announced (framed s i)) = [] ∧
      escaped ESC g.announced (framed s i) = (see g s i).announced := by
    rcases framed_inject h hc hinj with ⟨ha, hframe, ha'⟩ | ⟨ha, hframe, ha'⟩
    · rw [ha, hframe, ha']
      exact ⟨rfl, rfl⟩
    · rw [ha, hframe, ha']
      exact ⟨rfl, rfl⟩
  constructor
  · rw [hacc, hrest, List.append_nil, List.append_nil, decode_append, hbehind, clean_append, hsyms,
      hown.1, List.append_nil]
  · rw [hrest, List.append_nil, escaped_append, hbehind, hown.2]
  · rw [hrest]
    intro hlen
    cases hlen

theorem pending_length (s : State) : (pending s).length ≤ 2 := by
  unfold pending TxLink.pending TxLink.due
  split_ifs <;> simp

/-- Without an own frame what is framed is what the client has handed over. -/
theorem framed_client (hinj : UartTx.injects s.tx (txIn s i) = false) :
    framed s i = UartTx.taken s.tx (txIn s i) := by
  rw [UartTx.injects, Bool.and_or_distrib_right, Bool.or_eq_false_iff] at hinj
  rw [framed, UartTx.framed, hinj.1, hinj.2]
  rfl

/-- A symbol of which two bytes are to come begins where the receiver is not behind an escape byte.
    Otherwise the escape byte of a command would be taken for the second half of a data byte. -/
theorem whole_next (hs : Decodes f syms g s) (h : Inv g s) (hc : undisturbed g s i = true)
    (hlen : (pending (next r s i)).length = 2) :
    escaped ESC false (f ++ UartTx.taken s.tx (txIn s i)) = false := by
  obtain ⟨-, hbehind, hwhole⟩ := hs
  cases hk : keeps s i
  · have hnone := pending_free (inv_next (r := r) h hc) (by rw [next_sendData, hk])
    rw [hnone] at hlen
    cases hlen
  cases hd : s.esc.sendData
  · -- the symbol has just been loaded
    rw [pending_free h hd, List.append_nil, (undisturbed_keeps hc hk).2.2] at hbehind
    rw [UartTx.taken, takes_free h hd, if_neg Bool.false_ne_true, List.append_nil]
    exact hbehind
  · -- none of its bytes has been framed
    have hacc : accepted s i = [] := by
      simp [accepted, TxEscape.takesCommand, TxEscape.takesData, hd]
    have hlens := congrArg List.length (pending_next (r := r) h hc)
    rw [hacc, List.length_append, List.length_append, hlen] at hlens
    have hle := pending_length s
    have hnone : UartTx.taken s.tx (txIn s i) = [] :=
      List.eq_nil_of_length_eq_zero (by simp [encode] at hlens; omega)
    rw [hnone, List.append_nil]
    exact hwhole (by rw [hnone] at hlens; simpa [encode] using hlens)

/-- A frame of the client, or no frame.  The bytes only move, so the symbols they decode to are those
    accepted; and as none of these is `RESUME`, `clean` drops none of them. -/
theorem decodes_client (hs : Decodes f syms g s) (h : Inv g s) (hc : undisturbed g s i = true)
    (hcmd : ∀ sym ∈ accepted s i, sym ≠ .command ESC ∧ sym ≠ .command UartTx.RESUME)
    (hinj : UartTx.injects s.tx (txIn s i) = false) :
    Decodes (f ++ framed s i) (syms ++ accepted s i) (see g s i) (next r s i) := by
  rw [framed_client hinj]
  have hline : f ++ UartTx.taken s.tx (txIn s i) ++ pending (next r s i)
      = f ++ pending s ++ encode ESC (accepted s i) := by
    rw [List.append_assoc, List.append_assoc, pending_next h hc]
  have hannounced : g.announced = true → accepted s i = [] := fun ha =>
    accepted_of_not_keeps (keeps_of_reserved hc (by rw [reserved, ha, Bool.or_true]))
  have hnew : clean (decode ESC g.announced (encode ESC (accepted s i))) = accepted s i ∧
      escaped ESC g.announced (encode ESC (accepted s i)) = g.announced := by
    cases ha : g.announced
    · rw [decode_encode ESC _ fun c hmem hesc => (hcmd _ hmem).1 (by rw [hesc]), escaped_encode]
      exact ⟨List.filter_eq_self.mpr fun sym hmem => by simpa using (hcmd sym hmem).2, rfl⟩
    · rw [hannounced ha]
      exact ⟨rfl, rfl⟩
  refine ⟨?_, ?_, whole_next hs h hc⟩
  · rw [hline, decode_append, clean_append, hs.symbols, hs.behind, hnew.1]
  · rw [hline, escaped_append, hs.behind, announced_kept h hinj, hnew.2]

theorem decodes_next (hs : Decodes f syms g s) (h : Inv g s) (hc : undisturbed g s i = true)
    (hcmd : ∀ sym ∈ accepted s i, sym ≠ .command ESC ∧ sym ≠ .command UartTx.RESUME) :
    Decodes (f ++ framed s i) (syms ++ accepted s i) (see g s i) (next r s i) := by
  cases hinj : UartTx.injects s.tx (txIn s i)
  · exact decodes_client hs h hc hcmd hinj
  · exact decodes_inject hs h hc hinj

theorem decodes_reset (r : Rates) (s : State) : Decodes [] [] ⟨false, false⟩ (reset r s) := by
  have hnone := pending_free (inv_reset r s) rfl
  refine ⟨?_, ?_, fun _ => rfl⟩
  · rw [hnone]
    rfl
  · rw [hnone]
    rfl

/-! ## Every run -/

theorem decode_one (m : Bool) (b : Byte) : (decode ESC m [b]).length ≤ 1 := by
  cases m
  · rw [decode]
    split_ifs <;> simp [decode]
  · simp [decode]

theorem decode_two (b : Byte) : (decode ESC false [ESC, b]).length ≤ 1 := by
  rw [decode, if_pos rfl]
  exact decode_one true b

/-- What is held of a symbol decodes to that symbol at most, also where its escape byte is through
    already and only the second byte is left. -/
theorem decode_pending (hs : Decodes f syms g s) :
    (clean (decode ESC (escaped ESC false f) (pending s))).length ≤ 1 := by
  refine le_trans (List.length_filter_le _ _) ?_
  have hwhole := hs.whole
  generalize escaped ESC false f = m at hwhole
  unfold pending TxLink.pending TxLink.due at hwhole ⊢
  split_ifs at hwhole ⊢
  · exact decode_one m _
  · exact Nat.zero_le _
  · exact Nat.zero_le _
  · rw [hwhole rfl]
    exact decode_two _
  · exact decode_one m _
  · exact Nat.zero_le _

/-- What an undisturbed run keeps: from bytes and symbols that agree to bytes and symbols that agree,
    cycle by cycle. -/
theorem decodes_run {is : List Input} {f : List Byte} {syms : List (Symbol Byte)} {g : Watch}
    {s : State} (hs : Decodes f syms g s) (h : Inv g s)
    (hcmd : Always (next r) (fun s i => ∀ sym ∈ accepted s i,
      sym ≠ .command ESC ∧ sym ≠ .command UartTx.RESUME) s is)
    (hc : Always (watched (next r) see) (fun p i => undisturbed p.1 p.2 i = true) (g, s) is) :
    ∃ g', Inv g' (run (next r) s is) ∧ Decodes (f ++ emitted (next r) framed s is)
      (syms ++ emitted (next r) accepted s is) g' (run (next r) s is) := by
  induction is generalizing f syms g s with
  | nil => exact ⟨g, h, by rw [emitted_nil, emitted_nil, List.append_nil, List.append_nil]; exact hs⟩
  | cons i is ih =>
    rw [emitted_cons, emitted_cons, ← List.append_assoc, ← List.append_assoc]
    exact ih (decodes_next hs h hc.1 hcmd.1) (inv_next h hc.1) hcmd.2 hc.2

/-- **Flow control does not corrupt an undisturbed stream.**  In a run whose cycles are all
    undisturbed, with data bytes of any value and commands other than `ESC` and `RESUME`: whatever
    `SEND_PAUSE_I` does, after every cycle the bytes framed decode to the symbols accepted, but for
    the one `TX_Escape` may hold, with a `RESUME` for every pause that has ended. -/
theorem decoded_of_undisturbed (r : Rates) (s : State) (is : List Input)
    (hcmd : Always (next r) (fun s i => ∀ sym ∈ accepted s i,
      sym ≠ .command ESC ∧ sym ≠ .command UartTx.RESUME) (reset r s) is)
    (hc : Always (watched (next r) see) (fun p i => undisturbed p.1 p.2 i = true)
      (⟨false, false⟩, reset r s) is) :
    ∀ pre, pre <+: is → Decoded r s pre := by
  rintro pre ⟨post, rfl⟩
  rw [always_append] at hcmd hc
  obtain ⟨g, h, hs⟩ := decodes_run (decodes_reset r s) (inv_reset r s) hcmd.1 hc.1
  rw [List.nil_append, List.nil_append] at hs
  refine ⟨_, decode_pending hs, fun hd => ?_, ?_⟩
  · rw [pending_free h hd]
    rfl
  · rw [← clean_append, ← decode_append]
    exact hs.symbols.symm

/-! ## What the condition leaves out -/

/-- 50 MHz and 3 Mbaud, as in `UART_DTM_TOP`. -/
def topRates : Rates := ⟨50000000, 3000000⟩

/-- `n` cycles without a symbol. -/
def waits (n : Nat) (pause : Bool) : List Input := List.replicate n { sendPauseI := pause }

/-- The pause begins in the cycle in which the byte is on offer. -/
def droppedByte : List Input := { dataSendI := 0x41, writeI := true } :: waits 1 false ++ waits 170 true

/-- The byte is sent while the pause goes on. -/
def misreadByte : List Input :=
  waits 170 true ++ { dataSendI := 0x41, writeI := true, sendPauseI := true } :: waits 170 true

/-- The pause begins between the two bytes of a command and ends behind them. -/
def bareResume : List Input :=
  { commandI := 0x21, writeCommandI := true } :: waits 160 false ++ waits 170 true ++ waits 170 false

/-- A byte that `TX_Escape` takes for sent, a byte that is read as a command, and a `RESUME` that is
    read as a data byte. -/
theorem pause_corrupts :
    ¬ Decoded topRates default droppedByte ∧ ¬ Decoded topRates default misreadByte ∧
      ¬ Decoded topRates default bareResume := by
  have hfree : ∀ {is : List Input},
      (run (next topRates) (reset topRates default) is).esc.sendData = false →
      emitted (next topRates) accepted (reset topRates default) is
        ≠ clean (decode ESC false (emitted (next topRates) framed (reset topRates default) is)) →
      ¬ Decoded topRates default is := by
    rintro is hd hne ⟨held, -, hnone, heq⟩
    rw [hnone hd, List.append_nil] at heq
    exact hne heq
  refine ⟨hfree ?_ ?_, hfree ?_ ?_, hfree ?_ ?_⟩ <;> decide +kernel

/-- A command, a pause while nothing is held, and another command. -/
def politePause : List Input :=
  { commandI := 0x21, writeCommandI := true } :: waits 340 false ++ waits 170 true ++ waits 170 false
    ++ [{ dataSendI := 0xA0, writeI := true }] ++ waits 340 false

theorem decoded_of_undisturbed_polite : Decoded topRates default politePause :=
  decoded_of_undisturbed topRates default politePause (by decide +kernel) (by decide +kernel) _
    List.prefix_rfl

end RiscDbgUart.FlowControl
