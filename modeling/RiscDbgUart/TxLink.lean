/-
  `TX_Escape` and the transmitter behind it.

  The transmitter is ready after a reset, takes a byte in a cycle in which it is ready and `WRITE_O`
  is high, and is then not ready for one cycle or more; how many is up to the input.  Together the two
  are a buffer of one symbol: what has been put on the wire and what is still to come are the bytes of
  the symbols taken, in order.  A symbol's byte goes through four stages: `TX_Escape` has loaded it,
  offers it, the transmitter has taken it and is busy, and the transmitter is ready again, which
  `TX_Escape` notices by the edge of ready.

  `stage_next` moves the stage on, `regular_next` keeps what the stages rely on, and `pending_next` is the
  account of the bytes.  `steps_next` counts the stages down: a willing transmitter gets the symbol through
  in a bounded number of its own cycles.
-/
import RiscDbgUart.Clocked.Stuffing
import RiscDbgUart.TxEscape

set_option linter.unusedVariables false

namespace RiscDbgUart.TxLink

open Stuffing

structure State where
  tx : TxEscape.State
  ready : Bool
deriving DecidableEq, Repr, Inhabited

/-- The symbol the TAP offers, and whether a busy transmitter gets ready at the end of the cycle. -/
structure Input where
  dataSendI : Byte := 0
  writeI : Bool := false
  writeCommandI : Bool := false
  commandI : Byte := 0
  wake : Bool := false

/-- What `TX_Escape` sees. -/
def txIn (s : State) (i : Input) : TxEscape.Input :=
  { txReadyI := s.ready
    dataSendI := i.dataSendI
    writeI := i.writeI
    writeCommandI := i.writeCommandI
    commandI := i.commandI }

def reset : State := { tx := TxEscape.reset, ready := true }

def next (esc : Byte) (s : State) (i : Input) : State :=
  { tx := TxEscape.next esc s.tx (txIn s i)
    ready := if s.ready then !s.tx.writeO else i.wake }

/-- The byte the transmitter takes in a cycle. -/
def wire (s : State) : List Byte := if s.ready && s.tx.writeO then [s.tx.dataSendO] else []

/-- The symbol `TX_Escape` takes in a cycle. -/
def taken (s : State) (i : Input) : List (Symbol Byte) :=
  if TxEscape.takesCommand s.tx (txIn s i) then [.command i.commandI]
  else if TxEscape.takesData s.tx (txIn s i) then [.data i.dataSendI]
  else []

/-! ## Stages -/

inductive Stage
  | free
  | loaded
  | offering
  | gone
  | returned
deriving DecidableEq, Repr

def stage (s : State) : Stage :=
  if !s.tx.sendData then .free
  else if !s.ready then .gone
  else if !s.tx.bufferedTxReady then .returned
  else if s.tx.writeO then .offering
  else .loaded

/-- The bytes of its symbol that `TX_Escape` does not know to be through. -/
def due (esc : Byte) (s : State) : List Byte :=
  if s.tx.sendEsc then [esc, s.tx.dataBuffer]
  else if s.tx.sendData then [s.tx.dataBuffer]
  else []

/-- The first of them is on the wire already: the transmitter is busy with it, or is ready again and
    `TX_Escape` is just about to notice. -/
def ahead (s : State) : Bool := s.tx.sendData && !(s.ready && s.tx.bufferedTxReady)

/-- The bytes still to go over the wire: those that are due, but for one that the transmitter has
    taken and `TX_Escape` has not yet noticed. -/
def pending (esc : Byte) (s : State) : List Byte :=
  if ahead s then (due esc s).tail else due esc s

/-- Without a symbol everything is at rest, and a byte on offer is the one that is due.  The two
    fields are what `stage_next` needs to know of the registers beyond the stage. -/
structure Regular (esc : Byte) (s : State) : Prop where
  rest : s.tx.sendData = false → s.ready = true ∧ s.tx.sendEsc = false ∧ s.tx.writeO = false
  offer : s.ready = true → s.tx.writeO = true → s.tx.bufferedTxReady = true ∧
    s.tx.dataSendO = if s.tx.sendEsc then esc else s.tx.dataBuffer

theorem regular_reset (esc : Byte) : Regular esc reset where
  rest _ := ⟨rfl, rfl, rfl⟩
  offer _ h := by cases h

variable {esc : Byte} {s : State}

/-- An escape byte is pending only together with its symbol. -/
theorem Regular.esc_data (h : Regular esc s) (he : s.tx.sendEsc = true) : s.tx.sendData = true := by
  cases hd : s.tx.sendData
  · rw [(h.rest hd).2.1] at he; cases he
  · rfl

/-- In the cycle in which `TX_Escape` notices that a byte is through, it offers none. -/
theorem Regular.edge (h : Regular esc s) (hr : s.ready = true)
    (hb : s.tx.bufferedTxReady = false) : s.tx.writeO = false := by
  cases hw : s.tx.writeO
  · rfl
  · rw [(h.offer hr hw).1] at hb; cases hb

/-! ## One cycle -/

theorem next_writeO (i : Input) : (next esc s i).tx.writeO
    = (s.ready && !TxEscape.txDone s.tx s.ready && (s.tx.sendEsc || s.tx.sendData)) := rfl

theorem next_dataSendO (i : Input) : (next esc s i).tx.dataSendO
    = if s.tx.sendEsc then esc else s.tx.dataBuffer := rfl

theorem next_buffered (i : Input) : (next esc s i).tx.bufferedTxReady = s.ready := by
  simp only [next, TxEscape.next, apply_ite TxEscape.State.bufferedTxReady, ite_self]
  rfl

/-- Over a symbol nothing is taken, and it stays until its last byte is through.  The rising edge of
    the ready is what tells: it ends the escape byte first and then the symbol. -/
theorem next_holding (i : Input) (h : Regular esc s) (hd : s.tx.sendData = true) :
    taken s i = [] ∧ (next esc s i).tx.dataBuffer = s.tx.dataBuffer ∧
      (next esc s i).tx.sendData = !(TxEscape.txDone s.tx s.ready && !s.tx.sendEsc) ∧
      (next esc s i).tx.sendEsc = (s.tx.sendEsc && !TxEscape.txDone s.tx s.ready) := by
  have hc : TxEscape.takesCommand s.tx (txIn s i) = false := by simp [TxEscape.takesCommand, hd]
  have hb : TxEscape.takesData s.tx (txIn s i) = false := by simp [TxEscape.takesData, hd]
  refine ⟨by simp [taken, hc, hb], ?_, ?_, ?_⟩
  · show (TxEscape.next esc s.tx (txIn s i)).dataBuffer = _
    rw [TxEscape.next_dataBuffer, hc, hb]
    rfl
  · show (TxEscape.next esc s.tx (txIn s i)).sendData = _
    rw [TxEscape.next_sendData, if_pos hd]
    rfl
  · show (TxEscape.next esc s.tx (txIn s i)).sendEsc = _
    rw [TxEscape.next_sendEsc _ _ _ h.esc_data, if_pos hd]
    rfl

/-- A free `TX_Escape` takes what it is offered, and what is due then is what the symbol is stuffed
    to. -/
theorem next_free (i : Input) (h : Regular esc s) (hd : s.tx.sendData = false) :
    (next esc s i).ready = true ∧ (next esc s i).tx.writeO = false ∧
      (next esc s i).tx.sendData = !(taken s i).isEmpty ∧
      due esc (next esc s i) = encode esc (taken s i) := by
  obtain ⟨hready, he, hw⟩ := h.rest hd
  -- the three registers of `TX_Escape`, when it holds no byte
  have hdata : (next esc s i).tx.sendData
      = (TxEscape.takesCommand s.tx (txIn s i) || TxEscape.takesData s.tx (txIn s i)) := by
    show (TxEscape.next esc s.tx (txIn s i)).sendData = _
    rw [TxEscape.next_sendData, hd]
    rfl
  have hesc : (next esc s i).tx.sendEsc = (TxEscape.takesCommand s.tx (txIn s i) ||
      (TxEscape.takesData s.tx (txIn s i) && decide (i.dataSendI = esc))) := by
    show (TxEscape.next esc s.tx (txIn s i)).sendEsc = _
    rw [TxEscape.next_sendEsc _ _ _ h.esc_data, hd]
    rfl
  have hbuf : (next esc s i).tx.dataBuffer
      = if TxEscape.takesCommand s.tx (txIn s i) then i.commandI
        else if TxEscape.takesData s.tx (txIn s i) then i.dataSendI
        else s.tx.dataBuffer := by
    show (TxEscape.next esc s.tx (txIn s i)).dataBuffer = _
    rw [TxEscape.next_dataBuffer]
    rfl
  refine ⟨?_, ?_, ?_, ?_⟩
  · simp [next, hready, hw]
  · rw [next_writeO, he, hd, Bool.or_self, Bool.and_false]
  · rw [hdata, taken]
    split_ifs with hc hb
    · rw [hc]; rfl
    · rw [hb, Bool.or_true]; rfl
    · rw [Bool.eq_false_iff.mpr hc, Bool.eq_false_iff.mpr hb]; rfl
  · rw [due, hesc, hdata, hbuf, taken]
    -- a command goes first; a data byte equal to the escape symbol is stuffed
    cases hc : TxEscape.takesCommand s.tx (txIn s i)
    · cases hb : TxEscape.takesData s.tx (txIn s i)
      · rfl
      · by_cases hx : i.dataSendI = esc
        · simp [hx, encode, stuff]
        · simp [hx, encode, stuff]
    · rfl

theorem regular_next (i : Input) (h : Regular esc s) : Regular esc (next esc s i) where
  -- it is free in the next cycle: it took nothing, or the byte is done
  rest hnext := by
    cases hd : s.tx.sendData
    · obtain ⟨hr, hw, hdata, hdue⟩ := next_free i h hd
      refine ⟨hr, ?_, hw⟩
      rw [hnext, eq_comm, Bool.not_eq_false', List.isEmpty_iff] at hdata
      rw [hdata, due] at hdue
      cases he : (next esc s i).tx.sendEsc
      · rfl
      · rw [he] at hdue; cases hdue
    · obtain ⟨-, -, hdata, hesc⟩ := next_holding i h hd
      rw [hnext, eq_comm, Bool.not_eq_false', Bool.and_eq_true, Bool.not_eq_true'] at hdata
      obtain ⟨hdone, he⟩ := hdata
      have hedge : s.tx.bufferedTxReady = false ∧ s.ready = true := by
        simpa [TxEscape.txDone] using hdone
      refine ⟨?_, ?_, ?_⟩
      · simp [next, hedge.2, h.edge hedge.2 hedge.1]
      · rw [hesc, he, Bool.false_and]
      · rw [next_writeO, hdone, Bool.not_true, Bool.and_false, Bool.false_and]
  -- what is offered is the byte it holds
  offer hready hwrite := by
    rw [next_writeO, Bool.and_eq_true, Bool.and_eq_true, Bool.not_eq_true'] at hwrite
    obtain ⟨⟨hr, hdone⟩, hor⟩ := hwrite
    have hd : s.tx.sendData = true := by
      rcases Bool.or_eq_true_iff.mp hor with he | hd
      · exact h.esc_data he
      · exact hd
    obtain ⟨-, hbuf, -, hesc⟩ := next_holding i h hd
    rw [next_buffered, hr, next_dataSendO, hbuf, hesc, hdone, Bool.not_false, Bool.and_true]
    exact ⟨rfl, rfl⟩

/-- The stages follow one another: a byte is loaded, offered and gone; when the transmitter is ready
    again there is either the next byte of the symbol to load, or the symbol is through. -/
theorem stage_next (i : Input) (h : Regular esc s) : stage (next esc s i) =
    match stage s with
    | .free => if (taken s i).isEmpty then .free else .loaded
    | .loaded => .offering
    | .offering => .gone
    | .gone => if i.wake then .returned else .gone
    | .returned => if s.tx.sendEsc then .loaded else .free := by
  unfold stage
  rw [next_buffered]
  -- free: loaded when something is taken
  cases hd : s.tx.sendData
  · obtain ⟨hr, hw, hdata, -⟩ := next_free i h hd
    rw [hr, hw, hdata, (h.rest hd).1]
    cases (taken s i).isEmpty <;> rfl
  · obtain ⟨-, -, hdata, -⟩ := next_holding i h hd
    rw [hdata, next_writeO, hd, TxEscape.txDone]
    have hready : (next esc s i).ready = if s.ready then !s.tx.writeO else i.wake := rfl
    rw [hready]
    -- holding a byte: the stage follows the two registers of ready
    cases hr : s.ready
    · cases i.wake <;> simp
    · cases hb : s.tx.bufferedTxReady
      · rw [h.edge hr hb]
        cases s.tx.sendEsc <;> rfl
      · cases s.tx.writeO <;> simp

/-- **One symbol at a time.**  A cycle moves bytes from the symbol that is taken to the wire without
    losing or inventing one. -/
theorem pending_next (i : Input) (h : Regular esc s) :
    pending esc s ++ encode esc (taken s i) = wire s ++ pending esc (next esc s i) := by
  unfold pending ahead
  rw [next_buffered]
  cases hd : s.tx.sendData
  · obtain ⟨hr, -, -, hdue⟩ := next_free i h hd
    obtain ⟨hready, he, hw⟩ := h.rest hd
    have hnone : due esc s = [] := by simp [due, he, hd]
    simp [hr, hready, hdue, hnone, wire, hw]
  · obtain ⟨htaken, hbuf, hdata, hesc⟩ := next_holding i h hd
    have hready : (next esc s i).ready = if s.ready then !s.tx.writeO else i.wake := rfl
    have hnext : due esc (next esc s i)
        = if TxEscape.txDone s.tx s.ready then (due esc s).tail else due esc s := by
      unfold due
      rw [hbuf, hdata, hesc, hd]
      cases TxEscape.txDone s.tx s.ready <;> cases s.tx.sendEsc <;> rfl
    rw [htaken, hnext, hdata, hready, TxEscape.txDone, wire]
    cases hr : s.ready
    · simp [encode]
    · cases hb : s.tx.bufferedTxReady
      · simp [encode, h.edge hr hb]
      · cases hw : s.tx.writeO
        · simp [encode]
        · -- the byte on offer is the first one due
          have hhead : due esc s = s.tx.dataSendO :: (due esc s).tail := by
            rw [(h.offer hr hw).2, due, hd]
            cases s.tx.sendEsc <;> rfl
          rw [hhead]
          simp [encode]

/-! ## Progress -/

/-- The steps until the symbol is through, if the transmitter does not keep it waiting: four for each byte
    of it, and the escape byte comes first. -/
def steps (s : State) : Nat :=
  match stage s with
  | .free => 0
  | .loaded => if s.tx.sendEsc then 8 else 4
  | .offering => if s.tx.sendEsc then 7 else 3
  | .gone => if s.tx.sendEsc then 6 else 2
  | .returned => if s.tx.sendEsc then 5 else 1

theorem stage_free : stage s = .free ↔ s.tx.sendData = false := by
  unfold stage
  cases s.tx.sendData <;> cases s.ready <;> cases s.tx.bufferedTxReady <;> cases s.tx.writeO <;> simp

theorem steps_le : steps s ≤ 8 := by
  unfold steps
  cases stage s <;> simp <;> split <;> omega

theorem steps_zero : steps s = 0 ↔ stage s = .free := by
  unfold steps
  cases stage s <;> simp <;> split <;> omega

theorem pending_free (h : Regular esc s) (hs : stage s = .free) : pending esc s = [] := by
  have hd := stage_free.mp hs
  simp [pending, ahead, due, hd, (h.rest hd).2.1]

/-- A symbol on its way comes nearer in every cycle, unless the transmitter stays busy.  It can stay busy in
    one stage only, that in which it has the byte. -/
theorem steps_next (i : Input) (h : Regular esc s) (hs : stage s ≠ .free) :
    steps (next esc s i) + (if stage s = .gone ∧ i.wake = false then 0 else 1) = steps s := by
  have hd : s.tx.sendData = true := by
    rw [Ne, stage_free, Bool.not_eq_false] at hs
    exact hs
  obtain ⟨-, -, -, hesc⟩ := next_holding i h hd
  have hdone : TxEscape.txDone s.tx s.ready = (stage s == .returned) := by
    unfold stage TxEscape.txDone
    rw [hd]
    cases s.ready <;> cases s.tx.bufferedTxReady <;> cases s.tx.writeO <;> rfl
  unfold steps
  rw [stage_next i h, hesc, hdone]
  cases hst : stage s
  · exact absurd hst hs
  · cases s.tx.sendEsc <;> rfl
  · cases s.tx.sendEsc <;> rfl
  · cases i.wake <;> cases s.tx.sendEsc <;> rfl
  · cases s.tx.sendEsc <;> rfl

end RiscDbgUart.TxLink
