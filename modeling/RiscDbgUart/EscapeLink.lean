/-
  `TX_Escape`, a transmitter, a channel and `RX_Escape`: the whole way of a symbol.

  The transmitted bytes wait in the channel until the receiving side shows them to `RX_Escape`; when it
  does, and when a symbol is read, is up to the input.  The two ends never see each other's state, so the
  argument goes over the bytes: what has been put on the wire is the stuffing of the accepted symbols
  but for the rest of the last one, what `RX_Escape` has consumed is decoded byte by byte, and decoding
  undoes stuffing.

  The account has a part for each of the four places a symbol can be in:

  * `transmitted_decoded` — what has been transmitted decodes to the accepted symbols but for at most
    one, which is still in `TX_Escape`, and to all of them when that is free;
  * `channel_law`         — a byte enters the channel when it is transmitted and leaves it when it is
    consumed, so the channel is the difference of the two lists;
  * `consumed_decoded`    — what has been consumed decodes to the symbols read and the one that is
    shown, and leaves the receiver behind an escape byte or not;
  * `consumes_of_free`    — `RX_Escape` does not hold up the channel while it shows nothing.

  `framing_lossless` adds them up.  The only thing asked of the user is that no command symbol is the
  escape byte itself, which stuffed would be a data byte.
-/
import RiscDbgUart.Clocked.Machine
import RiscDbgUart.RxEscape
import RiscDbgUart.TxLink

set_option linter.unusedVariables false

namespace RiscDbgUart.EscapeLink

open Clocked Stuffing

structure State where
  link : TxLink.State
  channel : List Byte
  rx : RxEscape.State
deriving DecidableEq, Repr

/-- The transmitting side's inputs; whether the receiving side has its next byte to show; and the
    TAP's read. -/
structure Input where
  linkI : TxLink.Input := {}
  shows : Bool := false
  readI : Bool := false

/-- The bytes that can be shown in this cycle. -/
def available (s : State) : List Byte := s.channel ++ TxLink.wire s.link

/-- What `RX_Escape` sees. -/
def rxIn (s : State) (i : Input) : RxEscape.Input :=
  { dataRecI := (available s).headD 0
    rxEmptyI := !i.shows || (available s).isEmpty
    readI := i.readI }

def reset : State := { link := TxLink.reset, channel := [], rx := RxEscape.reset }

/-- `RX_Escape` takes a byte. -/
def consumes (s : State) (i : Input) : Bool := RxEscape.readO s.rx (rxIn s i).rxEmptyI

def next (esc : Byte) (s : State) (i : Input) : State :=
  { link := TxLink.next esc s.link i.linkI
    channel := if consumes s i then (available s).tail else available s
    rx := RxEscape.next esc s.rx (rxIn s i) }

/-- The symbol `TX_Escape` accepts in the cycle. -/
def accepted (s : State) (i : Input) : List (Symbol Byte) := TxLink.taken s.link i.linkI

/-- The byte the transmitter takes. -/
def transmitted (s : State) (_ : Input) : List Byte := TxLink.wire s.link

/-- The byte `RX_Escape` takes. -/
def consumed (s : State) (i : Input) : List Byte :=
  if consumes s i then (available s).take 1 else []

/-- The symbol `RX_Escape` shows. -/
def shown (rx : RxEscape.State) : List (Symbol Byte) :=
  if RxEscape.rxEmptyO rx then []
  else if RxEscape.commandO rx then [.command rx.data]
  else [.data rx.data]

/-- The symbol that is read in the cycle. -/
def delivered (s : State) (i : Input) : List (Symbol Byte) := if i.readI then shown s.rx else []

/-- `RX_Escape` is behind an escape byte. -/
def behindEsc (rx : RxEscape.State) : Bool := decide (rx.state = .escape)

variable {esc : Byte}

/-! ## The receiving side decodes -/

/-- A byte is consumed only if there is one, and it is the oldest: `RX_Escape` reads what the FIFO shows
    and asks for the next byte. -/
theorem consumed_cons {s : State} {i : Input} (h : consumes s i = true) :
    (rxIn s i).rxEmptyI = false ∧ available s = (rxIn s i).dataRecI :: (available s).tail := by
  unfold consumes RxEscape.readO at h
  rw [Bool.and_eq_true, Bool.not_eq_true'] at h
  refine ⟨h.2, ?_⟩
  have hne := h.2
  unfold rxIn at hne ⊢
  cases ha : available s with
  | nil =>
    rw [ha] at hne
    simp at hne
  | cons b bs => rfl

/-- One cycle of `RX_Escape`: what it shows and what it decodes from the byte it consumes is what is read
    and what it shows then, and it remembers an escape byte. -/
theorem rx_next (s : State) (i : Input) :
    shown s.rx ++ decode esc (behindEsc s.rx) (consumed s i)
        = delivered s i ++ shown (next esc s i).rx ∧
      behindEsc (next esc s i).rx = escaped esc (behindEsc s.rx) (consumed s i) := by
  have hrx : (next esc s i).rx = RxEscape.next esc s.rx (rxIn s i) := rfl
  rw [hrx]
  unfold consumed delivered
  cases hc : consumes s i
  · -- no byte: a symbol that is shown is read or stays
    rw [if_neg Bool.false_ne_true]
    unfold consumes RxEscape.readO at hc
    cases hst : s.rx.state
    · have hempty : (rxIn s i).rxEmptyI = true := by simpa [hst] using hc
      simp [RxEscape.next, hst, hempty, shown, RxEscape.rxEmptyO, decode, escaped, behindEsc]
    · have hr : (rxIn s i).readI = i.readI := rfl
      cases hread : i.readI <;>
        simp [RxEscape.next, hst, hr, hread, shown, RxEscape.rxEmptyO, RxEscape.commandO, decode,
          escaped, behindEsc]
    · have hempty : (rxIn s i).rxEmptyI = true := by simpa [hst] using hc
      simp [RxEscape.next, hst, hempty, shown, RxEscape.rxEmptyO, decode, escaped, behindEsc]
    · have hr : (rxIn s i).readI = i.readI := rfl
      cases hread : i.readI <;>
        simp [RxEscape.next, hst, hr, hread, shown, RxEscape.rxEmptyO, RxEscape.commandO, decode,
          escaped, behindEsc]
  · obtain ⟨hempty, hcons⟩ := consumed_cons hc
    rw [if_pos rfl, hcons]
    unfold consumes RxEscape.readO at hc
    cases hst : s.rx.state
    · by_cases hb : (rxIn s i).dataRecI = esc <;>
        simp [RxEscape.next, hst, hempty, hb, shown, RxEscape.rxEmptyO, RxEscape.commandO, decode,
          escaped, behindEsc]
    · rw [hst] at hc
      cases hc
    · by_cases hb : (rxIn s i).dataRecI = esc <;>
        simp [RxEscape.next, hst, hempty, hb, shown, RxEscape.rxEmptyO, RxEscape.commandO, decode,
          escaped, behindEsc]
    · rw [hst] at hc
      cases hc

/-- **The receiving side decodes.**  The symbols read, and the one that is shown, are decoded from the
    bytes consumed, whenever they come and whenever the symbols are read. -/
theorem consumed_decoded (is : List Input) (s : State) :
    shown s.rx ++ decode esc (behindEsc s.rx) (emitted (next esc) consumed s is)
        = emitted (next esc) delivered s is ++ shown (run (next esc) s is).rx ∧
      behindEsc (run (next esc) s is).rx
        = escaped esc (behindEsc s.rx) (emitted (next esc) consumed s is) := by
  induction is generalizing s with
  | nil => simp [decode, escaped]
  | cons i is ih =>
    obtain ⟨hsyms, hesc⟩ := @rx_next esc s i
    obtain ⟨hrest, hlast⟩ := ih (next esc s i)
    rw [emitted_cons, emitted_cons, run_cons]
    constructor
    · rw [decode_append, ← List.append_assoc, hsyms, ← hesc, List.append_assoc, hrest,
        List.append_assoc]
    · rw [hlast, hesc, escaped_append]

/-! ## The transmitting side encodes -/

/-- The bytes the transmitter has yet to take are the end of the symbol accepted last.  With the
    regularity of the link this is what the transmitting side keeps. -/
def Ends (esc : Byte) (syms : List (Symbol Byte)) (s : State) : Prop :=
  TxLink.Regular esc s.link ∧
    (TxLink.pending esc s.link = [] ∨
      ∃ before sym part, syms = before ++ [sym] ∧
        stuff esc sym = part ++ TxLink.pending esc s.link)

/-- The cases are those of the link: a new symbol is accepted when nothing is pending, so all of its
    bytes are to come; and a byte that is taken is the first of those pending. -/
theorem ends_next (syms : List (Symbol Byte)) (s : State) (i : Input) (h : Ends esc syms s) :
    Ends esc (syms ++ accepted s i) (next esc s i) := by
  obtain ⟨hreg, hends⟩ := h
  have hlink : (next esc s i).link = TxLink.next esc s.link i.linkI := rfl
  have hlaw := TxLink.pending_next i.linkI hreg
  unfold Ends accepted
  rw [hlink]
  refine ⟨TxLink.regular_next i.linkI hreg, ?_⟩
  cases hd : s.link.tx.sendData
  · -- free: a symbol that is accepted is pending as a whole
    have hfree := TxLink.stage_free.mpr hd
    obtain ⟨hready, -, hw⟩ := hreg.rest hd
    have hwire : TxLink.wire s.link = [] := by
      unfold TxLink.wire
      rw [hw, Bool.and_false]
      rfl
    rw [TxLink.pending_free hreg hfree, hwire, List.nil_append, List.nil_append] at hlaw
    rw [← hlaw]
    have hone : TxLink.taken s.link i.linkI = [] ∨ ∃ sym, TxLink.taken s.link i.linkI = [sym] := by
      unfold TxLink.taken
      split_ifs
      · exact Or.inr ⟨_, rfl⟩
      · exact Or.inr ⟨_, rfl⟩
      · exact Or.inl rfl
    rcases hone with hnone | ⟨sym, hsym⟩
    · left
      rw [hnone]
      rfl
    · right
      rw [hsym]
      exact ⟨syms, sym, [], rfl, by simp [encode]⟩
  · -- over a symbol: its pending bytes get fewer
    obtain ⟨htaken, -⟩ := TxLink.next_holding i.linkI hreg hd
    rw [htaken] at hlaw ⊢
    rw [show encode esc ([] : List (Symbol Byte)) = [] from rfl, List.append_nil] at hlaw
    rw [List.append_nil]
    rcases hends with hnil | ⟨before, sym, part, hsyms, hstuff⟩
    · left
      rw [hnil] at hlaw
      exact (List.append_eq_nil_iff.mp hlaw.symm).2
    · right
      refine ⟨before, sym, part ++ TxLink.wire s.link, hsyms, ?_⟩
      rw [hstuff, hlaw, List.append_assoc]

theorem ends_reset : Ends esc [] reset := ⟨TxLink.regular_reset esc, Or.inl rfl⟩

/-- The bytes transmitted are those of the accepted symbols but for the ones pending.  It is the
    account of `TxLink` over a run. -/
theorem transmitted_encoded (is : List Input) :
    encode esc (emitted (next esc) accepted reset is)
      = emitted (next esc) transmitted reset is
          ++ TxLink.pending esc (run (next esc) reset is).link := by
  have hconserved := emitted_conserved (fun s => TxLink.Regular esc s.link)
    (fun s i => encode esc (accepted s i)) transmitted (fun s => TxLink.pending esc s.link)
    (fun s i hs _ =>
      show TxLink.Regular esc (next esc s i).link from TxLink.regular_next i.linkI hs)
    (fun s i hs _ => TxLink.pending_next i.linkI hs)
    is reset (TxLink.regular_reset esc) (always_true _ _ is)
  rw [show TxLink.pending esc reset.link = [] from rfl, List.nil_append] at hconserved
  rw [← hconserved]
  unfold encode
  rw [emitted_flatMap]

/-- What is in `TX_Escape`: the transmitted bytes decode to the accepted symbols but for at most one,
    and to all of them when it is free. -/
theorem transmitted_decoded (is : List Input)
    (hcmd : ∀ c, Symbol.command c ∈ emitted (next esc) accepted reset is → c ≠ esc) :
    ∃ held : List (Symbol Byte), held.length ≤ 1 ∧
      ((run (next esc) reset is).link.tx.sendData = false → held = []) ∧
      emitted (next esc) accepted reset is
        = decode esc false (emitted (next esc) transmitted reset is) ++ held := by
  have hends := history_of_step (Ends esc) _ (fun h s i hs _ => ends_next h s i hs) is [] reset
    ends_reset (always_true _ _ is)
  rw [List.nil_append] at hends
  have henc := @transmitted_encoded esc is
  by_cases hnil : TxLink.pending esc (run (next esc) reset is).link = []
  · refine ⟨[], Nat.zero_le _, fun _ => rfl, ?_⟩
    rw [hnil, List.append_nil] at henc
    rw [List.append_nil, ← henc, decode_encode esc _ hcmd]
  · obtain ⟨hreg, hends⟩ := hends
    rcases hends with hbad | ⟨before, sym, part, hsyms, hstuff⟩
    · exact absurd hbad hnil
    · refine ⟨[sym], Nat.le_refl _, ?_, ?_⟩
      · intro hfree
        exact absurd (TxLink.pending_free hreg (TxLink.stage_free.mpr hfree)) hnil
      · -- the part of the last symbol that is on the wire decodes to nothing
        have hwire : emitted (next esc) transmitted reset is = encode esc before ++ part := by
          rw [hsyms] at henc
          unfold encode at henc ⊢
          rw [List.flatMap_append, List.flatMap_singleton, hstuff, ← List.append_assoc] at henc
          exact (List.append_cancel_right henc).symm
        have hbefore : ∀ c, Symbol.command c ∈ before → c ≠ esc := by
          intro c hc
          exact hcmd c (by rw [hsyms]; exact List.mem_append_left _ hc)
        rw [hsyms, hwire, decode_append, decode_encode esc before hbefore, escaped_encode,
          decode_part esc hstuff hnil, List.append_nil]

/-! ## Both together -/

/-- Bytes enter the channel when they are transmitted and leave it when they are consumed.  In between
    they keep their order, and none is lost. -/
theorem channel_law (s : State) (i : Input) :
    s.channel ++ transmitted s i = consumed s i ++ (next esc s i).channel := by
  have hav : available s = s.channel ++ transmitted s i := rfl
  have hchan : (next esc s i).channel
      = if consumes s i then (available s).tail else available s := rfl
  rw [← hav, hchan]
  unfold consumed
  cases hc : consumes s i
  · rfl
  · obtain ⟨-, hcons⟩ := consumed_cons hc
    rw [if_pos rfl, if_pos rfl, hcons]
    rfl

/-- With nothing to show, `RX_Escape` takes the byte it is shown at once.  So a receiver that reads
    what is shown to it never holds the channel up. -/
theorem consumes_of_free {s : State} {i : Input} (hshows : i.shows = true) (havail : available s ≠ [])
    (hfree : shown s.rx = []) : consumes s i = true := by
  have hempty : (rxIn s i).rxEmptyI = false := by
    unfold rxIn
    rw [hshows, Bool.not_true, Bool.false_or]
    exact List.isEmpty_eq_false_iff.mpr havail
  unfold consumes RxEscape.readO
  rw [hempty]
  unfold shown at hfree
  cases hst : s.rx.state with
  | idle => rfl
  | escape => rfl
  | data => simp [RxEscape.rxEmptyO, RxEscape.commandO, hst] at hfree
  | command => simp [RxEscape.rxEmptyO, RxEscape.commandO, hst] at hfree

/-- **Escape framing is lossless.**  Whatever symbols are accepted and whenever, however long the
    transmitter takes over each byte, however long the bytes wait in the channel and whenever the TAP
    reads: the symbols read, followed by the one `RX_Escape` shows, the ones the bytes in the channel
    stand for and at most one that is still in `TX_Escape`, are the accepted symbols.  And `RX_Escape`
    is never in the way: a byte it is shown while it shows no symbol is consumed in that cycle. -/
theorem framing_lossless (esc : Byte) (is : List Input)
    (hcmd : Always (next esc) (fun s i => ∀ sym ∈ accepted s i, sym ≠ Symbol.command esc) reset is) :
    (∃ held : List (Symbol Byte), held.length ≤ 1 ∧
      ((run (next esc) reset is).link.tx.sendData = false → held = []) ∧
      emitted (next esc) accepted reset is
        = emitted (next esc) delivered reset is ++ shown (run (next esc) reset is).rx
            ++ decode esc (behindEsc (run (next esc) reset is).rx)
                (run (next esc) reset is).channel ++ held) ∧
    Always (next esc)
      (fun s i => i.shows = true → available s ≠ [] → shown s.rx = [] → consumes s i = true)
      reset is := by
  have hne : ∀ c, Symbol.command c ∈ emitted (next esc) accepted reset is → c ≠ esc := by
    intro c hc hesc
    rw [hesc] at hc
    exact forall_emitted (next esc) accepted (fun sym => sym ≠ Symbol.command esc) reset is hcmd
      _ hc rfl
  obtain ⟨held, hlen, hfree, hacc⟩ := transmitted_decoded is hne
  refine ⟨⟨held, hlen, hfree, ?_⟩,
    always_imp (fun _ _ _ => consumes_of_free) is reset (always_true _ _ is)⟩
  -- what is transmitted has been consumed or is in the channel
  have hchan := emitted_conserved (fun _ => True) transmitted consumed (fun s => s.channel)
    (fun _ _ _ _ => trivial) (fun s i _ _ => @channel_law esc s i) is reset trivial
    (always_true _ _ is)
  obtain ⟨hdec, hesc⟩ := @consumed_decoded esc is reset
  have hshown : shown reset.rx = [] := rfl
  have hbehind : behindEsc reset.rx = false := rfl
  have hempty : reset.channel = [] := rfl
  rw [hshown, hbehind, List.nil_append] at hdec
  rw [hbehind] at hesc
  rw [hempty, List.nil_append] at hchan
  rw [hacc, hchan, decode_append, hdec, hesc]

/-- A symbol of two bytes goes out: `TX_Escape` accepts it, and the transmitter is busy with either byte for
    two cycles. -/
def sends (symbol : TxLink.Input) : List Input :=
  [{ linkI := symbol }, {}, {}, {}, { linkI := { wake := true } },
    {}, {}, {}, { linkI := { wake := true } }, {}]

/-- Two bytes are shown one after the other, and the symbol they are is read. -/
def takes : List Input := [{ shows := true }, { shows := true }, { shows := true, readI := true }]

/-- A data byte equal to the escape byte, and a command. -/
def twoSymbols : List Input :=
  sends { dataSendI := ESC, writeI := true } ++ sends { commandI := 0x05, writeCommandI := true } ++
    takes ++ takes

/-- Both symbols are accepted, go through the channel as four bytes, are shown and are read. -/
theorem framing_lossless_run :
    emitted (next ESC) transmitted reset twoSymbols = [ESC, ESC, ESC, 0x05] ∧
    emitted (next ESC) consumed reset twoSymbols = [ESC, ESC, ESC, 0x05] ∧
    emitted (next ESC) delivered reset twoSymbols = [.data ESC, .command 0x05] ∧
    (∃ held : List (Symbol Byte), held.length ≤ 1 ∧
      ((run (next ESC) reset twoSymbols).link.tx.sendData = false → held = []) ∧
      emitted (next ESC) accepted reset twoSymbols
        = emitted (next ESC) delivered reset twoSymbols
            ++ shown (run (next ESC) reset twoSymbols).rx
            ++ decode ESC (behindEsc (run (next ESC) reset twoSymbols).rx)
                (run (next ESC) reset twoSymbols).channel ++ held) ∧
    Always (next ESC)
      (fun s i => i.shows = true → available s ≠ [] → shown s.rx = [] → consumes s i = true)
      reset twoSymbols :=
  ⟨by decide, by decide, by decide, framing_lossless ESC twoSymbols (by decide)⟩

end RiscDbgUart.EscapeLink
