/-
  Whether the words the STB sources hand over are the words the serializer sends.

  A source hands a word over in a cycle in which its ready and its valid are both high.  The read
  arbiter keeps ready up for several cycles: it lowers it one cycle after `ser_busy` has come up,
  and the word that is sent is the one on the pins in the last of these cycles.  A source that is
  valid in two of them hands over two words of which at most one is sent, one that is valid in none
  of them has a word sent that it never handed over, and at `ADDR_STB1_D` the ready goes to STB0.

  A `Ledger` keeps the word that has been handed over and is not through.  `Orderly` is the
  condition on a cycle under which the ledger never has to hold two words and every transfer sends
  the one it holds.

  What orderly cycles keep is `Tidy`: where the counter of the serializer is, and that the byte on offer
  and the word on the pins are those of the ledger.  Under it the bytes of every source are conserved
  (`due_next`): what is still due before a cycle and what is handed over in it is what is sent in it and
  what is due afterwards.
-/
import RiscDbgUart.ReadAnswers
import RiscDbgUart.ReadSide

set_option linter.unusedVariables false

namespace RiscDbgUart.ReadSide

open Clocked DmiUartTap

/-! ## The sources -/

inductive Source
  | stb0Status
  | stb0Data
  | stb1Status
  | stb1Data
deriving DecidableEq, Repr

def Source.address : Source → Addr
  | .stb0Status => ADDR_STB0_CS
  | .stb0Data => ADDR_STB0_D
  | .stb1Status => ADDR_STB1_CS
  | .stb1Data => ADDR_STB1_D

/-- `READY_O` of the source. -/
def Source.readyO (x : Source) (s : State) : Bool :=
  match x with
  | .stb0Status => (ready s).stb0StatusReadyO
  | .stb0Data => (ready s).stb0DataReadyO
  | .stb1Status => (ready s).stb1StatusReadyO
  | .stb1Data => (ready s).stb1DataReadyO

/-- `VALID_I` of the source. -/
def Source.validI (x : Source) (d : ReadInterconnect.Devices) : Bool :=
  match x with
  | .stb0Status => d.stb0StatusValidI
  | .stb0Data => d.stb0DataValidI
  | .stb1Status => d.stb1StatusValidI
  | .stb1Data => d.stb1DataValidI

/-- The word on the pins of the source, with zeros above its own width. -/
def Source.word (x : Source) (d : ReadInterconnect.Devices) : BitVec WIDTH :=
  match x with
  | .stb0Status => d.stb0StatusI.setWidth WIDTH
  | .stb0Data => d.stb0DataI.setWidth WIDTH
  | .stb1Status => d.stb1StatusI.setWidth WIDTH
  | .stb1Data => d.stb1DataI.setWidth WIDTH

/-- The bytes of the word a source hands over in a cycle. -/
def handed (x : Source) (s : State) (i : Input) : List Byte :=
  if x.readyO s && x.validI i.devI then wordBytes x.address (x.word i.devI) 0 else []

/-- The byte the serializer hands over in a cycle, if it is for the address of the source. -/
def sent (x : Source) (s : State) (i : Input) : List Byte :=
  if s.tap.rd.currentReadAddress = x.address then DmiUartTap.handsOver s.tap (tapIn s i) else []

/-- **What was handed over is what has been sent,** up to the word in progress.  Both sides are counted in
    bytes, in the order in which they leave. -/
def Delivered (x : Source) (s : State) (is : List Input) : Prop :=
  emitted next (sent x) s is <+: emitted next (handed x) s is ∧
    (emitted next (handed x) s is).length
      ≤ (emitted next (sent x) s is).length + byteLength x.address

instance (x : Source) (s : State) (is : List Input) : Decidable (Delivered x s is) :=
  inferInstanceAs (Decidable (_ ∧ _))

/-! ## The condition -/

/-- The source the read address names, if it is one of the four. -/
def addressed (a : Addr) : Option Source :=
  if a = ADDR_STB0_CS then some .stb0Status
  else if a = ADDR_STB0_D then some .stb0Data
  else if a = ADDR_STB1_CS then some .stb1Status
  else if a = ADDR_STB1_D then some .stb1Data
  else none

/-- The word the addressed source hands over in a cycle. -/
def handover (s : State) (i : Input) : Option (BitVec WIDTH) :=
  (addressed s.tap.rd.currentReadAddress).bind fun x =>
    if x.readyO s && x.validI i.devI then some (x.word i.devI) else none

/-- The word handed over and not through, after the handover of this cycle. -/
abbrev Ledger := Option (BitVec WIDTH)

def took (g : Ledger) (s : State) (i : Input) : Ledger := (handover s i).or g

/-- The serializer has sent the last byte of a word in an earlier cycle and notices it now. -/
def ends (s : State) : Bool := s.tap.ser.busyO && !serving s.tap

def note (g : Ledger) (s : State) (i : Input) : Ledger := if ends s then none else took g s i

/-- A transfer is running, or is being started in this cycle. -/
def transfers (s : State) : Bool := starts s.tap || serving s.tap

/-- Ready is up in the next cycle as well. -/
def opens (s : State) (i : Input) : Bool :=
  !s.tap.ser.doneO && !s.tap.ser.busyO && (reading s.tap || stays s.tap (tapIn s i))

/-- The address the arbiter goes to in this cycle: a valid device that it follows, the command that it
    accepts, or the address that it has. -/
def goal (s : State) (i : Input) : Addr :=
  if follows s.tap (tapIn s i) then s.ic.validAddressO
  else if accepts s.tap then (CommandDecoder.out s.tap.dec).readAddressO
  else s.tap.rd.currentReadAddress

/-- The word is on the pins of the addressed source. -/
def onPins (s : State) (i : Input) (w : BitVec WIDTH) : Bool :=
  (addressed s.tap.rd.currentReadAddress).any fun x => w == x.word i.devI

/-- A word is handed over only when none is pending, and not under the ready of another source.  The second
    part excludes the branch of `ADDR_STB1_D`, whose ready goes to STB0. -/
def single (g : Ledger) (s : State) (i : Input) : Bool :=
  ((handover s i).isNone || g.isNone) &&
    !(s.tap.rd.currentReadAddress == ADDR_STB1_D && s.tap.rd.readReadyO && i.devI.stb0DataValidI)

/-- When the ready of a source goes away, a word has been handed over and is still on the pins if
    a transfer is running or being started, and none has been handed over otherwise. -/
def settles (g : Ledger) (s : State) (i : Input) : Bool :=
  if (addressed s.tap.rd.currentReadAddress).isSome && s.tap.rd.readReadyO &&
      (!opens s i || goal s i != s.tap.rd.currentReadAddress) then
    if s.tap.ser.busyO || starts s.tap then (took g s i).any (onPins s i) else (took g s i).isNone
  else true

/-- A transfer of a source is started under its ready, and the arbiter neither goes to another
    address nor resets it. -/
def kept (s : State) (i : Input) : Bool :=
  !transfers s ||
    ((addressed s.tap.rd.currentReadAddress).isNone && (addressed (goal s i)).isNone) ||
    (goal s i == s.tap.rd.currentReadAddress && (s.tap.rd.readReadyO || !starts s.tap) &&
      s.tap.rd.currentReadCommand != CMD_RESET)

/-- One word for one transfer. -/
def orderly (g : Ledger) (s : State) (i : Input) : Bool :=
  single g s i && settles g s i && kept s i

/-! ## Addresses, readys and words -/

variable {g : Ledger} {s : State} {i : Input} {x : Source}

theorem addressed_iff {a : Addr} : addressed a = some x ↔ a = x.address := by
  constructor
  · intro h
    unfold addressed at h
    split_ifs at h with h0 h1 h2 h3
    · cases h; exact h0
    · cases h; exact h1
    · cases h; exact h2
    · cases h; exact h3
  · rintro rfl
    cases x <;> rfl

/-- A ready that is up is that of the addressed source, or STB0's at the address of STB1's data. -/
theorem readyO_up (h : x.readyO s = true) : s.tap.rd.readReadyO = true ∧
    (s.tap.rd.currentReadAddress = x.address ∨
      (x = .stb0Data ∧ s.tap.rd.currentReadAddress = ADDR_STB1_D)) := by
  have hready : s.tap.rd.readReadyO = true := by
    cases hr : s.tap.rd.readReadyO
    · cases x <;> simp [Source.readyO, ready, ReadInterconnect.ready, hr] at h
    · rfl
  refine ⟨hready, ?_⟩
  unfold Source.readyO ready ReadInterconnect.ready at h
  rw [hready, if_pos rfl] at h
  -- one case for each address of the interconnect; the last but one is the branch of STB1 that gives
  -- ready to STB0
  split_ifs at h with hdmi h0 h1 h2 h3
  · cases x <;> cases h
  · cases x
    · exact Or.inl h0
    all_goals cases h
  · cases x
    · cases h
    · exact Or.inl h1
    all_goals cases h
  · cases x
    · cases h
    · cases h
    · exact Or.inl h2
    · cases h
  · cases x
    · cases h
    · exact Or.inr ⟨rfl, h3⟩
    all_goals cases h
  · cases x <;> cases h

/-- A handover takes a ready, and is what the addressed source hands over: the word on its pins in the cycle
    in which both its signals are high. -/
theorem handover_addressed (hx : s.tap.rd.currentReadAddress = x.address) :
    handover s i = if x.readyO s && x.validI i.devI then some (x.word i.devI) else none := by
  rw [handover, addressed_iff.mpr hx]
  rfl

theorem handover_closed (h : s.tap.rd.readReadyO = false) : handover s i = none := by
  cases ha : addressed s.tap.rd.currentReadAddress with
  | none => rw [handover, ha]; rfl
  | some x =>
    have hr : x.readyO s = false := by
      cases hr : x.readyO s
      · rfl
      · rw [(readyO_up hr).1] at h; cases h
    rw [handover, ha, Option.bind_some, hr]
    rfl

theorem handover_elsewhere (h : addressed s.tap.rd.currentReadAddress = none) :
    handover s i = none := by
  rw [handover, h]
  rfl

/-- What the addressed source hands over, as bytes. -/
theorem handed_addressed (hx : s.tap.rd.currentReadAddress = x.address) :
    handed x s i = (handover s i).elim [] (fun w => wordBytes x.address w 0) := by
  rw [handover_addressed hx, handed]
  cases x.readyO s && x.validI i.devI <;> rfl

/-- With ready up, the word the serializer sees is the one on the pins. -/
theorem word_on_pins (hx : s.tap.rd.currentReadAddress = x.address)
    (hr : s.tap.rd.readReadyO = true) :
    (tapIn s i).readDataI.setWidth (getReadLength x.address)
      = (x.word i.devI).setWidth (getReadLength x.address) := by
  show (settled s i.devI).2.setWidth _ = _
  rw [settled, hx, hr]
  cases x
  · exact ReadInterconnect.setLow8_low s.ic.readData i.devI.stb0StatusI
  · exact ReadInterconnect.setLow32_low s.ic.readData i.devI.stb0DataI
  · exact ReadInterconnect.setLow8_low s.ic.readData i.devI.stb1StatusI
  · exact ReadInterconnect.setLow32_low s.ic.readData i.devI.stb1DataI

/-! ## Registers after a cycle -/

theorem next_tap : (next s i).tap = DmiUartTap.next s.tap (tapIn s i) := rfl

theorem next_address : (next s i).tap.rd.currentReadAddress = goal s i := by
  rw [next_tap, next_rd, readArbiter_address]
  rfl

theorem next_ready : (next s i).tap.rd.readReadyO = opens s i := by
  rw [next_tap, next_rd, readArbiter_readReady]
  rfl

theorem next_readBusy : (next s i).tap.ser.busyO = transfers s := by
  rw [next_tap, next_busy]
  rfl

/-! ## What orderly cycles keep -/

/-- The ledger and the serializer agree: a word is pending only under ready or during its transfer,
    a transfer has the pending word in the latch as soon as ready is down, and a byte on offer is the
    word's. -/
structure Tidy (g : Ledger) (s : State) : Prop where
  regular : Regular s.tap
  length : ∀ x, s.tap.rd.currentReadAddress = Source.address x →
    s.tap.rd.serLength = getReadLength x.address
  first : s.tap.rd.readReadyO = true → s.tap.ser.count = 0 ∧ s.tap.ser.writeO = false
  pending : g ≠ none → (∃ x, s.tap.rd.currentReadAddress = Source.address x) ∧
    (s.tap.rd.readReadyO = true ∨ s.tap.ser.busyO = true)
  reset : ∀ x, s.tap.rd.currentReadAddress = Source.address x → s.tap.ser.busyO = true →
    s.tap.rd.serReset = false
  count : ∀ x, s.tap.rd.currentReadAddress = Source.address x → s.tap.ser.busyO = true →
    ∃ k, s.tap.ser.count = 8 * k ∧ k ≤ byteLength x.address
  word : ∀ x, s.tap.rd.currentReadAddress = Source.address x → s.tap.ser.busyO = true →
    s.tap.rd.readReadyO = false → ∃ w, g = some w ∧
      s.ic.readData.setWidth (getReadLength x.address) = w.setWidth (getReadLength x.address)
  byte : ∀ x, s.tap.rd.currentReadAddress = Source.address x → s.tap.ser.writeO = true →
    s.tap.ser.count < s.tap.rd.serLength ∧ ∃ w, g = some w ∧
      s.tap.ser.dataByteO = serialByte w (getReadLength x.address) s.tap.ser.count

/-- In the transfer of a source the counter moves by the byte that is handed over. -/
theorem Tidy.next_count (h : Tidy g s) (hx : s.tap.rd.currentReadAddress = x.address)
    (hv : serving s.tap = true) : (next s i).tap.ser.count
      = if s.tap.ser.writeO && !i.tapI.txReadyI then s.tap.ser.count + 8 else s.tap.ser.count := by
  have hlen : s.tap.rd.serLength ≤ 41 := by
    rw [h.length x hx]
    exact (getReadLength_bounds _).2
  exact next_count_serving (tapIn s i) hv hlen

/-- A transfer of a source stays where it is: the address does not change, and the serializer starts only
    with the ready up. -/
theorem kept_transfer (ho : orderly g s i = true) (ht : transfers s = true)
    (hx : s.tap.rd.currentReadAddress = x.address ∨ goal s i = x.address) :
    goal s i = s.tap.rd.currentReadAddress ∧
      (starts s.tap = true → s.tap.rd.readReadyO = true) ∧
      s.tap.rd.currentReadCommand ≠ CMD_RESET := by
  unfold orderly at ho
  rw [Bool.and_eq_true] at ho
  have hk := ho.2
  rw [kept, ht, Bool.not_true, Bool.false_or, Bool.or_eq_true] at hk
  rcases hk with hnone | hstay
  · rw [Bool.and_eq_true, Option.isNone_iff_eq_none, Option.isNone_iff_eq_none] at hnone
    rcases hx with hx | hx
    · rw [addressed_iff.mpr hx] at hnone; cases hnone.1
    · rw [addressed_iff.mpr hx] at hnone; cases hnone.2
  · simp only [Bool.and_eq_true, beq_iff_eq, Bool.or_eq_true, Bool.not_eq_true', bne_iff_ne] at hstay
    obtain ⟨⟨hgoal, hready⟩, hreset⟩ := hstay
    refine ⟨hgoal, fun hs => ?_, hreset⟩
    rcases hready with hr | hn
    · exact hr
    · rw [hs] at hn; cases hn

/-- When ready goes away over a transfer, the word on the pins has been handed over. -/
theorem settles_transfer (ho : orderly g s i = true)
    (hx : s.tap.rd.currentReadAddress = x.address) (hr : s.tap.rd.readReadyO = true)
    (hfall : opens s i = false) (ht : s.tap.ser.busyO = true ∨ starts s.tap = true) :
    took g s i = some (x.word i.devI) := by
  unfold orderly at ho
  rw [Bool.and_eq_true, Bool.and_eq_true] at ho
  have hs := ho.1.2
  rw [settles, addressed_iff.mpr hx, hr, hfall, Bool.not_false, Bool.true_or, Option.isSome_some,
    Bool.and_self, Bool.and_self, if_pos rfl, if_pos (Bool.or_eq_true_iff.mpr ht)] at hs
  cases htook : took g s i with
  | none => rw [htook] at hs; cases hs
  | some w =>
    rw [htook, Option.any_some, onPins, addressed_iff.mpr hx, Option.any_some, beq_iff_eq] at hs
    rw [hs]

/-- When ready goes away without a transfer, nothing has been handed over. -/
theorem settles_nothing (ho : orderly g s i = true)
    (hx : s.tap.rd.currentReadAddress = x.address) (hr : s.tap.rd.readReadyO = true)
    (hfall : opens s i = false ∨ goal s i ≠ s.tap.rd.currentReadAddress)
    (hb : s.tap.ser.busyO = false) (hn : starts s.tap = false) : took g s i = none := by
  have hgo : (!opens s i || goal s i != s.tap.rd.currentReadAddress) = true := by
    rw [Bool.or_eq_true, Bool.not_eq_true', bne_iff_ne]
    exact hfall
  unfold orderly at ho
  rw [Bool.and_eq_true, Bool.and_eq_true] at ho
  have hs := ho.1.2
  rw [settles, addressed_iff.mpr hx, hr, hgo, hb, hn] at hs
  exact Option.isNone_iff_eq_none.mp hs

theorem single_handover (ho : orderly g s i = true) (h : handover s i ≠ none) : g = none := by
  unfold orderly single at ho
  simp only [Bool.and_eq_true, Bool.or_eq_true, Option.isNone_iff_eq_none] at ho
  exact ho.1.1.1.resolve_left h

/-- A source that is not addressed hands nothing over, since it gets no ready in an orderly cycle. -/
theorem handed_elsewhere (ho : orderly g s i = true)
    (hx : s.tap.rd.currentReadAddress ≠ x.address) : handed x s i = [] := by
  cases hh : x.readyO s && x.validI i.devI
  · rw [handed, hh]; rfl
  · rw [Bool.and_eq_true] at hh
    obtain ⟨hr, hother⟩ := readyO_up hh.1
    obtain ⟨rfl, ha⟩ := hother.resolve_left hx
    have hv : i.devI.stb0DataValidI = true := hh.2
    unfold orderly single at ho
    rw [ha, hr, hv] at ho
    simp at ho

/-- A pending word does not change while ready is down. -/
theorem took_closed (h : s.tap.rd.readReadyO = false) : took g s i = g := by
  rw [took, handover_closed h]
  rfl

/-- The word that is in the latch after a cycle of a transfer is the pending one. -/
theorem latch_next (h : Tidy g s) (ho : orderly g s i = true)
    (hx : s.tap.rd.currentReadAddress = x.address) (ht : transfers s = true)
    (hfall : opens s i = false) : ∃ w, took g s i = some w ∧
      (tapIn s i).readDataI.setWidth (getReadLength x.address)
        = w.setWidth (getReadLength x.address) := by
  have hor : s.tap.ser.busyO = true ∨ starts s.tap = true := by
    rcases Bool.or_eq_true_iff.mp ht with hs | hv
    · exact Or.inr hs
    · exact Or.inl ((serving_iff _).mp hv).1
  cases hr : s.tap.rd.readReadyO
  · have hb : s.tap.ser.busyO = true := by
      refine hor.resolve_right fun hs => ?_
      rw [(kept_transfer ho ht (Or.inl hx)).2.1 hs] at hr
      cases hr
    obtain ⟨w, hw, hlatch⟩ := h.word x hx hb hr
    refine ⟨w, by rw [took_closed hr, hw], ?_⟩
    show (settled s i.devI).2.setWidth _ = _
    rw [settled_closed _ hr]
    exact hlatch
  · exact ⟨_, settles_transfer ho hx hr hfall hor, word_on_pins hx hr⟩

theorem took_pending (h : Tidy g s) (hw : took g s i ≠ none) :
    (∃ x, s.tap.rd.currentReadAddress = Source.address x) ∧
      (s.tap.rd.readReadyO = true ∨ s.tap.ser.busyO = true) := by
  cases hh : handover s i with
  | none =>
    rw [took, hh] at hw
    exact h.pending hw
  | some w =>
    constructor
    · cases ha : addressed s.tap.rd.currentReadAddress with
      | none => rw [handover_elsewhere ha] at hh; cases hh
      | some x => exact ⟨x, addressed_iff.mp ha⟩
    · cases hr : s.tap.rd.readReadyO
      · rw [handover_closed hr] at hh; cases hh
      · exact Or.inl rfl

theorem transfers_goes_on (ht : transfers s = true) : ends s = false := by
  rw [ends]
  rcases Bool.or_eq_true_iff.mp ht with hs | hv
  · rw [((starts_iff _).mp hs).2.2.2]; rfl
  · rw [hv, Bool.not_true, Bool.and_false]

/-- A word that stays pending stays at its address, under ready or in its transfer. -/
theorem pending_stays (h : Tidy g s) (ho : orderly g s i = true) (hn : note g s i ≠ none) :
    note g s i = took g s i ∧ goal s i = s.tap.rd.currentReadAddress ∧
      (opens s i = true ∨ transfers s = true) := by
  have hend : ends s = false := by
    cases he : ends s
    · rfl
    · rw [note, he] at hn; exact absurd rfl hn
  have hnote : note g s i = took g s i := by rw [note, hend]; rfl
  rw [hnote] at hn
  obtain ⟨⟨x, hx⟩, hor⟩ := took_pending h hn
  refine ⟨hnote, ?_⟩
  -- outside a transfer only an open ready keeps the word where it is
  cases ht : transfers s
  · obtain ⟨hs, hv⟩ := Bool.or_eq_false_iff.mp ht
    have hb : s.tap.ser.busyO = false := by
      rw [ends, hv, Bool.not_false, Bool.and_true] at hend
      exact hend
    have hr : s.tap.rd.readReadyO = true := hor.resolve_right (by rw [hb]; exact Bool.noConfusion)
    by_contra hno
    refine hn (settles_nothing ho hx hr ?_ hb hs)
    by_contra hstay
    rw [not_or, Bool.not_eq_false, not_not] at hstay
    exact hno ⟨hstay.2, Or.inl hstay.1⟩
  · exact ⟨(kept_transfer ho ht (Or.inl hx)).1, Or.inr rfl⟩

/-- In a transfer of a source the counter is at a byte of the word. -/
theorem count_next (h : Tidy g s) (hx : s.tap.rd.currentReadAddress = x.address)
    (ht : transfers s = true) :
    ∃ k, (next s i).tap.ser.count = 8 * k ∧ k ≤ byteLength x.address := by
  rcases Bool.or_eq_true_iff.mp ht with hs | hv
  · obtain ⟨-, hd, -, hidle⟩ := (starts_iff _).mp hs
    have hcount := (next_count_rest (tapIn s i) (s := s.tap) (by simp [serving, hidle])).1
    refine ⟨0, ?_, Nat.zero_le _⟩
    rw [next_tap, hcount, h.regular.count hidle hd, ite_self]
  · obtain ⟨hbusy, -, hlt⟩ := (serving_iff _).mp hv
    obtain ⟨k, hk, hle⟩ := h.count x hx hbusy
    rw [h.length x hx, hk] at hlt
    have hkn : k < byteLength x.address := by
      unfold byteLength
      omega
    have hcount := h.next_count (i := i) hx hv
    rw [hk] at hcount
    split_ifs at hcount
    · exact ⟨k + 1, hcount, hkn⟩
    · exact ⟨k, hcount, hle⟩

/-- A busy serializer that stays at its address keeps its length, which is a function of the address. -/
theorem length_stays (hb : s.tap.ser.busyO = true)
    (hgoal : goal s i = s.tap.rd.currentReadAddress) :
    (next s i).tap.rd.serLength = s.tap.rd.serLength := by
  have hf : follows s.tap (tapIn s i) = false := by
    cases hf : follows s.tap (tapIn s i)
    · rfl
    · -- it would go to an address that is not the current one
      rw [goal, if_pos hf] at hgoal
      rw [follows, Bool.and_eq_true, bne_iff_ne] at hf
      exact absurd hgoal hf.2
  rw [next_tap, next_rd, readArbiter_length, hf, accepts_of_busy hb]
  rfl

/-- The byte that is put on offer is the pending word's at the counter. -/
theorem byte_next (h : Tidy g s) (ho : orderly g s i = true) (hx : goal s i = x.address)
    (hw : (next s i).tap.ser.writeO = true) :
    (next s i).tap.ser.count < (next s i).tap.rd.serLength ∧ ∃ w, note g s i = some w ∧
      (next s i).tap.ser.dataByteO
        = serialByte w (getReadLength x.address) (next s i).tap.ser.count := by
  rw [next_tap, next_ser, TxSerializer.next_writeO, Bool.and_eq_true, Bool.and_eq_true,
    Bool.not_eq_true'] at hw
  obtain ⟨⟨hrst, hserves⟩, hready⟩ := hw
  rw [TxSerializer.serves, Bool.and_eq_true, decide_eq_true_eq] at hserves
  obtain ⟨hb, hlt⟩ := hserves
  have hv : serving s.tap = true := (serving_iff _).mpr ⟨hb, hrst, hlt⟩
  have ht : transfers s = true := by rw [transfers, hv, Bool.or_true]
  -- a busy serializer keeps the latches closed
  have hfall : opens s i = false := by
    rw [opens, hb, Bool.not_true, Bool.and_false, Bool.false_and]
  have hgoal := (kept_transfer ho ht (Or.inr hx)).1
  have hcur : s.tap.rd.currentReadAddress = x.address := by rw [← hgoal]; exact hx
  obtain ⟨w, hpend, hlatch⟩ := latch_next h ho hcur ht hfall
  -- the byte on offer is the one at the counter, so it has not moved on yet
  have hcount : (next s i).tap.ser.count = s.tap.ser.count := by
    have hon : i.tapI.txReadyI = true := hready
    rw [h.next_count hcur hv, hon, Bool.not_true, Bool.and_false]
    rfl
  rw [hcount, length_stays hb hgoal]
  refine ⟨hlt, w, ?_, ?_⟩
  · rw [note, transfers_goes_on ht]
    exact hpend
  · rw [next_tap, next_dataByte _ hrst, h.length x hcur]
    exact serialByte_congr (le_trans (getReadLength_bounds _).2 (by decide)) hlatch _

/-- An orderly cycle leaves ledger and serializer in agreement, field by field of `Tidy`. -/
theorem tidy_next (h : Tidy g s) (ho : orderly g s i = true) :
    Tidy (note g s i) (next s i) where
  regular := regular_next (tapIn s i) h.regular
  -- the length follows the address, in the same assignment
  length x hx := by
    rw [next_address, goal] at hx
    rw [next_tap, next_rd, readArbiter_length]
    show (if follows s.tap (tapIn s i) then getReadLength s.ic.validAddressO else _) = _
    split_ifs at hx ⊢
    · rw [hx]
    · rw [hx]
    · exact h.length x hx
  -- before the transfer the counter is at zero and nothing is on offer
  first hr := by
    rw [next_ready, opens, Bool.and_eq_true, Bool.and_eq_true, Bool.not_eq_true',
      Bool.not_eq_true'] at hr
    obtain ⟨⟨hd, hb⟩, -⟩ := hr
    obtain ⟨hcount, hwrite⟩ := next_count_rest (tapIn s i) (s := s.tap) (by simp [serving, hb])
    refine ⟨?_, hwrite⟩
    show (DmiUartTap.next s.tap (tapIn s i)).ser.count = 0
    rw [hcount, h.regular.count hb hd, ite_self]
  -- a pending word belongs to the address, as far as it is not given up
  pending hn := by
    obtain ⟨hnote, hgoal, hor⟩ := pending_stays h ho hn
    rw [hnote] at hn
    rw [next_address, next_ready, next_readBusy, hgoal]
    exact ⟨(took_pending h hn).1, hor⟩
  -- no reset of the serializer falls into a transfer
  reset x hx hb := by
    rw [next_readBusy] at hb
    rw [next_address] at hx
    have hreset := (kept_transfer ho hb (Or.inr hx)).2.2
    have hd : s.tap.ser.doneO = false := by
      rcases Bool.or_eq_true_iff.mp hb with hs | hv
      · exact ((starts_iff _).mp hs).2.1
      · exact h.regular.done ((serving_iff _).mp hv).1
    rw [next_tap, next_rd, readArbiter_serReset, hd, Bool.false_and, Bool.or_false,
      beq_eq_false_iff_ne]
    exact hreset
  -- the counter is at a byte of the word
  count x hx hb := by
    rw [next_readBusy] at hb
    rw [next_address] at hx
    rw [(kept_transfer ho hb (Or.inr hx)).1] at hx
    exact count_next h hx hb
  -- with ready low the latches hold what is pending
  word x hx hb hr := by
    rw [next_readBusy] at hb
    rw [next_ready] at hr
    rw [next_address] at hx
    rw [(kept_transfer ho hb (Or.inr hx)).1] at hx
    obtain ⟨w, hw, hlatch⟩ := latch_next h ho hx hb hr
    refine ⟨w, ?_, hlatch⟩
    rw [note, transfers_goes_on hb]
    exact hw
  -- and the byte on offer is a byte of it
  byte x hx hw := by
    rw [next_address] at hx
    exact byte_next h ho hx hw

/-! ## Conservation -/

/-- The bytes of the pending word that have not been sent: those from the counter on. -/
def due (x : Source) (g : Ledger) (s : State) : List Byte :=
  if s.tap.rd.currentReadAddress = x.address then
    g.elim [] fun w => wordBytes x.address w (s.tap.ser.count / 8)
  else []

theorem due_none (x : Source) (s : State) : due x none s = [] := by
  unfold due
  split_ifs <;> rfl

theorem due_length (x : Source) (g : Ledger) (s : State) :
    (due x g s).length ≤ byteLength x.address := by
  unfold due
  split_ifs
  · cases g with
    | none => exact Nat.zero_le _
    | some w => simp [wordBytes]
  · exact Nat.zero_le _

/-- A source that is not addressed is not served. -/
theorem due_elsewhere (h : Tidy g s) (ho : orderly g s i = true)
    (hx : s.tap.rd.currentReadAddress ≠ x.address) :
    due x g s ++ handed x s i = sent x s i ++ due x (note g s i) (next s i) := by
  have hnext : due x (note g s i) (next s i) = [] := by
    cases hn : note g s i with
    | none => exact due_none x _
    | some w =>
      have hgoal := (pending_stays (i := i) h ho (by rw [hn]; exact Option.some_ne_none w)).2.1
      rw [due, next_address, hgoal, if_neg hx]
  rw [hnext, handed_elsewhere ho hx, due, if_neg hx, sent, if_neg hx]

/-- When the serializer notices the end of a word, all bytes of it have been sent. -/
theorem due_through (h : Tidy g s) (hx : s.tap.rd.currentReadAddress = x.address)
    (hend : ends s = true) : due x g s ++ handed x s i = due x (note g s i) (next s i) := by
  have hnone : note g s i = none := by rw [note, if_pos hend]
  rw [ends, Bool.and_eq_true, Bool.not_eq_true'] at hend
  obtain ⟨hb, hv⟩ := hend
  obtain ⟨k, hk, -⟩ := h.count x hx hb
  have hall : byteLength x.address ≤ k := by
    by_contra hlt
    have hserve : serving s.tap = true := by
      refine (serving_iff _).mpr ⟨hb, h.reset x hx hb, ?_⟩
      rw [hk, h.length x hx]
      unfold byteLength at hlt
      omega
    rw [hserve] at hv
    cases hv
  have hr : s.tap.rd.readReadyO = false := by
    cases hr : s.tap.rd.readReadyO
    · rfl
    · -- under ready the counter is at the first byte
      have hzero := (h.first hr).1
      have hpos := (byteLength_bounds x.address).1
      omega
  rw [due, if_pos hx, handed_addressed hx, handover_closed hr, hnone, due_none, hk,
    Nat.mul_div_cancel_left k (by decide)]
  cases g with
  | none => rfl
  | some w => exact (List.append_nil _).trans (wordBytes_end w hall)

/-- Over a word that is pending the byte counter does not move without a byte. -/
theorem count_silent (h : Tidy g s) (hx : s.tap.rd.currentReadAddress = x.address)
    (hw : s.tap.ser.writeO = false) (hend : ends s = false)
    (hpend : s.tap.rd.readReadyO = true ∨ s.tap.ser.busyO = true) :
    (next s i).tap.ser.count = s.tap.ser.count := by
  cases hv : serving s.tap
  · -- not busy, so under ready and at the first byte
    have hb : s.tap.ser.busyO = false := by
      rw [ends, hv, Bool.not_false, Bool.and_true] at hend
      exact hend
    have hfirst := (h.first (hpend.resolve_right (by rw [hb]; exact Bool.noConfusion))).1
    show (DmiUartTap.next s.tap (tapIn s i)).ser.count = _
    rw [(next_count_rest (tapIn s i) hv).1, hfirst, ite_self]
  · rw [h.next_count hx hv, hw]
    rfl

/-- While no byte is on offer the pending word stays as it is, or is the one handed over in this cycle. -/
theorem due_silent (h : Tidy g s) (ho : orderly g s i = true)
    (hx : s.tap.rd.currentReadAddress = x.address) (hw : s.tap.ser.writeO = false) :
    due x g s ++ handed x s i = sent x s i ++ due x (note g s i) (next s i) := by
  have hsent : sent x s i = [] := by
    rw [sent, if_pos hx, DmiUartTap.handsOver, TxSerializer.handsOver, hw]
    rfl
  rw [hsent, List.nil_append]
  cases hend : ends s
  · rw [due, if_pos hx, handed_addressed hx]
    cases htook : took g s i with
    | none =>
      obtain ⟨hh, hg⟩ := Option.or_eq_none_iff.mp htook
      have hn : note g s i = none := by rw [note, hend]; exact htook
      rw [hn, due_none, hh, hg]
      rfl
    | some w =>
      have hn : note g s i = some w := by rw [note, hend]; exact htook
      have hne : note g s i ≠ none := by rw [hn]; exact Option.some_ne_none w
      have hgoal := (pending_stays h ho hne).2.1
      have hpend := (took_pending (i := i) h (by rw [htook]; exact Option.some_ne_none w)).2
      have hcount := count_silent (i := i) h hx hw hend hpend
      rw [hn, due, next_address, hgoal, if_pos hx, hcount]
      cases hh : handover s i with
      | none =>
        rw [took, hh] at htook
        rw [show g = some w from htook]
        exact List.append_nil _
      | some v =>
        -- a new word: nothing was pending, and ready is up
        rw [single_handover ho (by rw [hh]; exact Option.some_ne_none v)]
        rw [took, hh] at htook
        cases htook
        have hr : s.tap.rd.readReadyO = true := by
          cases hr : s.tap.rd.readReadyO
          · rw [handover_closed hr] at hh; cases hh
          · rfl
        rw [(h.first hr).1]
        rfl
  · exact due_through h hx hend

/-- A byte on offer is the next one of the pending word.  If it is taken, it is sent, and no longer due. -/
theorem due_offering (h : Tidy g s) (ho : orderly g s i = true)
    (hx : s.tap.rd.currentReadAddress = x.address) (hw : s.tap.ser.writeO = true) :
    due x g s ++ handed x s i = sent x s i ++ due x (note g s i) (next s i) := by
  have hb := h.regular.offer hw
  obtain ⟨hlt, w, hg, hbyte⟩ := h.byte x hx hw
  obtain ⟨k, hk, -⟩ := h.count x hx hb
  have hv : serving s.tap = true := (serving_iff _).mpr ⟨hb, h.reset x hx hb, hlt⟩
  have ht : transfers s = true := by rw [transfers, hv, Bool.or_true]
  have hr : s.tap.rd.readReadyO = false := by
    cases hr : s.tap.rd.readReadyO
    · rfl
    · rw [(h.first hr).2] at hw; cases hw
  have hn : note g s i = some w := by
    rw [note, transfers_goes_on ht, ← hg]
    exact took_closed hr
  have hkn : k < byteLength x.address := by
    rw [hk, h.length x hx] at hlt
    unfold byteLength
    omega
  rw [handed_addressed hx, handover_closed hr, hn, hg, due, due, next_address,
    (kept_transfer ho ht (Or.inl hx)).1, if_pos hx, if_pos hx, h.next_count hx hv, hk, sent,
    if_pos hx, DmiUartTap.handsOver, TxSerializer.handsOver, hw, hbyte, hk]
  have hready : (serIn s.tap (tapIn s i)).readyI = i.tapI.txReadyI := rfl
  rw [hready]
  -- with the transmitter ready the byte is handed over, and the next one is due
  cases i.tapI.txReadyI
  · have hdiv : (8 * k + 8) / 8 = k + 1 := by omega
    simp only [Bool.not_false, Bool.and_self, if_true, Option.elim, hdiv]
    rw [Nat.mul_div_cancel_left k (by decide), wordBytes_step w hkn, List.append_nil]
    rfl
  · simp

/-- **Conservation.**  An orderly cycle moves the bytes of every source from its pins through the
    ledger to the serializer's output.  Two things happen to the bytes of the addressed source, they are
    handed over or sent; the bytes of the others stay where they are. -/
theorem due_next (h : Tidy g s) (ho : orderly g s i = true) :
    due x g s ++ handed x s i = sent x s i ++ due x (note g s i) (next s i) := by
  by_cases hx : s.tap.rd.currentReadAddress = x.address
  · cases hw : s.tap.ser.writeO
    · exact due_silent h ho hx hw
    · exact due_offering h ho hx hw
  · exact due_elsewhere h ho hx

/-! ## Runs -/

theorem tidy_reset (s : State) (d : ReadInterconnect.Devices) : Tidy none (reset s d) where
  regular := regular_reset s.tap
  length x hx := by cases x <;> cases hx
  first h := by cases h
  pending h := absurd rfl h
  reset x hx h := by cases h
  count x hx h := by cases h
  word x hx h := by cases h
  byte x hx h := by cases h

/-- **No word of a source is lost or sent twice — in orderly runs.**  For every run from reset whose
    cycles are all orderly, for every source and at every point of the run: what the serializer has
    sent for the source's address is what the source has handed over, up to the word in progress. -/
theorem words_sent (s₀ : State) (d : ReadInterconnect.Devices) (is : List Input)
    (horderly : Always (watched next note) (fun p i => orderly p.1 p.2 i = true)
      (none, reset s₀ d) is) (x : Source) :
    ∀ pre, pre <+: is → Delivered x (reset s₀ d) pre := by
  rintro pre ⟨post, rfl⟩
  have hpre := ((always_append _ _ pre post _).mp horderly).1
  have hlaw := emitted_conserved (fun p : Ledger × State => Tidy p.1 p.2)
    (fun p i => handed x p.2 i) (fun p i => sent x p.2 i) (fun p => due x p.1 p.2)
    (fun p i hp ho => tidy_next hp ho) (fun p i hp ho => due_next hp ho) pre
    (none, reset s₀ d) (tidy_reset s₀ d) hpre
  rw [emitted_watched, emitted_watched, due_none, List.nil_append] at hlaw
  unfold Delivered
  rw [hlaw]
  refine ⟨List.prefix_append _ _, ?_⟩
  rw [List.length_append]
  exact Nat.add_le_add_left (due_length x _ _) _

/-- A cycle in which STB0's data channel has `w` on its pins. -/
def onStb0 (valid : Bool) (w : BitVec 32) : Input :=
  { devI := { stb0DataValidI := valid, stb0DataI := w } }

/-- Three cycles of a transmitter that is busy in the last of them, over a word that is held. -/
def heldOut (w : BitVec 32) : List Input :=
  [onStb0 false w, onStb0 false w, { tapI := { txReadyI := false }, devI := { stb0DataI := w } }]

/-- STB0 lowers its valid after the handover and holds the word until it has been sent. -/
def oneWord : List Input :=
  List.replicate 4 (onStb0 true 0xAABBCCDD) ++ (List.replicate 6 (heldOut 0xAABBCCDD)).flatten

theorem one_word_sent :
    Delivered .stb0Data (reset default {}) oneWord ∧
      emitted next (handed .stb0Data) (reset default {}) oneWord = [0xDD, 0xCC, 0xBB, 0xAA] ∧
      emitted next (sent .stb0Data) (reset default {}) oneWord = [0xDD, 0xCC, 0xBB, 0xAA] :=
  ⟨words_sent default {} oneWord (by decide +kernel) .stb0Data oneWord List.prefix_rfl,
    by decide +kernel, by decide +kernel⟩

/-- STB0 has a word ready in every cycle. -/
def streaming : List Input :=
  List.replicate 4 (onStb0 true 0x11111111) ++ [onStb0 true 0x22222222]

/-- It hands over two words under one ready, and at most one of them will be sent. -/
theorem streamed_word_lost :
    ¬ (∀ x pre, pre <+: streaming → Delivered x (reset default {}) pre) ∧
      emitted next (handed .stb0Data) (reset default {}) streaming
        = [0x11, 0x11, 0x11, 0x11, 0x22, 0x22, 0x22, 0x22] ∧
      emitted next (sent .stb0Data) (reset default {}) streaming = [] := by
  refine ⟨fun hall => ?_, by decide +kernel, by decide +kernel⟩
  have hlost : ¬ Delivered .stb0Data (reset default {}) streaming := by decide +kernel
  exact hlost (hall .stb0Data streaming List.prefix_rfl)

end RiscDbgUart.ReadSide
