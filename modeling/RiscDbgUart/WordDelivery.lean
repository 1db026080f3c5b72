/-
  Whether each deserialized word reaches its target exactly once and unaltered.

  `WRITE_VALID_O` is DONE itself, while the word reaches `WRITE_DATA_O` through a register and is there
  one cycle later.  A target that is ready in the first cycle of DONE takes what the register held
  before: nothing after a command, the word before after another word.  And the deserializer is
  restarted one cycle after ready has been seen, so valid outlives the acknowledge by a cycle, in which
  a target that is still ready takes the word again.  `DMI_UART` escapes the second of these by not
  looking at the port while it has a request of its own, not the first.

  `deliveries` says what a word means to its target.  `words` are the deliveries owed when DONE is
  raised, `takes` those that happen at the targets, and `pending` is what is still owed.  `punctual` is
  the condition on a cycle that decides, in both directions, whether the books balance.

  The argument is a conservation law.  `pending` is what a state owes: the deliveries of a complete word
  that has not been acknowledged.  A cycle is punctual exactly when what was owed and what completes are
  what is taken and what is owed afterwards (`law_iff_punctual`), and over a run this sums up to the
  equation of the two streams.  One lemma for each thing that can happen to a word:

  * `law_raise`        — it becomes complete, and is owed unless a command discards it;
  * `law_kept`         — nobody looks at it, and it stays owed unless a command discards it;
  * `law_taken`        — its target looks, and takes what the data register holds in this cycle;
  * `law_acknowledged` — the bridge has it already, and acknowledges it;
  * `law_restart`      — the deserializer is being restarted, and an STB target may take it again.

  The invariant (`Inv`) ties the deserializer to the arbiter and the arbiter to the bridge; it is where it
  is said that a word offered is the word received.
-/
import RiscDbgUart.Clocked.Machine
import RiscDbgUart.WriteSide

set_option linter.unusedVariables false

namespace RiscDbgUart.WriteSide

open Clocked DmiUartTap

/-! ## Deliveries -/

/-- What a target gets: the low byte or the low word of an STB channel, or a request.  A word is a delivery
    to the target that the current address names. -/
inductive Delivery
  | control (a : Addr) (w : BitVec 8)
  | data (a : Addr) (w : BitVec 32)
  | request (r : DmiReq)
deriving DecidableEq, Repr

/-- What the target at `a` is owed for the word `w`.  A word for the debug module that is no request is
    acknowledged and nothing else, so nothing is owed for it. -/
def deliveries (a : Addr) (w : BitVec WIDTH) : List Delivery :=
  if a = ADDR_DMI then if isRequest w then [.request (DmiReq.ofWord w)] else []
  else if a = ADDR_STB0_CS ∨ a = ADDR_STB1_CS then [.control a (w.setWidth 8)]
  else if a = ADDR_STB0_D ∨ a = ADDR_STB1_D then [.data a (w.setWidth 32)]
  else []

/-- The word the deserializer holds. -/
def word (s : State) : BitVec WIDTH := s.tap.deser.dataO.setWidth WIDTH

/-- A delivery is owed when DONE is raised, to the target of the address that is current then. -/
def words (s : State) (i : Input) : List Delivery :=
  if !s.tap.deser.doneO && (next s i).tap.deser.doneO then
    deliveries s.tap.wr.currentWriteAddress (word (next s i))
  else []

/-- What the targets take in a cycle: an STB target whose valid and ready are both high takes what is
    on its port, and the bridge captures the word at its port as its request. -/
def takes (s : State) (i : Input) : List Delivery :=
  (if (mux s i).stb0ControlValidO && i.readyI.stb0ControlReadyI then
      [.control ADDR_STB0_CS (mux s i).stb0ControlO] else [])
    ++ (if (mux s i).stb0DataValidO && i.readyI.stb0DataReadyI then
      [.data ADDR_STB0_D (mux s i).stb0DataO] else [])
    ++ (if (mux s i).stb1ControlValidO && i.readyI.stb1ControlReadyI then
      [.control ADDR_STB1_CS (mux s i).stb1ControlO] else [])
    ++ (if (mux s i).stb1DataValidO && i.readyI.stb1DataReadyI then
      [.data ADDR_STB1_D (mux s i).stb1DataO] else [])
    ++ (if DmiUart.captures s.dmi (dmiIn s i) then [.request (next s i).dmi.request] else [])

/-- The bridge has captured the word and acknowledges it in this cycle. -/
def acknowledged (s : State) : Bool := toDmi s && s.dmi.tapWriteReadyO && s.dmi.doRequest

/-- What is still owed: the word of a DONE that has neither been taken nor been given up by a restart
    of the deserializer.  An acknowledge says that the bridge has had it. -/
def pending (s : State) : List Delivery :=
  if s.tap.deser.doneO && !s.tap.wr.deserReset && !acknowledged s then
    deliveries s.tap.wr.currentWriteAddress (word s)
  else []

/-! ## The condition -/

/-- The addressed target takes what is at its port in this cycle if it is valid: an STB target is
    ready, the idle bridge finds a request. -/
def attentive (s : State) (i : Input) : Bool :=
  if toDmi s then DmiUart.idle s.dmi && isRequest (writeDataO s.tap) else (mux s i).writeReadyO

/-- DONE is about to be raised: the last byte has been stored and the deserializer goes on. -/
def finishing (s : State) : Bool :=
  !s.tap.wr.deserReset && s.tap.deser.busyO && decide (s.tap.wr.deserLength ≤ s.tap.deser.byteCount)

/-- Nothing goes wrong with the word in this cycle.  While DONE is being raised no write-side command
    is accepted that would discard a word with a target.  In the cycle that restarts the deserializer
    no STB target is ready.  And while the word is offered: a target that looks finds the word, not
    what the register held before it, and if no target looks, no command discards a word with a
    target. -/
def punctual (s : State) (i : Input) : Bool :=
  if !s.tap.deser.doneO then
    !(finishing s && acceptsWrite s.tap && deliveries s.tap.wr.currentWriteAddress (word s) != [])
  else if s.tap.wr.deserReset then
    toDmi s || !(mux s i).writeReadyO ||
      deliveries s.tap.wr.currentWriteAddress (writeDataO s.tap) == []
  else if acknowledged s then true
  else if attentive s i then
    !s.tap.wr.receiveEnable ||
      deliveries s.tap.wr.currentWriteAddress (writeDataO s.tap)
        == deliveries s.tap.wr.currentWriteAddress (word s)
  else !acceptsWrite s.tap || deliveries s.tap.wr.currentWriteAddress (word s) == []

/-! ## What the targets take -/

/-- At the DMI address the bridge is the only one who can take. -/
theorem takes_dmi {s : State} (i : Input) (h : toDmi s = true) : takes s i
    = if s.tap.deser.doneO && DmiUart.idle s.dmi && isRequest (writeDataO s.tap) then
        [.request (DmiReq.ofWord (writeDataO s.tap))]
      else [] := by
  have hcap : DmiUart.captures s.dmi (dmiIn s i)
      = (s.tap.deser.doneO && DmiUart.idle s.dmi && isRequest (writeDataO s.tap)) := by
    rw [DmiUart.captures, dmiIn, mux_dmi i h, Bool.and_comm (DmiUart.idle s.dmi)]
    rfl
  have hreq : DmiUart.captures s.dmi (dmiIn s i) = true →
      (next s i).dmi.request = DmiReq.ofWord (writeDataO s.tap) := by
    intro hc
    show (DmiUart.next s.dmi (dmiIn s i)).request = _
    rw [DmiUart.next_request, if_pos hc, dmiIn, mux_dmi i h]
  rw [takes, mux_dmi i h, ← hcap]
  cases hc : DmiUart.captures s.dmi (dmiIn s i)
  · simp
  · simp [hreq hc]

/-- At any other address the bridge takes nothing, as its valid stays down. -/
theorem captures_other {s : State} (i : Input) (h : toDmi s = false) :
    DmiUart.captures s.dmi (dmiIn s i) = false := by
  have hv : (dmiIn s i).tapWriteValidI = false := by
    show (mux s i).dmiWriteValidO = false
    rw [mux_dmiValid, h]
    rfl
  rw [DmiUart.captures, hv, Bool.and_false, Bool.false_and]

/-- Through the interconnect: the addressed target takes what `WRITE_DATA_O` means to it, and nobody
    else takes anything. -/
theorem takes_eq (s : State) (i : Input) : takes s i
    = if s.tap.deser.doneO && attentive s i then
        deliveries s.tap.wr.currentWriteAddress (writeDataO s.tap)
      else [] := by
  cases h : toDmi s
  · -- another address: each stream has its own valid line, and the rest of the addresses have none
    have hne : s.tap.wr.currentWriteAddress ≠ ADDR_DMI := by
      unfold toDmi at h
      rw [beq_eq_false_iff_ne] at h
      exact h
    rw [takes, captures_other i h, attentive, h, deliveries, if_neg hne]
    simp only [mux, WriteInterconnect.mux, writeValidO, if_neg hne]
    by_cases h0 : s.tap.wr.currentWriteAddress = ADDR_STB0_CS
    · simp [h0]
    by_cases h1 : s.tap.wr.currentWriteAddress = ADDR_STB0_D
    · simp [h1]
    by_cases h2 : s.tap.wr.currentWriteAddress = ADDR_STB1_CS
    · simp [h2]
    by_cases h3 : s.tap.wr.currentWriteAddress = ADDR_STB1_D
    · simp [h3]
    simp only [h0, h1, h2, h3, or_self, if_false]
    simp
  · -- the debug module: the bridge captures the word when it is idle and the word is a request
    have ha : s.tap.wr.currentWriteAddress = ADDR_DMI := by
      unfold toDmi at h
      rw [beq_iff_eq] at h
      exact h
    rw [takes_dmi i h, attentive, h, deliveries, if_pos ha]
    cases s.tap.deser.doneO <;> cases DmiUart.idle s.dmi <;>
      cases isRequest (writeDataO s.tap) <;> rfl

/-! ## What every reachable state satisfies -/

/-- What every reachable state satisfies: how the deserializer, the write arbiter and the bridge stand to
    each other while a word is on its way. -/
structure Inv (s : State) : Prop where
  mode : s.tap.wr.deserReset = false → s.tap.wr.currentWriteCommand = CMD_WRITE
  busy : s.tap.deser.doneO = true → s.tap.deser.busyO = true
  full : s.tap.deser.doneO = true → s.tap.wr.deserReset = false →
    s.tap.wr.deserLength ≤ s.tap.deser.byteCount
  loaded : s.tap.deser.doneO = true → s.tap.wr.deserReset = false →
    s.tap.wr.receiveEnable = false → s.tap.wr.writeData = s.tap.deser.dataO
  ack : s.dmi.tapWriteReadyO = true → s.tap.wr.receiveEnable = false ∧ s.dmi.doEnd = false
  restart : s.tap.deser.doneO = true → s.tap.wr.deserReset = true → toDmi s = true →
    DmiUart.idle s.dmi = true → isRequest (writeDataO s.tap) = false

theorem inv_reset (s : State) : Inv (reset s) where
  mode h := by cases h
  busy h := by cases h
  full h := by cases h
  loaded h := by cases h
  ack h := by cases h
  restart h := by cases h

/-- DONE after a cycle: the deserializer was not being reset and the word was full. -/
theorem next_done {s : State} {i : Input} (h : (next s i).tap.deser.doneO = true) :
    s.tap.wr.deserReset = false ∧ s.tap.wr.deserLength ≤ s.tap.deser.byteCount ∧
      (s.tap.deser.busyO = true ∨ s.tap.deser.doneO = true) := by
  have h' : (RxDeserializer.next s.tap.deser (deserIn s.tap (tapIn s i))).doneO = true := h
  rw [RxDeserializer.next_doneO] at h'
  simp only [Bool.and_eq_true, Bool.not_eq_true', decide_eq_true_eq, Bool.or_eq_true] at h'
  exact ⟨h'.1.1, h'.1.2, h'.2⟩

/-- A full word that is not being reset stays as it is. -/
theorem next_word {s : State} {i : Input} (hr : s.tap.wr.deserReset = false)
    (hfull : s.tap.wr.deserLength ≤ s.tap.deser.byteCount) :
    (next s i).tap.deser.dataO = s.tap.deser.dataO ∧
      (next s i).tap.deser.byteCount = s.tap.deser.byteCount := by
  show (RxDeserializer.next s.tap.deser (deserIn s.tap (tapIn s i))).dataO = _ ∧
    (RxDeserializer.next s.tap.deser (deserIn s.tap (tapIn s i))).byteCount = _
  rw [RxDeserializer.next_dataO, RxDeserializer.next_byteCount]
  simp [deserIn, hr, Nat.not_lt.mpr hfull]

/-- The deserializer goes on after a cycle only if the arbiter drives it and no word was acknowledged
    in it. -/
theorem next_running {s : State} {i : Input} (h : (next s i).tap.wr.deserReset = false) :
    writes s.tap = true ∧ (s.tap.deser.doneO && (mux s i).writeReadyO) = false := by
  have h' : (writeArbiter s.tap (tapIn s i)).deserReset = false := h
  rw [writeArbiter_deserReset, Bool.not_eq_false', Bool.and_eq_true, Bool.not_eq_true'] at h'
  exact h'

/-- Without a command the address stays, and with it the target. -/
theorem next_address {s : State} (i : Input) (h : acceptsWrite s.tap = false) :
    (next s i).tap.wr.currentWriteAddress = s.tap.wr.currentWriteAddress := by
  show (writeArbiter s.tap (tapIn s i)).currentWriteAddress = _
  rw [writeArbiter_address, h]
  rfl

/-- In write mode DONE loads the word into `write_data`, where the target finds it a cycle later. -/
theorem next_writeData {s : State} (i : Input) (hw : writes s.tap = true)
    (hd : s.tap.deser.doneO = true) : (next s i).tap.wr.writeData = s.tap.deser.dataO := by
  obtain ⟨ha, hc⟩ := (writes_iff s.tap).mp hw
  show (writeArbiter s.tap (tapIn s i)).writeData = _
  rw [writeArbiter_writeData, ha, hc, hd]
  rfl

/-- An acknowledge follows a valid the idle bridge has seen, a cycle later. -/
theorem next_ack (s : State) (i : Input) : (next s i).dmi.tapWriteReadyO
    = (DmiUart.idle s.dmi && (toDmi s && s.tap.deser.doneO)) := by
  show (DmiUart.next s.dmi (dmiIn s i)).tapWriteReadyO = _
  rw [DmiUart.next_tapWriteReadyO]
  show (DmiUart.idle s.dmi && (mux s i).dmiWriteValidO) = _
  rw [mux_dmiValid]
  rfl

/-- The bridge that has a request keeps away from the port until the response is in. -/
theorem next_not_idle {s : State} {i : Input} (h : s.dmi.doRequest = true) :
    DmiUart.idle (next s i).dmi = false := by
  show DmiUart.idle (DmiUart.next s.dmi (dmiIn s i)) = false
  rw [DmiUart.idle, DmiUart.next_doRequest, DmiUart.next_doEnd, h]
  cases (dmiIn s i).dmiReqReadyI <;> simp

/-- The idle bridge with a valid at its port: it has a request afterwards exactly if the word is
    one. -/
theorem next_doRequest_idle {s : State} (i : Input) (hidle : DmiUart.idle s.dmi = true)
    (hdmi : toDmi s = true) (hd : s.tap.deser.doneO = true) :
    (next s i).dmi.doRequest = isRequest (writeDataO s.tap) := by
  have hnot : s.dmi.doRequest = false := by
    unfold DmiUart.idle at hidle
    cases h : s.dmi.doRequest
    · rfl
    · rw [h] at hidle; cases hidle
  show (DmiUart.next s.dmi (dmiIn s i)).doRequest = _
  rw [DmiUart.next_doRequest, hnot, DmiUart.captures, hidle, dmiIn, mux_dmi i hdmi]
  simp [writeValidO, hd]

/-- The bridge in the cycle after an acknowledged word: if it is idle, the word was no request. -/
theorem restart_next {s : State} {i : Input} (h : Inv s) (hd : (next s i).tap.deser.doneO = true)
    (hr : (next s i).tap.wr.deserReset = true) (hdmi : toDmi (next s i) = true)
    (hidle : DmiUart.idle (next s i).dmi = true) :
    isRequest (writeDataO (next s i).tap) = false := by
  obtain ⟨hrun, hfull, -⟩ := next_done hd
  have hmode := h.mode hrun
  cases ha : acceptsWrite s.tap
  · have hw : writes s.tap = true := (writes_iff s.tap).mpr ⟨ha, hmode⟩
    have hr' : (writeArbiter s.tap (tapIn s i)).deserReset = true := hr
    rw [writeArbiter_deserReset, hw, Bool.true_and, Bool.not_not, Bool.and_eq_true] at hr'
    obtain ⟨hdone, hready⟩ := hr'
    have hdmi' : toDmi s = true := by
      unfold toDmi at hdmi ⊢
      rw [next_address i ha] at hdmi
      exact hdmi
    have hack : s.dmi.tapWriteReadyO = true := by
      have hready' : (mux s i).writeReadyO = true := hready
      rw [mux_dmi i hdmi'] at hready'
      exact hready'
    obtain ⟨hen, hend⟩ := h.ack hack
    have hsame : writeDataO (next s i).tap = writeDataO s.tap := by
      rw [writeDataO, writeDataO, next_writeData i hw hdone, h.loaded hdone hrun hen]
    cases hreq : s.dmi.doRequest
    · have hidle' : DmiUart.idle s.dmi = true := by rw [DmiUart.idle, hreq, hend]; rfl
      have hcap := next_doRequest_idle i hidle' hdmi' hdone
      rw [hsame, ← hcap]
      unfold DmiUart.idle at hidle
      cases hq : (next s i).dmi.doRequest
      · rfl
      · rw [hq] at hidle; cases hidle
    · rw [next_not_idle hreq] at hidle
      cases hidle
  · -- a command has cleared the register
    have hzero : (next s i).tap.wr.writeData = 0 := by
      show (writeArbiter s.tap (tapIn s i)).writeData = 0
      rw [writeArbiter_writeData, ha]
      rfl
    rw [writeDataO, hzero]
    decide

theorem inv_next {s : State} (i : Input) (h : Inv s) : Inv (next s i) where
  -- a transfer runs for a WRITE
  mode hr := by
    obtain ⟨ha, hc⟩ := (writes_iff s.tap).mp (next_running hr).1
    show (writeArbiter s.tap (tapIn s i)).currentWriteCommand = CMD_WRITE
    rw [writeArbiter_command, ha, hc]
    rfl
  -- DONE comes while the deserializer is busy
  busy hd := by
    obtain ⟨hrun, -, hor⟩ := next_done hd
    have hb : s.tap.deser.busyO = true := by
      rcases hor with hb | hdone
      · exact hb
      · exact h.busy hdone
    show (RxDeserializer.next s.tap.deser (deserIn s.tap (tapIn s i))).busyO = true
    rw [RxDeserializer.next_busyO]
    simp [deserIn, hrun, hb]
  -- and with the whole word
  full hd hr := by
    obtain ⟨hrun, hfull, -⟩ := next_done hd
    obtain ⟨ha, -⟩ := (writes_iff s.tap).mp (next_running hr).1
    have hlen : (next s i).tap.wr.deserLength = s.tap.wr.deserLength := by
      show (writeArbiter s.tap (tapIn s i)).deserLength = _
      rw [writeArbiter_length, ha]
      rfl
    rw [hlen, (next_word hrun hfull).2]
    exact hfull
  -- receive_enable is low one cycle after the word is complete, and the word is loaded then
  loaded hd hr hen := by
    obtain ⟨hrun, hfull, -⟩ := next_done hd
    obtain ⟨hw, -⟩ := next_running hr
    have hen' : (writeArbiter s.tap (tapIn s i)).receiveEnable = false := hen
    rw [writeArbiter_receiveEnable, hw, Bool.true_and, Bool.not_eq_false'] at hen'
    rw [next_writeData i hw hen', (next_word hrun hfull).1]
  -- the answer of the bridge comes with the end of the delivery
  ack hack := by
    rw [next_ack, Bool.and_eq_true, Bool.and_eq_true] at hack
    obtain ⟨hidle, -, hd⟩ := hack
    constructor
    · show (writeArbiter s.tap (tapIn s i)).receiveEnable = false
      rw [writeArbiter_receiveEnable, hd, Bool.not_true, Bool.and_false]
    · unfold DmiUart.idle at hidle
      rw [Bool.and_eq_true, Bool.not_eq_true', Bool.not_eq_true'] at hidle
      show (DmiUart.next s.dmi (dmiIn s i)).doEnd = false
      rw [DmiUart.next_doEnd, hidle.1, hidle.2]
      rfl
  restart hd hr hdmi hidle := restart_next h hd hr hdmi hidle

/-! ## One cycle -/

theorem toDmi_iff (s : State) : toDmi s = true ↔ s.tap.wr.currentWriteAddress = ADDR_DMI := by
  rw [toDmi, beq_iff_eq]

/-- A word for the bridge that is no request has no addressee. -/
theorem deliveries_none {s : State} {w : BitVec WIDTH} (h : toDmi s = true)
    (hw : isRequest w = false) : deliveries s.tap.wr.currentWriteAddress w = [] := by
  rw [(toDmi_iff s).mp h, deliveries, if_pos rfl, hw]
  rfl

/-- What is owed after a cycle that has DONE, if nothing restarts the deserializer or acknowledges
    the word there. -/
theorem pending_next {s : State} {i : Input} (ha : acceptsWrite s.tap = false)
    (hd : (next s i).tap.deser.doneO = true) (hr : (next s i).tap.wr.deserReset = false)
    (hack : acknowledged (next s i) = false) :
    pending (next s i) = deliveries s.tap.wr.currentWriteAddress (word s) := by
  obtain ⟨hrun, hfull, -⟩ := next_done hd
  rw [pending, hd, hr, hack, next_address i ha, word, (next_word hrun hfull).1]
  rfl

/-- Nothing is owed for a deserializer that is being reset. -/
theorem pending_reset {s : State} (h : s.tap.wr.deserReset = true) : pending s = [] := by
  rw [pending, h, Bool.not_true, Bool.and_false, Bool.false_and]
  rfl

theorem next_reset_of_command {s : State} (i : Input) (h : acceptsWrite s.tap = true) :
    (next s i).tap.wr.deserReset = true := by
  show (writeArbiter s.tap (tapIn s i)).deserReset = true
  rw [writeArbiter_deserReset, writes, h]
  rfl

theorem next_reset_of_ready {s : State} {i : Input} (hd : s.tap.deser.doneO = true)
    (h : (mux s i).writeReadyO = true) : (next s i).tap.wr.deserReset = true := by
  show (writeArbiter s.tap (tapIn s i)).deserReset = true
  have hr : (tapIn s i).writeReadyI = true := h
  rw [writeArbiter_deserReset, hd, hr]
  simp

theorem next_keeps_running {s : State} {i : Input} (hw : writes s.tap = true)
    (h : (s.tap.deser.doneO && (mux s i).writeReadyO) = false) :
    (next s i).tap.wr.deserReset = false := by
  show (writeArbiter s.tap (tapIn s i)).deserReset = false
  have hr : (s.tap.deser.doneO && (tapIn s i).writeReadyI) = false := h
  rw [writeArbiter_deserReset, hw, hr]
  rfl

/-- DONE is raised, or not: the delivery that becomes owed is pending unless a command discards it. -/
theorem law_raise {s : State} {i : Input} (h : Inv s) (hd : s.tap.deser.doneO = false) :
    pending s ++ words s i = takes s i ++ pending (next s i) ↔ punctual s i = true := by
  have hp : pending s = [] := by rw [pending, hd]; rfl
  have ht : takes s i = [] := by rw [takes_eq, hd]; rfl
  have hdone : (next s i).tap.deser.doneO = finishing s := by
    show (RxDeserializer.next s.tap.deser (deserIn s.tap (tapIn s i))).doneO = _
    rw [RxDeserializer.next_doneO, hd, Bool.or_false, Bool.and_right_comm]
    rfl
  rw [hp, ht, List.nil_append, List.nil_append, words, punctual, hd, hdone]
  cases hf : finishing s
  · -- no word is complete: nothing is owed before or after
    have hn : pending (next s i) = [] := by rw [pending, hdone, hf]; rfl
    rw [hn]
    exact iff_of_true rfl rfl
  · rw [hf] at hdone
    -- a word is complete: it is owed in the next cycle
    obtain ⟨hrun, hfull, -⟩ := next_done hdone
    have hword : word (next s i) = word s := by rw [word, word, (next_word hrun hfull).1]
    rw [hword]
    cases ha : acceptsWrite s.tap
    · have hw : writes s.tap = true := (writes_iff s.tap).mpr ⟨ha, h.mode hrun⟩
      have hack : acknowledged (next s i) = false := by
        rw [acknowledged, next_ack, hd]
        simp
      rw [pending_next ha hdone (next_keeps_running hw (by rw [hd]; rfl)) hack]
      exact iff_of_true rfl rfl
    · -- a command resets the deserializer in the same cycle
      rw [pending_reset (next_reset_of_command i ha)]
      simp

/-- The cycle that restarts the deserializer: only an STB target can take the word again. -/
theorem law_restart {s : State} {i : Input} (h : Inv s) (hd : s.tap.deser.doneO = true)
    (hr : s.tap.wr.deserReset = true) :
    pending s ++ words s i = takes s i ++ pending (next s i) ↔ punctual s i = true := by
  have hnd : (next s i).tap.deser.doneO = false := by
    cases hn : (next s i).tap.deser.doneO
    · rfl
    · rw [(next_done hn).1] at hr; cases hr
  have hn : pending (next s i) = [] := by rw [pending, hnd]; rfl
  rw [pending_reset hr, hn, words, hd, takes_eq, hd, punctual, hd, hr, attentive]
  cases hdmi : toDmi s
  · cases (mux s i).writeReadyO
    · exact iff_of_true rfl rfl
    · show [] = deliveries s.tap.wr.currentWriteAddress (writeDataO s.tap) ++ [] ↔
        (deliveries s.tap.wr.currentWriteAddress (writeDataO s.tap) == []) = true
      rw [List.append_nil, beq_iff_eq, eq_comm]
  · cases hidle : DmiUart.idle s.dmi
    · exact iff_of_true rfl rfl
    · rw [h.restart hd hr hdmi hidle]
      exact iff_of_true rfl rfl

/-- The word is offered and the addressed target looks: it gets the word, unless this is the first
    cycle of DONE and the register still holds something else. -/
theorem law_taken {s : State} {i : Input} (h : Inv s) (hd : s.tap.deser.doneO = true)
    (hr : s.tap.wr.deserReset = false) (hack : acknowledged s = false)
    (hatt : attentive s i = true) :
    pending s ++ words s i = takes s i ++ pending (next s i) ↔ punctual s i = true := by
  have hn : pending (next s i) = [] := by
    unfold attentive at hatt
    cases hdmi : toDmi s
    · -- an STB target's ready restarts the deserializer
      rw [hdmi] at hatt
      exact pending_reset (next_reset_of_ready hd hatt)
    · rw [hdmi, if_pos rfl, Bool.and_eq_true] at hatt
      obtain ⟨hidle, hreq⟩ := hatt
      cases ha : acceptsWrite s.tap
      · -- the bridge has captured the word and will acknowledge it in the next cycle
        have hdmi' : toDmi (next s i) = true := by
          unfold toDmi at hdmi ⊢
          rw [next_address i ha]
          exact hdmi
        have hack' : acknowledged (next s i) = true := by
          rw [acknowledged, hdmi', next_ack, hidle, hdmi, hd,
            next_doRequest_idle i hidle hdmi hd, hreq]
          rfl
        rw [pending, hack', Bool.not_true, Bool.and_false]
        rfl
      · exact pending_reset (next_reset_of_command i ha)
  rw [hn, pending, takes_eq, words, punctual, hd, hr, hack, hatt]
  cases hen : s.tap.wr.receiveEnable
  · have hsame : writeDataO s.tap = word s := by rw [writeDataO, word, h.loaded hd hr hen]
    rw [hsame]
    exact iff_of_true (by simp) rfl
  · show deliveries s.tap.wr.currentWriteAddress (word s) ++ [] =
        deliveries s.tap.wr.currentWriteAddress (writeDataO s.tap) ++ [] ↔
      (deliveries s.tap.wr.currentWriteAddress (writeDataO s.tap)
        == deliveries s.tap.wr.currentWriteAddress (word s)) = true
    rw [List.append_nil, List.append_nil, beq_iff_eq, eq_comm]

/-- The bridge that does not capture the word does not acknowledge it either. -/
theorem not_acknowledged_next {s : State} {i : Input} (ha : acceptsWrite s.tap = false)
    (hd : s.tap.deser.doneO = true) (hatt : attentive s i = false) :
    acknowledged (next s i) = false := by
  cases hdmi : toDmi s
  · have hdmi' : toDmi (next s i) = false := by
      unfold toDmi at hdmi ⊢
      rw [next_address i ha]
      exact hdmi
    rw [acknowledged, hdmi']
    rfl
  · unfold attentive at hatt
    rw [hdmi, if_pos rfl] at hatt
    cases hidle : DmiUart.idle s.dmi
    · rw [acknowledged, next_ack, hidle]
      simp
    · rw [hidle, Bool.true_and] at hatt
      rw [acknowledged, next_doRequest_idle i hidle hdmi hd, hatt, Bool.and_false]

/-- A bridge that acknowledges a word it has not captured acknowledges one that is no request. -/
theorem acknowledged_no_request {s : State} {i : Input} (h : Inv s)
    (hd : s.tap.deser.doneO = true) (hr : s.tap.wr.deserReset = false)
    (hdmi : toDmi s = true) (hack : acknowledged s = false) (hatt : attentive s i = false)
    (hready : s.dmi.tapWriteReadyO = true) :
    deliveries s.tap.wr.currentWriteAddress (word s) = [] := by
  obtain ⟨hen, hend⟩ := h.ack hready
  have hnot : s.dmi.doRequest = false := by
    rw [acknowledged, hdmi, hready] at hack
    exact hack
  have hidle : DmiUart.idle s.dmi = true := by rw [DmiUart.idle, hnot, hend]; rfl
  unfold attentive at hatt
  rw [hdmi, if_pos rfl, hidle, Bool.true_and, writeDataO, h.loaded hd hr hen] at hatt
  exact deliveries_none hdmi hatt

/-- The word is offered and nobody looks: it stays owed, unless a command discards it. -/
theorem law_kept {s : State} {i : Input} (h : Inv s) (hd : s.tap.deser.doneO = true)
    (hr : s.tap.wr.deserReset = false) (hack : acknowledged s = false)
    (hatt : attentive s i = false) :
    pending s ++ words s i = takes s i ++ pending (next s i) ↔ punctual s i = true := by
  have hp : pending s = deliveries s.tap.wr.currentWriteAddress (word s) := by
    rw [pending, hd, hr, hack]
    rfl
  have ht : takes s i = [] := by
    rw [takes_eq, hatt, Bool.and_false]
    rfl
  have hw : words s i = [] := by
    rw [words, hd]
    rfl
  rw [hp, ht, hw, List.append_nil, List.nil_append, punctual, hd, hr, hack, hatt]
  cases ha : acceptsWrite s.tap
  · have hwrites : writes s.tap = true := (writes_iff s.tap).mpr ⟨ha, h.mode hr⟩
    refine iff_of_true ?_ rfl
    -- no command; the interconnect is ready or not
    cases hready : (mux s i).writeReadyO
    · -- not ready: the word stays on offer
      have hrun := next_keeps_running (i := i) hwrites (by rw [hready, Bool.and_false])
      have hdone : (next s i).tap.deser.doneO = true := by
        show (RxDeserializer.next s.tap.deser (deserIn s.tap (tapIn s i))).doneO = true
        rw [RxDeserializer.next_doneO]
        simp [deserIn, hr, hd, h.full hd hr]
      rw [pending_next ha hdone hrun (not_acknowledged_next ha hd hatt)]
    · rw [pending_reset (next_reset_of_ready hd hready)]
      -- ready, and nobody takes the word: it can only be the bridge, of a word that is no request
      cases hdmi : toDmi s
      · rw [attentive, hdmi] at hatt
        have hno : (mux s i).writeReadyO = false := hatt
        rw [hready] at hno
        cases hno
      · rw [mux_dmi i hdmi] at hready
        exact acknowledged_no_request h hd hr hdmi hack hatt hready
  · -- a command discards it, which loses nothing when the word is nothing to its target
    rw [pending_reset (next_reset_of_command i ha)]
    show deliveries s.tap.wr.currentWriteAddress (word s) = [] ↔
      (deliveries s.tap.wr.currentWriteAddress (word s) == []) = true
    rw [beq_iff_eq]

/-- The bridge acknowledges a word it has captured: nothing is owed, before or after. -/
theorem law_acknowledged {s : State} {i : Input} (hd : s.tap.deser.doneO = true)
    (hr : s.tap.wr.deserReset = false) (hack : acknowledged s = true) :
    pending s ++ words s i = takes s i ++ pending (next s i) ↔ punctual s i = true := by
  have hack' := hack
  rw [acknowledged, Bool.and_eq_true, Bool.and_eq_true] at hack'
  obtain ⟨⟨hdmi, hready⟩, hreq⟩ := hack'
  have hatt : attentive s i = false := by
    rw [attentive, hdmi, DmiUart.idle, hreq]
    rfl
  have hn : pending (next s i) = [] :=
    pending_reset (next_reset_of_ready hd (by rw [mux_dmi i hdmi]; exact hready))
  rw [pending, hack, hn, takes_eq, hatt, words, hd, punctual, hd, hr, hack]
  exact iff_of_true (by simp) rfl

/-- **The cycle law.**  A cycle balances the books exactly if it is punctual.  The cases are those of the
    deserializer: no word, a word being restarted, and a word on offer that its target has acknowledged, looks
    at, or leaves. -/
theorem law_iff_punctual (s : State) (i : Input) (h : Inv s) :
    pending s ++ words s i = takes s i ++ pending (next s i) ↔ punctual s i = true := by
  cases hd : s.tap.deser.doneO
  · exact law_raise h hd
  cases hr : s.tap.wr.deserReset
  · cases hack : acknowledged s
    · cases hatt : attentive s i
      · exact law_kept h hd hr hack hatt
      · exact law_taken h hd hr hack hatt
    · exact law_acknowledged hd hr hack
  · exact law_restart h hd hr

/-! ## Runs -/

/-- **Each word is delivered exactly once and unaltered — in punctual runs, and only there.**  For
    every run from reset: at every point of it the deliveries owed so far are those that have
    happened, in order and each once, followed by the one that is pending, if and only if every cycle
    of the run is punctual.  Nothing is pending once the deserializer is restarted. -/
theorem words_delivered_iff_punctual (s₀ : State) (is : List Input) :
    (∀ pre, pre <+: is →
      emitted next words (reset s₀) pre
        = emitted next takes (reset s₀) pre ++ pending (run next (reset s₀) pre)) ↔
    Always next (fun s i => punctual s i = true) (reset s₀) is :=
  emitted_conserved_iff (fun s i => punctual s i = true) words takes pending
    (fun s i hs => inv_next i hs) law_iff_punctual is (reset s₀) (inv_reset s₀)

/-- Ten cycles with the data symbol `b` at the head in the first, and held in the second. -/
def dataSymbol (b : Byte) : List Input :=
  { tapI := { dataRecI := b, rxEmptyI := false } } :: { tapI := { dataRecI := b } }
    :: List.replicate 8 {}

/-- A `CMD_WRITE` to the register `a` and the bytes that follow it. -/
def writeSymbols (a : Addr) (bytes : List Byte) : List Input :=
  { tapI := { dataRecI := symbolOf CMD_WRITE a, rxEmptyI := false, cmdRecI := true } }
    :: List.replicate 5 ({} : Input) ++ bytes.flatMap dataSymbol

/-- Two requests to the debug module under one `CMD_WRITE`. -/
def twoRequests : List Input :=
  writeSymbols ADDR_DMI ([0x06, 0, 0, 0, 0x40, 0] ++ [0x0A, 0, 0, 0, 0x44, 0])

/-- The bridge is idle again when the second word is offered and captures what `WRITE_DATA_O` still
    holds: the first request is made twice, the second never. -/
theorem second_request_lost :
    emitted next words (reset default) twoRequests
      = [.request ⟨16, 2, 1⟩, .request ⟨17, 2, 2⟩] ∧
    emitted next takes (reset default) twoRequests
      = [.request ⟨16, 2, 1⟩, .request ⟨16, 2, 1⟩] ∧
    pending (run next (reset default) twoRequests) = [] := by
  decide +kernel

end RiscDbgUart.WriteSide
