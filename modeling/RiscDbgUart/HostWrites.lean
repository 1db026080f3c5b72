/-
  A polite host's DMI writes, from the bytes on the receive side to the debug module.

  A host that leaves the hardware fifteen cycles between two bytes always finds it at rest: between
  two bytes the write path is in one of a few settled states, given by whether the last byte was an
  escape and by a `Stage`, the part of the current message that has been received.  From a settled
  state a byte leads to the next one in at most ten cycles; `shown_data`, `shown_last` and
  `shown_command` are the timelines, each computed cycle by cycle.  The rest is bookkeeping: the
  settled states follow the symbols that `Stuffing.decode` reads off the bytes, and a whole message
  leaves behind exactly its request.

  The timelines are computed and not argued: `bareStep` runs the write path alone and stops where the read
  arbiter or an STB target could matter, so that a timeline is an equation between two states, checked
  cycle by cycle.  What is general in them is the byte, the escape flag and the word collected so
  far; `bareIdle_trans` puts timelines one after the other.
-/
import RiscDbgUart.Clocked.Stuffing
import RiscDbgUart.HostWrite

set_option linter.unusedVariables false

namespace RiscDbgUart.HostWrite

open Clocked Stuffing DmiUartTap

/-! ## Settled states -/

/-- What has been received of the messages so far: nothing; a `CMD_WRITE` and `n` bytes of its word;
    or a whole message, whose word is still in `write_data`.  A polite host sends nothing else, so there are
    no other stages. -/
inductive Stage
  | fresh
  | writing (n : Nat) (got : BitVec MAX_BITS)
  | finished (w : BitVec MAX_BITS)

/-- The command symbol of a DMI write. -/
abbrev writeSymbol : Byte := symbolOf CMD_WRITE ADDR_DMI

/-- The request a word makes, if it makes one. -/
def requestsOf (w : BitVec WIDTH) : List DmiReq := if isRequest w then [DmiReq.ofWord w] else []

/-- A symbol of a polite host: a `CMD_WRITE` between two messages, or the next byte of a word; the
    sixth completes it. -/
def Stage.next : Stage → Symbol Byte → Option (Stage × List DmiReq)
  | .fresh, .command c => if c = writeSymbol then some (.writing 0 0, []) else none
  | .finished _, .command c => if c = writeSymbol then some (.writing 0 0, []) else none
  | .writing n got, .data b =>
    if n < 5 then some (.writing (n + 1) (setByte got (8 * n) b), [])
    else if n = 5 then
      some (.finished (setByte got 40 b), requestsOf ((setByte got 40 b).setWidth WIDTH))
    else none
  | _, _ => none

def Stage.run : Stage → List (Symbol Byte) → Option (Stage × List DmiReq)
  | st, [] => some (st, [])
  | st, sym :: syms => (st.next sym).bind fun p => (run p.1 syms).map fun q => (q.1, p.2 ++ q.2)

/-- The write path with the queue in front of `RX_Escape` empty and the read side at rest. -/
def bare (rx : RxEscape.State) (dec : CommandDecoder.State) (wr : WriteArbiter)
    (deser : RxDeserializer.State MAX_BITS) (dmi : DmiUart.State) : State :=
  { waiting := []
    rx := rx
    side :=
      { tap :=
          { dec := dec, deser := deser, wr := wr
            ser := TxSerializer.reset, rd := (DmiUartTap.reset default).rd }
        dmi := dmi }
    dm := DmCsrs.reset }

/-- The decoder after a DMI write. -/
def writeTaken : CommandDecoder.State := { state := .idle, addr := ADDR_DMI, cmd := CMD_WRITE }

/-- The write arbiter waiting for bytes.  `old` is what `write_data` was last loaded with. -/
def listening (old : BitVec MAX_BITS) : WriteArbiter :=
  { writeArbiterReady := false, currentWriteCommand := CMD_WRITE, currentWriteAddress := ADDR_DMI
    writeData := old, deserReset := false, deserRun := false, deserLength := 41
    receiveEnable := true }

/-- The deserializer with `n` bytes of a word. -/
def holding (n : Nat) (got : BitVec MAX_BITS) : RxDeserializer.State MAX_BITS :=
  { byteCount := 8 * n, doneO := false, busyO := !(n == 0), dataO := got }

/-- The bridge at rest after the request `req`. -/
def restDmi (req : DmiReq) : DmiUart.State := { DmiUart.reset with request := req }

/-- The settled state of a stage; `rx` is what `RX_Escape` holds.  Everything else is determined by the
    stage, but for the request that the bridge has sent last. -/
def settled (rx : RxEscape.State) (req : DmiReq) : Stage → State
  | .fresh =>
    bare rx CommandDecoder.reset (DmiUartTap.reset default).wr RxDeserializer.reset (restDmi req)
  | .writing n got => bare rx writeTaken (listening 0) (holding n got) (restDmi req)
  | .finished w => bare rx writeTaken (listening w) (holding 0 0) (restDmi req)

/-- `RX_Escape` between two bytes, after an escape byte or not. -/
def between : Bool → Byte → RxEscape.State
  | false, d => { state := .idle, data := d }
  | true, d => { state := .escape, data := d }

/-- A word has six bytes. -/
def Stage.Short : Stage → Prop
  | .writing n _ => n ≤ 5
  | _ => True

/-! ## Timelines -/

/-- The write path alone over `n` cycles in which nothing arrives: where it is then, and what it has accepted
    on the way. -/
def bareIdle (esc : Byte) : Nat → State → Option (State × List DmiReq)
  | 0, s => some (s, [])
  | n + 1, s => (bareStep esc s none).bind fun p =>
      (bareIdle esc n p.1).map fun q => (q.1, p.2 ++ q.2)

theorem bareIdle_step {esc : Byte} {n : Nat} {s s' s'' : State} {r r' : List DmiReq}
    (h : bareStep esc s none = some (s', r)) (h' : bareIdle esc n s' = some (s'', r')) :
    bareIdle esc (n + 1) s = some (s'', r ++ r') := by
  rw [bareIdle, h, Option.bind_some, h']
  rfl

theorem bareIdle_trans {esc : Byte} {n m : Nat} {s s' s'' : State} {r r' : List DmiReq}
    (h' : bareIdle esc n s' = some (s'', r')) (h : bareIdle esc m s = some (s', r)) :
    bareIdle esc (n + m) s = some (s'', r ++ r') := by
  induction m generalizing s r with
  -- the induction is on the first part
  | zero =>
    rw [bareIdle, Option.some.injEq, Prod.mk.injEq] at h
    obtain ⟨rfl, rfl⟩ := h
    exact h'
  | succ m ih =>
    rw [bareIdle] at h
    cases hs : bareStep esc s none with
    | none => rw [hs] at h; cases h
    | some p =>
      rw [hs, Option.bind_some] at h
      cases hm : bareIdle esc m p.1 with
      | none => rw [hm] at h; cases h
      | some q =>
        rw [hm, Option.map_some, Option.some.injEq, Prod.mk.injEq] at h
        obtain ⟨hq, rfl⟩ := h
        have hrec := ih (s := p.1) (r := q.2) (by rw [hm, ← hq])
        rw [List.append_assoc]
        exact bareIdle_step hs hrec

/-- A settled state stays while nothing arrives, however long that is. -/
theorem settled_rests (esc : Byte) (e : Bool) (d : Byte) (req : DmiReq) {st : Stage}
    (h : st.Short) :
    bareStep esc (settled (between e d) req st) none = some (settled (between e d) req st, []) := by
  cases st with
  | fresh => cases e <;> rfl
  | writing n got =>
    have hn : n ≤ 5 := h
    cases e <;> interval_cases n <;> rfl
  | finished w => cases e <;> rfl

/-- What `RX_Escape` holds after reading the byte `b`. -/
def arrived (esc : Byte) : Bool → Byte → RxEscape.State
  | false, b => { state := if b = esc then .escape else .data, data := b }
  | true, b => { state := if b = esc then .data else .command, data := b }

/-- A byte that arrives is read in the same cycle, and nothing else happens. -/
theorem settled_arrives (esc : Byte) (e : Bool) (d b : Byte) (req : DmiReq) {st : Stage}
    (h : st.Short) :
    bareStep esc (settled (between e d) req st) (some b)
      = some (settled (arrived esc e b) req st, []) := by
  cases st with
  | fresh => cases e <;> rfl
  | writing n got =>
    have hn : n ≤ 5 := h
    cases e <;> interval_cases n <;> rfl
  | finished w => cases e <;> rfl

/-- A byte of a word: read in the first cycle, stored in the second. -/
theorem shown_data (esc b : Byte) (got : BitVec MAX_BITS) (req : DmiReq) {n : Nat} (hn : n ≤ 5) :
    bareIdle esc 2 (settled { state := .data, data := b } req (.writing n got))
      = some (settled (between false b) req (.writing (n + 1) (setByte got (8 * n) b)), []) := by
  interval_cases n <;> rfl

/-- The write arbiter with a word in `write_data`, not receiving. -/
def offering (w : BitVec MAX_BITS) (deserReset : Bool) : WriteArbiter :=
  { listening w with deserReset := deserReset, receiveEnable := false }

/-- A full word in the deserializer, with DONE. -/
def full (w : BitVec MAX_BITS) : RxDeserializer.State MAX_BITS :=
  { byteCount := 48, doneO := true, busyO := true, dataO := w }

/-- The bridge while it acknowledges, with or without a request to make. -/
def acking (req : DmiReq) (doRequest : Bool) : DmiUart.State :=
  { restDmi req with tapWriteReadyO := true, doRequest := doRequest }

/-- After the sixth byte the deserializer raises DONE; then the arbiter puts the word on the bridge's
    port, and the bridge acknowledges the empty word it has seen in the cycle before. -/
theorem word_presented (esc b : Byte) (w : BitVec MAX_BITS) (req : DmiReq) :
    bareIdle esc 2 (settled (between false b) req (.writing 6 w))
      = some (bare (between false b) writeTaken (offering w false) (full w) (acking req false),
          []) := by
  rfl

/-- The bridge looks at the word: if it is a request, it takes it. -/
theorem bridge_looks (req : DmiReq) (w : BitVec WIDTH) :
    forgetDmi (DmiUart.next (acking req false) { tapWriteValidI := true, tapWriteDataI := w })
      = acking (if isRequest w then DmiReq.ofWord w else req) (isRequest w) := by
  by_cases h1 : (DmiReq.ofWord w).op = DTM_READ
  · simp [DmiUart.next, forgetDmi, acking, restDmi, DmiUart.reset, isRequest, h1]
  · by_cases h2 : (DmiReq.ofWord w).op = DTM_WRITE
    · simp [DmiUart.next, forgetDmi, acking, restDmi, DmiUart.reset, isRequest, h2]
    · have hb1 : ((DmiReq.ofWord w).op == DTM_READ) = false := beq_eq_false_iff_ne.mpr h1
      have hb2 : ((DmiReq.ofWord w).op == DTM_WRITE) = false := beq_eq_false_iff_ne.mpr h2
      simp only [DmiUart.next, forgetDmi, acking, restDmi, DmiUart.reset, isRequest, h1, h2, hb1, hb2]
      rfl

/-- The word is on the port, in the cycle that tells the deserializer to restart and, if the bridge
    has not taken it, in the cycle that restarts it. -/
theorem word_offered (esc b : Byte) (w : BitVec MAX_BITS) (req : DmiReq) (r : Bool) :
    bareStep esc (bare (between false b) writeTaken (offering w r) (full w)
        (acking req false)) none
      = some (bare (between false b) writeTaken (offering w true)
          (if r then holding 0 0 else full w)
          (acking (if isRequest (w.setWidth WIDTH) then DmiReq.ofWord (w.setWidth WIDTH) else req)
            (isRequest (w.setWidth WIDTH))), []) := by
  rw [← bridge_looks]
  cases r <;> rfl

/-- The bridge waits for the response of the request `req`, which is at the head of the queue. -/
def answering (b : Byte) (w : BitVec MAX_BITS) (req : DmiReq) : State :=
  { bare (between false b) writeTaken (listening w) (holding 0 0)
      { restDmi req with dmiRespReadyO := true, doEnd := true } with
    dm := { respQueue := [0] } }

/-- A request goes to the debug module, which accepts it two cycles later. -/
theorem request_taken (esc b : Byte) (w : BitVec MAX_BITS) (req : DmiReq) :
    bareIdle esc 2 (bare (between false b) writeTaken (offering w true) (full w) (acking req true))
      = some (answering b w req, [req]) := by
  rfl

/-- The response is taken and the bridge is at rest, after two cycles more. -/
theorem response_taken (esc b : Byte) (w : BitVec MAX_BITS) (req : DmiReq) :
    bareIdle esc 2 (answering b w req)
      = some (settled (between false b) req (.finished w), []) := by
  rfl

/-- A word that is no request, after the restart: nobody hears of it. -/
theorem word_dropped (esc b : Byte) (w : BitVec MAX_BITS) (req : DmiReq) :
    bareIdle esc 3 (bare (between false b) writeTaken (offering w true) (holding 0 0)
        (acking req false))
      = some (settled (between false b) req (.finished w), []) := by
  rfl

/-- The sixth byte of a word, the last: nine cycles take it to the debug module and the hardware back to a
    settled state. -/
theorem shown_last (esc b : Byte) (got : BitVec MAX_BITS) (req : DmiReq) :
    ∃ req', bareIdle esc 9 (settled { state := .data, data := b } req (.writing 5 got))
      = some (settled (between false b) req' (.finished (setByte got 40 b)),
          requestsOf ((setByte got 40 b).setWidth WIDTH)) := by
  have hsixth := bareIdle_trans (word_presented esc b _ req) (shown_data esc b got req le_rfl)
  generalize setByte got 40 b = w at hsixth ⊢
  have hlook := word_offered esc b w req false
  unfold requestsOf
  cases hr : isRequest (w.setWidth WIDTH)
  · have hagain := word_offered esc b w req true
    rw [hr, if_neg Bool.false_ne_true] at hlook hagain
    have hdrop := bareIdle_step hagain (word_dropped esc b w req)
    have hend := bareIdle_step hlook hdrop
    have hall := bareIdle_trans hend hsixth
    exact ⟨req, hall⟩
  · rw [hr, if_pos rfl] at hlook
    have hmade := bareIdle_trans (response_taken esc b w (DmiReq.ofWord (w.setWidth WIDTH)))
      (request_taken esc b w _)
    have hall := bareIdle_trans (bareIdle_step hlook hmade) hsixth
    exact ⟨DmiReq.ofWord (w.setWidth WIDTH), hall⟩

/-- The decoder latches the fields of the command, and `RX_Escape` is free again. -/
theorem command_latched (esc c : Byte) (req : DmiReq) {st : Stage}
    (h : st = .fresh ∨ ∃ w, st = .finished w) :
    ∃ wr, (wr = (DmiUartTap.reset default).wr ∨ ∃ w, wr = listening w) ∧
      bareStep esc (settled { state := .command, data := c } req st) none
        = some (bare { state := .idle, data := c }
            { state := .handover, addr := addrOf c, cmd := cmdOf c } wr RxDeserializer.reset
            (restDmi req), []) := by
  rcases h with rfl | ⟨w, rfl⟩
  · exact ⟨_, Or.inl rfl, rfl⟩
  · exact ⟨_, Or.inr ⟨w, rfl⟩, rfl⟩

/-- The write arbiter that has taken a command: `write_data` is clear, and the deserializer is being
    restarted. -/
def acknowledging : WriteArbiter := { offering 0 true with writeArbiterReady := true }

/-- The arbiter takes the command, whatever there is in `write_data`: it is the first one, or it has been
    listening. -/
theorem command_taken (esc : Byte) (req : DmiReq) {wr : WriteArbiter}
    (hwr : wr = (DmiUartTap.reset default).wr ∨ ∃ w, wr = listening w) :
    bareStep esc (bare (between false writeSymbol)
        { state := .handover, addr := ADDR_DMI, cmd := CMD_WRITE } wr RxDeserializer.reset
        (restDmi req)) none
      = some (bare (between false writeSymbol)
          { state := .handover, addr := ADDR_DMI, cmd := CMD_WRITE } acknowledging
          RxDeserializer.reset (restDmi req), []) := by
  rcases hwr with rfl | ⟨w, rfl⟩
  · rfl
  · rfl

/-- The decoder sees the acknowledge, and the arbiter takes it back in the next cycle. -/
theorem command_acknowledged (esc : Byte) (req : DmiReq) :
    bareIdle esc 2 (bare (between false writeSymbol)
        { state := .handover, addr := ADDR_DMI, cmd := CMD_WRITE } acknowledging
        RxDeserializer.reset (restDmi req))
      = some (bare (between false writeSymbol)
          { state := .waitAck, addr := ADDR_DMI, cmd := CMD_WRITE } (listening 0)
          RxDeserializer.reset (restDmi req), []) := by
  rfl

/-- The decoder goes idle behind the acknowledge, and the first byte of the word may come. -/
theorem command_left (esc : Byte) (req : DmiReq) :
    bareIdle esc 1 (bare (between false writeSymbol)
        { state := .waitAck, addr := ADDR_DMI, cmd := CMD_WRITE } (listening 0)
        RxDeserializer.reset (restDmi req))
      = some (settled (between false writeSymbol) req (.writing 0 0), []) := by
  rfl

/-- A `CMD_WRITE`: the decoder latches it, hands it over twice and waits for the acknowledge to go
    away; the arbiter clears `write_data` and restarts the deserializer. -/
theorem shown_command (esc : Byte) (req : DmiReq) {st : Stage}
    (h : st = .fresh ∨ ∃ w, st = .finished w) :
    bareIdle esc 5 (settled { state := .command, data := writeSymbol } req st)
      = some (settled (between false writeSymbol) req (.writing 0 0), []) := by
  obtain ⟨wr, hwr, hstep⟩ := command_latched esc writeSymbol req h
  rw [cmdOf_symbolOf, addrOf_symbolOf] at hstep
  have htaken := bareIdle_step (command_taken esc req hwr) (command_acknowledged esc req)
  exact bareIdle_step hstep (bareIdle_trans (command_left esc req) htaken)

end RiscDbgUart.HostWrite
