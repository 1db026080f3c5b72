/-
  The bridge `DMI_UART` on the debug module's registers.

  The bridge counts on the device: it takes a ready for the handshake it will make a cycle later, and it
  waits two cycles for a response, reading it in the first of them.  The registers answer in exactly
  that time.  An exchange is then four cycles long — the word is captured, the request put on the bus,
  accepted, and answered — and leaves nothing behind.

  What a run owes is one request at most: `asked` is the request that has been captured and not accepted,
  and `asked_law` is the conservation law of a cycle.  `exchanges_paired` sums it up over a run, and with it
  the answer that the bridge stores for a read (`Stored`), which is the one a later read of the TAP shows.
-/
import RiscDbgUart.Clocked.Machine
import RiscDbgUart.DmRegs

set_option linter.unusedVariables false

namespace RiscDbgUart.DmiPairing

open Clocked

variable {n w : Nat}

/-- The bridge, and the registers of the debug module with the response queue. -/
structure State (n : Nat) where
  dmi : DmiUart.State
  dm : DmRegs.State n
deriving DecidableEq, Repr

/-- The TAP's side of the bridge, and every pin of the registers that is not the DMI. -/
structure Input (n w : Nat) where
  tapReadReadyI : Bool
  tapWriteValidI : Bool
  tapWriteDataI : BitVec WIDTH
  dmI : DmRegs.Input n w

/-- What the bridge sees. -/
def dmiIn (s : State n) (i : Input n w) : DmiUart.Input :=
  { tapReadReadyI := i.tapReadReadyI
    tapWriteValidI := i.tapWriteValidI
    tapWriteDataI := i.tapWriteDataI
    dmiRespValidI := DmCsrs.dmiRespValidO s.dm.queue
    dmiRespI := DmCsrs.dmiRespO s.dm.queue
    dmiReqReadyI := DmCsrs.dmiReqReadyO s.dm.queue }

/-- What the registers see: the handshake of the bridge, and the rest of their inputs as they like. -/
def dmIn (s : State n) (i : Input n w) : DmRegs.Input n w :=
  { i.dmI with
    dmiReqValidI := s.dmi.dmiReqValidO
    dmiReqI := s.dmi.request
    dmiRespReadyI := s.dmi.dmiRespReadyO }

def reset : State n := { dmi := DmiUart.reset, dm := DmRegs.reset }

def next (p : BitVec n) (s : State n) (i : Input n w) : State n :=
  { dmi := DmiUart.next s.dmi (dmiIn s i)
    dm := DmRegs.next p s.dm (dmIn s i) }

/-- The request the bridge captures in the cycle. -/
def captured (s : State n) (i : Input n w) : List DmiReq :=
  if DmiUart.captures s.dmi (dmiIn s i) then [DmiReq.ofWord i.tapWriteDataI] else []

/-- The request the registers accept in the cycle, with the answer they compute for it in the same cycle. -/
def answered (s : State n) (i : Input n w) : List (DmiReq × BitVec 32) :=
  if DmRegs.accepts s.dm (dmIn s i) then
    [(s.dmi.request, (DmRegs.csrReadWrite s.dm (dmIn s i)).respQueueData)]
  else []

/-! ## The four phases of an exchange -/

/-- Nothing is going on: no flag, no valid, no response anywhere.  This is where an exchange begins and what
    it leaves behind. -/
structure AtRest (s : State n) : Prop where
  doRequest : s.dmi.doRequest = false
  doEnd : s.dmi.doEnd = false
  valid : s.dmi.dmiReqValidO = false
  doRead : s.dmi.doRead = false
  queue : s.dm.queue.respQueue = []

/-- The word has been captured.  From here to the end of the exchange `doRead` says whether it was a read. -/
structure Asking (s : State n) : Prop where
  doRequest : s.dmi.doRequest = true
  doEnd : s.dmi.doEnd = false
  valid : s.dmi.dmiReqValidO = false
  doRead : s.dmi.doRead = (s.dmi.request.op == DTM_READ)
  queue : s.dm.queue.respQueue = []

/-- The request is on the bus, and the registers accept it in this cycle, since the queue is empty. -/
structure Handing (s : State n) : Prop where
  doRequest : s.dmi.doRequest = false
  doEnd : s.dmi.doEnd = true
  valid : s.dmi.dmiReqValidO = true
  ready : s.dmi.dmiRespReadyO = false
  doRead : s.dmi.doRead = (s.dmi.request.op == DTM_READ)
  queue : s.dm.queue.respQueue = []

/-- Its answer `x` is in the queue and the bridge is ready for it, so this is the last cycle of the
    exchange. -/
structure Answering (x : BitVec 32) (s : State n) : Prop where
  doRequest : s.dmi.doRequest = false
  doEnd : s.dmi.doEnd = true
  valid : s.dmi.dmiReqValidO = false
  ready : s.dmi.dmiRespReadyO = true
  doRead : s.dmi.doRead = (s.dmi.request.op == DTM_READ)
  queue : s.dm.queue.respQueue = [x]

/-- No request is accepted without a valid. -/
theorem answered_silent {s : State n} (i : Input n w) (h : s.dmi.dmiReqValidO = false) :
    answered s i = [] := by
  unfold answered DmRegs.accepts
  have hv : (dmIn s i).dmiReqValidI = false := h
  rw [hv, Bool.and_false]
  rfl

/-- The queue after a cycle without a valid: it gets nothing, and may give its oldest answer. -/
theorem queue_silent (p : BitVec n) {s : State n} (i : Input n w)
    (h : s.dmi.dmiReqValidO = false) :
    (next p s i).dm.queue.respQueue
      = if s.dmi.dmiRespReadyO then s.dm.queue.respQueue.tail else s.dm.queue.respQueue := by
  show (DmCsrs.next s.dm.queue (DmRegs.queueIn s.dm (dmIn s i))).respQueue = _
  have hpush : DmCsrs.push s.dm.queue (DmRegs.queueIn s.dm (dmIn s i)) = false := by
    show (s.dmi.dmiReqValidO && _) = false
    rw [h, Bool.false_and]
  have hpop : DmCsrs.pop s.dm.queue (DmRegs.queueIn s.dm (dmIn s i))
      = (s.dmi.dmiRespReadyO && !s.dm.queue.respQueue.isEmpty) := rfl
  unfold DmCsrs.next
  rw [hpush, hpop]
  cases s.dmi.dmiRespReadyO <;> cases s.dm.queue.respQueue <;> simp

theorem captured_busy {s : State n} (i : Input n w) (h : DmiUart.idle s.dmi = false) :
    captured s i = [] := by
  rw [captured, DmiUart.captures_busy _ h]
  rfl

theorem atRest_next (p : BitVec n) {s : State n} (i : Input n w) (h : AtRest s) :
    answered s i = [] ∧ (next p s i).dmi.dmiResp = s.dmi.dmiResp ∧
      if DmiUart.captures s.dmi (dmiIn s i) then
        Asking (next p s i) ∧ (next p s i).dmi.request = DmiReq.ofWord i.tapWriteDataI
      else AtRest (next p s i) := by
  have hdmi : (next p s i).dmi = _ := DmiUart.next_idle (dmiIn s i) h.doRequest h.doEnd
  have hqueue : (next p s i).dm.queue.respQueue = [] := by
    rw [queue_silent p i h.valid, h.queue]
    simp
  refine ⟨answered_silent i h.valid, by rw [hdmi], ?_⟩
  -- a word is captured or not
  cases hc : DmiUart.captures s.dmi (dmiIn s i)
  · rw [hc] at hdmi
    refine ⟨?_, ?_, ?_, ?_, hqueue⟩
    · rw [hdmi]
    · rw [hdmi]
      exact h.doEnd
    · rw [hdmi]
    · rw [hdmi, h.doRead]
      rfl
  · rw [hc] at hdmi
    refine ⟨⟨?_, ?_, ?_, ?_, hqueue⟩, ?_⟩
    · rw [hdmi]
    · rw [hdmi]
      exact h.doEnd
    · rw [hdmi]
    · rw [hdmi, h.doRead]
      rfl
    · rw [hdmi]
      rfl

theorem asking_next (p : BitVec n) {s : State n} (i : Input n w) (h : Asking s) :
    captured s i = [] ∧ answered s i = [] ∧ Handing (next p s i) ∧
      (next p s i).dmi.request = s.dmi.request ∧ (next p s i).dmi.dmiResp = s.dmi.dmiResp := by
  have hdmi : (next p s i).dmi = _ := DmiUart.next_asking (dmiIn s i) h.doRequest
  have hready : (dmiIn s i).dmiReqReadyI = true := by
    show (!(s.dm.queue.respQueue.length == 2)) = true
    rw [h.queue]
    rfl
  have hqueue : (next p s i).dm.queue.respQueue = [] := by
    rw [queue_silent p i h.valid, h.queue]
    simp
  have hbusy : DmiUart.idle s.dmi = false := by
    rw [DmiUart.idle, h.doRequest]
    rfl
  rw [hready, h.doEnd] at hdmi
  refine ⟨captured_busy i hbusy, answered_silent i h.valid, ⟨?_, ?_, ?_, ?_, ?_, hqueue⟩, ?_, ?_⟩
  all_goals rw [hdmi]
  · rfl
  · rfl
  · exact h.doRead

theorem handing_next (p : BitVec n) {s : State n} (i : Input n w) (h : Handing s) :
    captured s i = [] ∧
      answered s i = [(s.dmi.request, (DmRegs.csrReadWrite s.dm (dmIn s i)).respQueueData)] ∧
      Answering (DmRegs.csrReadWrite s.dm (dmIn s i)).respQueueData (next p s i) ∧
      (next p s i).dmi.request = s.dmi.request ∧ (next p s i).dmi.dmiResp = s.dmi.dmiResp := by
  have hdmi : (next p s i).dmi = _ := DmiUart.next_handing (dmiIn s i) h.doRequest h.doEnd h.ready
  have hqueue : (next p s i).dm.queue.respQueue
      = [(DmRegs.csrReadWrite s.dm (dmIn s i)).respQueueData] := by
    show (DmCsrs.next s.dm.queue (DmRegs.queueIn s.dm (dmIn s i))).respQueue = _
    -- the queue of the answers is empty, so it has room
    have hpush : DmCsrs.push s.dm.queue (DmRegs.queueIn s.dm (dmIn s i)) = true := by
      show (s.dmi.dmiReqValidO && !(s.dm.queue.respQueue.length == 2)) = true
      rw [h.valid, h.queue]
      rfl
    unfold DmCsrs.next
    rw [hpush, h.queue, List.tail_nil, ite_self, if_pos rfl]
    rfl
  -- the request is accepted in this cycle, and answered in it
  have hacc : DmRegs.accepts s.dm (dmIn s i) = true := by
    show (!(s.dm.queue.respQueue.length == 2) && s.dmi.dmiReqValidO) = true
    rw [h.valid, h.queue]
    rfl
  have hbusy : DmiUart.idle s.dmi = false := by
    rw [DmiUart.idle, h.doEnd, Bool.not_true, Bool.and_false]
  have hanswered : answered s i
      = [(s.dmi.request, (DmRegs.csrReadWrite s.dm (dmIn s i)).respQueueData)] := by
    rw [answered, hacc]
    rfl
  refine ⟨captured_busy i hbusy, hanswered, ⟨?_, ?_, ?_, ?_, ?_, hqueue⟩, ?_, ?_⟩
  all_goals rw [hdmi]
  · exact h.doRequest
  · exact h.doEnd
  · exact h.doRead

theorem answering_next (p : BitVec n) {s : State n} {x : BitVec 32} (i : Input n w)
    (h : Answering x s) :
    captured s i = [] ∧ answered s i = [] ∧ AtRest (next p s i) ∧
      (next p s i).dmi.dmiResp = if s.dmi.request.op == DTM_READ then x else s.dmi.dmiResp := by
  have hdmi : (next p s i).dmi = _ :=
    DmiUart.next_answering (dmiIn s i) h.doRequest h.doEnd h.ready
  have hvalid : (dmiIn s i).dmiRespValidI = true := by
    show (!s.dm.queue.respQueue.isEmpty) = true
    rw [h.queue]
    rfl
  have hdata : (dmiIn s i).dmiRespI = x := by
    show s.dm.queue.respQueue.headD 0 = x
    rw [h.queue]
    rfl
  have hstores : DmiUart.stores s.dmi (dmiIn s i) = (s.dmi.request.op == DTM_READ) := by
    rw [DmiUart.stores_answering _ h.doRequest h.doEnd h.ready, hvalid, Bool.and_true, h.doRead]
  have hqueue : (next p s i).dm.queue.respQueue = [] := by
    rw [queue_silent p i h.valid, h.queue, h.ready]
    rfl
  have hbusy : DmiUart.idle s.dmi = false := by
    rw [DmiUart.idle, h.doEnd, Bool.not_true, Bool.and_false]
  rw [hstores, hdata, h.doRead, Bool.and_not_self] at hdmi
  refine ⟨captured_busy i hbusy, answered_silent i h.valid, ⟨?_, ?_, ?_, ?_, hqueue⟩, ?_⟩
  all_goals rw [hdmi]
  exact h.doRequest

/-! ## Whole runs -/

/-- The word captured and not yet accepted. -/
def asked (s : State n) : List DmiReq :=
  if s.dmi.doRequest || s.dmi.dmiReqValidO then [s.dmi.request] else []

/-- The answer to the last read of a list of answered requests. -/
def lastRead (answers : List (DmiReq × BitVec 32)) : BitVec 32 :=
  answers.foldl (fun d a => if a.1.op == DTM_READ then a.2 else d) 0

theorem lastRead_append (answers : List (DmiReq × BitVec 32)) (a : DmiReq × BitVec 32) :
    lastRead (answers ++ [a]) = if a.1.op == DTM_READ then a.2 else lastRead answers := by
  unfold lastRead
  rw [List.foldl_append]
  rfl

/-- One of the four phases. -/
def Paired (s : State n) : Prop := AtRest s ∨ Asking s ∨ Handing s ∨ ∃ x, Answering x s

theorem paired_next (p : BitVec n) (s : State n) (i : Input n w) (h : Paired s) :
    Paired (next p s i) := by
  rcases h with h | h | h | ⟨x, h⟩
  · obtain ⟨-, -, hn⟩ := atRest_next p i h
    split_ifs at hn
    · exact Or.inr (Or.inl hn.1)
    · exact Or.inl hn
  · exact Or.inr (Or.inr (Or.inl (asking_next p i h).2.2.1))
  · exact Or.inr (Or.inr (Or.inr ⟨_, (handing_next p i h).2.2.1⟩))
  · exact Or.inl (answering_next p i h).2.2.1

theorem paired_reset : Paired (reset : State n) := Or.inl ⟨rfl, rfl, rfl, rfl, rfl⟩

/-- What the phases say about a state on its own: at most one answer waits, and in an idle bridge nothing is
    left of the last exchange. -/
theorem paired_clean {s : State n} (h : Paired s) :
    s.dm.queue.respQueue.length ≤ 1 ∧
      (DmiUart.idle s.dmi = true →
        s.dmi.doRead = false ∧ s.dm.queue.respQueue = [] ∧ asked s = []) := by
  unfold DmiUart.idle asked
  rcases h with h | h | h | ⟨x, h⟩
  · rw [h.queue, h.doRequest, h.valid]
    exact ⟨Nat.zero_le _, fun _ => ⟨h.doRead, rfl, rfl⟩⟩
  · rw [h.queue, h.doRequest]
    exact ⟨Nat.zero_le _, fun hidle => absurd hidle (by simp)⟩
  · rw [h.queue, h.doEnd]
    exact ⟨Nat.zero_le _, fun hidle => absurd hidle (by simp)⟩
  · rw [h.queue, h.doEnd]
    exact ⟨Nat.le_refl _, fun hidle => absurd hidle (by simp)⟩

/-- A cycle moves the captured word to the registers, or leaves it with the bridge. -/
theorem asked_law (p : BitVec n) (s : State n) (i : Input n w) (h : Paired s) :
    asked s ++ captured s i = (answered s i).map Prod.fst ++ asked (next p s i) := by
  rcases h with h | h | h | ⟨x, h⟩
  · -- at rest: what is captured is asked next
    obtain ⟨hans, -, hn⟩ := atRest_next p i h
    have hasked : asked s = [] := by
      unfold asked
      rw [h.doRequest, h.valid]
      rfl
    rw [hans, hasked]
    unfold captured
    split_ifs at hn ⊢ with hc
    · unfold asked
      rw [hn.1.doRequest, hn.2]
      rfl
    · unfold asked
      rw [hn.doRequest, hn.valid]
      rfl
  · -- asked, and not taken yet
    obtain ⟨hcap, hans, hn, hword, -⟩ := asking_next p i h
    rw [hcap, hans]
    unfold asked
    rw [h.doRequest, hn.doRequest, hn.valid, hword]
    rfl
  · -- handed over, and answered
    obtain ⟨hcap, hans, hn, -, -⟩ := handing_next p i h
    rw [hcap, hans]
    unfold asked
    rw [h.doRequest, h.valid, hn.doRequest, hn.valid]
    rfl
  · -- the answer comes back: nothing is asked
    obtain ⟨hcap, hans, hn, -⟩ := answering_next p i h
    rw [hcap, hans]
    unfold asked
    rw [h.doRequest, h.valid, hn.doRequest, hn.valid]
    rfl

/-- Against the requests answered so far: the stored response is the answer to the last read, except
    while the last answer is still in the queue. -/
def Stored (answers : List (DmiReq × BitVec 32)) (s : State n) : Prop :=
  (s.dmi.dmiResp = lastRead answers ∧ (AtRest s ∨ Asking s ∨ Handing s)) ∨
  ∃ earlier x, answers = earlier ++ [(s.dmi.request, x)] ∧ s.dmi.dmiResp = lastRead earlier ∧
    Answering x s

theorem stored_next (p : BitVec n) (answers : List (DmiReq × BitVec 32)) (s : State n)
    (i : Input n w) (h : Stored answers s) : Stored (answers ++ answered s i) (next p s i) := by
  rcases h with ⟨hresp, h | h | h⟩ | ⟨earlier, x, rfl, hresp, h⟩
  · obtain ⟨hans, hkeep, hn⟩ := atRest_next p i h
    rw [hans, List.append_nil]
    refine Or.inl ⟨by rw [hkeep, hresp], ?_⟩
    split_ifs at hn
    · exact Or.inr (Or.inl hn.1)
    · exact Or.inl hn
  · obtain ⟨-, hans, hn, -, hkeep⟩ := asking_next p i h
    rw [hans, List.append_nil]
    exact Or.inl ⟨by rw [hkeep, hresp], Or.inr (Or.inr hn)⟩
  · obtain ⟨-, hans, hn, hword, hkeep⟩ := handing_next p i h
    rw [hans]
    refine Or.inr ⟨answers, _, ?_, by rw [hkeep, hresp], hn⟩
    rw [hword]
  · obtain ⟨-, hans, hn, hstore⟩ := answering_next p i h
    rw [hans, List.append_nil]
    refine Or.inl ⟨?_, Or.inl hn⟩
    rw [hstore, lastRead_append, hresp]

/-- **Requests and responses stay paired.**  In every state of every run the response queue holds at
    most one entry, and while the bridge is idle it is empty and no read is unanswered; the registers
    accept the captured words, each once and in order; and whenever no read is outstanding the stored
    response is what the registers computed for the last read they accepted. -/
theorem exchanges_paired (p : BitVec n) (is : List (Input n w)) :
    Throughout (next p)
      (fun s => s.dm.queue.respQueue.length ≤ 1 ∧
        (DmiUart.idle s.dmi = true →
          s.dmi.doRead = false ∧ s.dm.queue.respQueue = [] ∧ asked s = [])) reset is ∧
    emitted (next p) captured reset is
      = (emitted (next p) answered reset is).map Prod.fst ++ asked (run (next p) reset is) ∧
    ((run (next p) reset is).dmi.doRead = false →
      (run (next p) reset is).dmi.dmiResp = lastRead (emitted (next p) answered reset is)) := by
  refine ⟨?_, ?_, ?_⟩
  · exact throughout_of_step Paired _ _ (fun s i hs _ => paired_next p s i hs)
      (fun s hs => paired_clean hs) is reset paired_reset (always_true _ _ is)
  · rw [← emitted_map]
    exact emitted_conserved Paired captured _ asked (fun s i hs _ => paired_next p s i hs)
      (fun s i hs _ => asked_law p s i hs) is reset paired_reset (always_true _ _ is)
  · have hstart : Stored [] (reset : State n) :=
      Or.inl ⟨rfl, Or.inl ⟨rfl, rfl, rfl, rfl, rfl⟩⟩
    have hend := history_of_step Stored _ (fun h s i hs _ => stored_next p h s i hs) is [] reset hstart
      (always_true _ _ is)
    rw [List.nil_append] at hend
    intro hread
    rcases hend with ⟨hresp, -⟩ | ⟨earlier, x, hans, hresp, h⟩
    · exact hresp
    · -- the answer in the queue is a write's
      rw [h.doRead] at hread
      rw [hans, lastRead_append, hresp, hread]
      rfl

end RiscDbgUart.DmiPairing
