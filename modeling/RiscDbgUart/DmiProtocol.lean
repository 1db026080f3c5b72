/-
  The bridge `DMI_UART` on an arbitrary device.

  The protocol: a request is transmitted in a cycle in which its valid and the device's ready are both
  high, the device answers it some time later, and the response is transmitted in a cycle in which the
  response's valid and the bridge's ready are both high.  The bridge registers its valid and looks at
  ready a cycle early, and it waits for a response for two cycles only.  So it keeps to the protocol with
  the devices that show ready at the right moments and answer in time, and the condition is exact.

  A checker keeps, for the word captured last, what the bus did with it (`sent`, `answers`) and what the
  device showed (`waited`, `again`, `inTime`).

  An exchange goes through five phases, `AtRest`, `Asking`, `Handing`, `Answering` and `Closing`, of which
  the middle ones take one cycle each whatever the device does (`asking_next`, `handing_next`,
  `answering_next`).  So the registers of the bridge say which cycle of the exchange it is, and the
  checker has seen what the device has done up to there.  In the last phase the exchange is judged:
  `obeys_iff_suits` says that it kept to the protocol exactly when the device was one for this bridge, and
  `phased_next` carries that along a run.
-/
import RiscDbgUart.Clocked.Machine
import RiscDbgUart.DmiUart

set_option linter.unusedVariables false

namespace RiscDbgUart.DmiProtocol

open Clocked

/-! ## Any device -/

/-- The accepted requests whose response is not offered yet, and the response on offer.  A device is free to
    take its time, and free to be ready or not; what it offers stays until it is taken. -/
structure Device where
  waiting : Nat
  offered : Option (BitVec 32)
deriving DecidableEq, Repr

namespace Device

/-- The responses the device still owes. -/
def owed (d : Device) : Nat := d.waiting + d.offered.toList.length

/-- The response on the channel: one on offer stays, otherwise the device may offer `answer`. -/
def offer (d : Device) (answer : Option (BitVec 32)) : Option (BitVec 32) :=
  match d.offered with
  | some r => some r
  | none => if 0 < d.waiting then answer else none

/-- One cycle: `accept` a request, and hold the response unless it is taken. -/
def step (d : Device) (answer : Option (BitVec 32)) (accept take : Bool) : Device :=
  { waiting :=
      d.waiting + accept.toNat - (if d.offered.isNone && (d.offer answer).isSome then 1 else 0)
    offered := if take then none else d.offer answer }

theorem offer_none {d : Device} (answer : Option (BitVec 32)) (h : d.owed = 0) :
    d.offer answer = none := by
  unfold owed at h
  unfold offer
  cases ho : d.offered with
  | none =>
    have hw : ¬ 0 < d.waiting := by omega
    simp only [hw, if_false]
  | some r =>
    rw [ho] at h
    simp at h

/-- One response for each request: nothing is offered that is not owed, and what is taken is paid. -/
theorem owed_step (d : Device) (answer : Option (BitVec 32)) (accept take : Bool) :
    (d.step answer accept take).owed + (if take then (d.offer answer).toList.length else 0)
      = d.owed + accept.toNat := by
  unfold step owed offer
  cases ho : d.offered with
  | some r => cases take <;> simp <;> omega
  | none =>
    by_cases hw : 0 < d.waiting
    · cases answer <;> cases take <;> simp [hw] <;> omega
    · cases answer <;> cases take <;> simp [hw]

end Device

/-! ## The bridge and the device -/

structure State where
  dmi : DmiUart.State
  dev : Device
deriving DecidableEq, Repr

/-- The TAP's side, the device's ready, and the response it offers if it owes one. -/
structure Input where
  tapReadReadyI : Bool := false
  tapWriteValidI : Bool := false
  tapWriteDataI : BitVec WIDTH := 0
  dmiReqReadyI : Bool := false
  answer : Option (BitVec 32) := none

/-- The response on the channel. -/
def response (s : State) (i : Input) : Option (BitVec 32) := s.dev.offer i.answer

/-- The request is handed over. -/
def handsOver (s : State) (i : Input) : Bool := s.dmi.dmiReqValidO && i.dmiReqReadyI

/-- The response is taken. -/
def takes (s : State) (i : Input) : List (BitVec 32) :=
  if s.dmi.dmiRespReadyO then (response s i).toList else []

/-- What the bridge sees. -/
def dmiIn (s : State) (i : Input) : DmiUart.Input :=
  { tapReadReadyI := i.tapReadReadyI
    tapWriteValidI := i.tapWriteValidI
    tapWriteDataI := i.tapWriteDataI
    dmiRespValidI := (response s i).isSome
    dmiRespI := (response s i).getD 0
    dmiReqReadyI := i.dmiReqReadyI }

def reset : State := { dmi := DmiUart.reset, dev := { waiting := 0, offered := none } }

def next (s : State) (i : Input) : State :=
  { dmi := DmiUart.next s.dmi (dmiIn s i)
    dev := s.dev.step i.answer (handsOver s i) s.dmi.dmiRespReadyO }

/-! ## The checker -/

/-- What happened to the word captured last. -/
structure Exchange where
  isRead : Bool
  /-- cycles in which its request was handed over -/
  sent : Nat
  /-- responses taken since -/
  answers : List (BitVec 32)
  /-- the device's ready was low in a cycle of the request phase -/
  waited : Bool
  /-- ready in the cycle after the request phase -/
  again : Bool
  /-- a response was on the channel in the first cycle the bridge is ready for one -/
  inTime : Bool
deriving DecidableEq, Repr

/-- The exchange after the events of a cycle. -/
def Exchange.after (e : Exchange) (s : State) (i : Input) : Exchange :=
  { e with
    sent := e.sent + (handsOver s i).toNat
    answers := e.answers ++ takes s i
    waited := e.waited || (s.dmi.doRequest && !i.dmiReqReadyI)
    again :=
      if !s.dmi.doRequest && s.dmi.doEnd && !s.dmi.dmiRespReadyO then i.dmiReqReadyI else e.again
    inTime := if DmiUart.lastChance s.dmi then (response s i).isSome else e.inTime }

/-- A captured word starts a new exchange; every other cycle is part of the one before. -/
def see (m : Option Exchange) (s : State) (i : Input) : Option Exchange :=
  if DmiUart.captures s.dmi (dmiIn s i) then
    some
      { isRead := (DmiReq.ofWord i.tapWriteDataI).op == DTM_READ, sent := 0, answers := []
        waited := false, again := false, inTime := false }
  else m.map fun e => e.after s i

abbrev Watched := Option Exchange × State

abbrev step : Watched → Input → Watched := watched next see

/-- The word was handed over in exactly one cycle and exactly one response was taken for it; if it was a
    read, nothing is outstanding and the response is what the TAP is offered.  This is the protocol, for one
    exchange that is over. -/
def Exchange.Done (e : Exchange) (s : State) : Prop :=
  e.sent = 1 ∧ e.answers.length = 1 ∧
    (e.isRead = true → DmiUart.outstanding s.dmi = false ∧ e.answers = [s.dmi.dmiResp])

/-- Whenever the bridge is idle, the exchange before is done; a response taken in the cycle counts. -/
def Obeys (z : Watched) (i : Input) : Prop :=
  DmiUart.idle z.2.dmi = true → ∀ e, z.1 = some e → (e.after z.2 i).Done z.2

/-- When the exchange is over, the device has been ready either in the first cycle of the request phase
    and again in the next, or later than in the first cycle and not again in the next; and its response
    was there in the first cycle the bridge was ready for it, or, to a write, is there in the second. -/
def Suits (z : Watched) (i : Input) : Prop :=
  DmiUart.idle z.2.dmi = true → z.2.dmi.dmiRespReadyO = true → ∀ e, z.1 = some e →
    e.again = (!e.waited) ∧
      (e.inTime = true ∨ (e.isRead = false ∧ (response z.2 i).isSome = true))

/-! ## The phases of an exchange -/

/-- No exchange is under way, and the last one is done. -/
structure AtRest (m : Option Exchange) (s : State) : Prop where
  doRequest : s.dmi.doRequest = false
  doEnd : s.dmi.doEnd = false
  valid : s.dmi.dmiReqValidO = false
  ready : s.dmi.dmiRespReadyO = false
  doRead : s.dmi.doRead = false
  owed : s.dev.owed = 0
  done : ∀ e, m = some e → e.Done s

/-- The request phase: the valid is up from its second cycle on.  In that cycle the device may see it, and
    hand the request over a first time. -/
structure Asking (e : Exchange) (s : State) : Prop where
  doRequest : s.dmi.doRequest = true
  doEnd : s.dmi.doEnd = false
  valid : s.dmi.dmiReqValidO = e.waited
  ready : s.dmi.dmiRespReadyO = false
  doRead : s.dmi.doRead = e.isRead
  owed : s.dev.owed = 0
  sent : e.sent = 0
  answers : e.answers = []

/-- The cycle after it, in which the valid is up once more.  This is the cycle in which a request should be
    handed over, and the bridge does not look at ready in it. -/
structure Handing (e : Exchange) (s : State) : Prop where
  doRequest : s.dmi.doRequest = false
  doEnd : s.dmi.doEnd = true
  valid : s.dmi.dmiReqValidO = true
  ready : s.dmi.dmiRespReadyO = false
  doRead : s.dmi.doRead = e.isRead
  owed : s.dev.owed = e.sent
  sent : e.sent = e.waited.toNat
  answers : e.answers = []

/-- The first cycle the bridge is ready for a response, and the only one in which it looks. -/
structure Answering (e : Exchange) (s : State) : Prop where
  doRequest : s.dmi.doRequest = false
  doEnd : s.dmi.doEnd = true
  valid : s.dmi.dmiReqValidO = false
  ready : s.dmi.dmiRespReadyO = true
  doRead : s.dmi.doRead = e.isRead
  owed : s.dev.owed = e.sent
  sent : e.sent = e.waited.toNat + e.again.toNat
  answers : e.answers = []

/-- The second: the bridge is idle, and still ready.  A response that comes now is taken and not stored. -/
structure Closing (e : Exchange) (s : State) : Prop where
  doRequest : s.dmi.doRequest = false
  doEnd : s.dmi.doEnd = false
  valid : s.dmi.dmiReqValidO = false
  ready : s.dmi.dmiRespReadyO = true
  doRead : s.dmi.doRead = (e.isRead && !e.inTime)
  owed : s.dev.owed + e.answers.length = e.sent
  sent : e.sent = e.waited.toNat + e.again.toNat
  inTime : e.answers.length = e.inTime.toNat
  stored : e.isRead = true → e.inTime = true → e.answers = [s.dmi.dmiResp]

theorem next_owed (s : State) (i : Input) :
    (next s i).dev.owed + (takes s i).length = s.dev.owed + (handsOver s i).toNat := by
  have h := Device.owed_step s.dev i.answer (handsOver s i) s.dmi.dmiRespReadyO
  unfold takes response
  rw [← h]
  split_ifs <;> rfl

/-- Outside the idle states nothing is captured. -/
theorem see_busy {m : Option Exchange} {s : State} (i : Input) (h : DmiUart.idle s.dmi = false) :
    see m s i = m.map fun e => e.after s i := by
  rw [see, DmiUart.captures_busy _ h]
  rfl

theorem asking_next {e : Exchange} {s : State} (i : Input) (h : Asking e s) :
    Asking (e.after s i) (next s i) ∨ Handing (e.after s i) (next s i) := by
  have hdmi : (next s i).dmi = _ := DmiUart.next_asking (dmiIn s i) h.doRequest
  have hin : (dmiIn s i).dmiReqReadyI = i.dmiReqReadyI := rfl
  have howed := next_owed s i
  have htakes : takes s i = [] := by
    rw [takes, h.ready]
    rfl
  have hover : handsOver s i = (e.waited && i.dmiReqReadyI) := by
    rw [handsOver, h.valid]
  have hanswers : (e.after s i).answers = [] := by
    simp [Exchange.after, htakes, h.answers]
  rw [hin, h.doEnd, Bool.false_or] at hdmi
  rw [htakes, h.owed, hover] at howed
  cases hr : i.dmiReqReadyI
  · -- the request phase goes on, with the valid up
    rw [hr] at hdmi howed
    have hsent : (e.after s i).sent = 0 := by
      simp [Exchange.after, hover, hr, h.sent]
    have hwaited : (e.after s i).waited = true := by
      simp [Exchange.after, h.doRequest, hr]
    left
    refine ⟨?_, ?_, ?_, ?_, ?_, by simpa using howed, hsent, hanswers⟩
    all_goals rw [hdmi]
    · rfl
    · exact hwaited.symm
    · exact h.doRead
  · rw [hr] at hdmi howed
    have hsent : (e.after s i).sent = e.waited.toNat := by
      simp [Exchange.after, hover, hr, h.sent]
    have hwaited : (e.after s i).waited = e.waited := by
      simp [Exchange.after, hr]
    right
    refine ⟨?_, ?_, ?_, ?_, ?_, ?_, by rw [hsent, hwaited], hanswers⟩
    · rw [hdmi]
      rfl
    · rw [hdmi]
    · rw [hdmi]
    · rw [hdmi]
    · rw [hdmi]
      exact h.doRead
    · rw [hsent]
      simpa using howed

theorem handing_next {e : Exchange} {s : State} (i : Input) (h : Handing e s) :
    Answering (e.after s i) (next s i) := by
  have hdmi : (next s i).dmi = _ := DmiUart.next_handing (dmiIn s i) h.doRequest h.doEnd h.ready
  have howed := next_owed s i
  have htakes : takes s i = [] := by
    rw [takes, h.ready]
    rfl
  -- the request is handed over in this cycle or never: valid is up for one cycle
  have hover : handsOver s i = i.dmiReqReadyI := by
    rw [handsOver, h.valid, Bool.true_and]
  rw [htakes, h.owed, hover] at howed
  refine ⟨?_, ?_, ?_, ?_, ?_, ?_, ?_, ?_⟩
  · rw [hdmi]
    exact h.doRequest
  · rw [hdmi]
    exact h.doEnd
  · rw [hdmi]
  · rw [hdmi]
  · rw [hdmi]
    exact h.doRead
  · rw [Exchange.after, hover]
    exact howed
  · simp [Exchange.after, hover, h.sent, h.doRequest, h.doEnd, h.ready]
  · simp [Exchange.after, htakes, h.answers]

theorem answering_next {e : Exchange} {s : State} (i : Input) (h : Answering e s) :
    Closing (e.after s i) (next s i) := by
  have hdmi : (next s i).dmi = _ :=
    DmiUart.next_answering (dmiIn s i) h.doRequest h.doEnd h.ready
  have hlast : DmiUart.lastChance s.dmi = true := by
    rw [DmiUart.lastChance, h.doRequest, h.doEnd, h.ready]
    rfl
  -- this is the last cycle in which the bridge takes an answer
  have hstores : DmiUart.stores s.dmi (dmiIn s i) = (e.isRead && (response s i).isSome) := by
    rw [DmiUart.stores_answering _ h.doRequest h.doEnd h.ready, h.doRead]
    rfl
  have howed := next_owed s i
  have htakes : takes s i = (response s i).toList := by
    rw [takes, h.ready]
    rfl
  have hover : handsOver s i = false := by
    rw [handsOver, h.valid, Bool.false_and]
  have hanswers : (e.after s i).answers = (response s i).toList := by
    simp [Exchange.after, htakes, h.answers]
  have hintime : (e.after s i).inTime = (response s i).isSome := by
    simp [Exchange.after, hlast]
  rw [hstores] at hdmi
  rw [h.owed, hover, htakes] at howed
  refine ⟨?_, ?_, ?_, ?_, ?_, ?_, ?_, ?_, ?_⟩
  · rw [hdmi]
    exact h.doRequest
  · rw [hdmi]
  · rw [hdmi]
  · rw [hdmi]
    exact h.ready
  · rw [hdmi, h.doRead, hintime]
    show _ = (e.isRead && _)
    cases e.isRead <;> cases (response s i).isSome <;> rfl
  · rw [hanswers]
    simpa [Exchange.after, hover] using howed
  · simp [Exchange.after, hover, h.sent, h.ready, h.doRequest]
  · rw [hanswers, hintime]
    cases response s i <;> rfl
  · intro hisRead htime
    have hisRead' : e.isRead = true := hisRead
    rw [hintime] at htime
    obtain ⟨r, hr⟩ := Option.isSome_iff_exists.mp htime
    have hdata : (dmiIn s i).dmiRespI = (response s i).getD 0 := rfl
    rw [hanswers, hdmi, hisRead', hdata, hr]
    rfl

/-- Before a capture, and without one: a capture starts a new exchange, and otherwise the bridge rests,
    whatever it was ready for. -/
theorem idle_next {s : State} (i : Input) (hidle : DmiUart.idle s.dmi = true)
    (hread : s.dmi.doRead = false) (howed : (next s i).dev.owed = 0) (m : Option Exchange)
    (hdone : ∀ e, m = some e → (e.after s i).Done s) :
    (∃ e, see m s i = some e ∧ Asking e (next s i)) ∨ AtRest (see m s i) (next s i) := by
  have hflags : s.dmi.doRequest = false ∧ s.dmi.doEnd = false := by
    unfold DmiUart.idle at hidle
    simpa using hidle
  have hdmi : (next s i).dmi = _ := DmiUart.next_idle (dmiIn s i) hflags.1 hflags.2
  rw [hread, Bool.false_or] at hdmi
  unfold see
  cases hc : DmiUart.captures s.dmi (dmiIn s i)
  · -- nothing is captured: the last exchange is over, whatever it was
    right
    rw [hc] at hdmi
    refine ⟨?_, ?_, ?_, ?_, ?_, howed, ?_⟩
    · rw [hdmi]
    · rw [hdmi]
      exact hflags.2
    · rw [hdmi]
    · rw [hdmi]
    · rw [hdmi]
      rfl
    · intro e he
      simp only [Bool.false_eq_true, if_false, Option.map_eq_some_iff] at he
      obtain ⟨e', he', rfl⟩ := he
      obtain ⟨hsent, hlen, hdata⟩ := hdone e' he'
      refine ⟨hsent, hlen, fun hisRead => ?_⟩
      rw [hdmi]
      exact ⟨rfl, (hdata hisRead).2⟩
  · -- a word is captured, and a new exchange begins
    left
    rw [hc] at hdmi
    refine ⟨_, rfl, ⟨?_, ?_, ?_, ?_, ?_, howed, rfl, rfl⟩⟩
    · rw [hdmi]
    · rw [hdmi]
      exact hflags.2
    · rw [hdmi]
    · rw [hdmi]
    · rw [hdmi]
      rfl

/-- At the end of an exchange what the device showed says whether the exchange is done. -/
theorem closing_done_iff {e : Exchange} {s : State} (i : Input) (h : Closing e s) :
    (e.after s i).Done s ↔
      e.again = (!e.waited) ∧
        (e.inTime = true ∨ (e.isRead = false ∧ (response s i).isSome = true)) := by
  have hsent : (e.after s i).sent = e.waited.toNat + e.again.toNat := by
    simp [Exchange.after, handsOver, h.valid, h.sent]
  have hanswers : (e.after s i).answers = e.answers ++ (response s i).toList := by
    simp [Exchange.after, takes, h.ready]
  have hisRead : (e.after s i).isRead = e.isRead := rfl
  have hout : DmiUart.outstanding s.dmi = (e.isRead && !e.inTime) := by
    unfold DmiUart.outstanding
    rw [h.doRead, h.doRequest, Bool.or_false]
  have honce : e.waited.toNat + e.again.toNat = 1 ↔ e.again = !e.waited := by
    cases e.waited <;> cases e.again <;> simp
  unfold Exchange.Done
  rw [hsent, hanswers, hisRead, hout, honce]
  refine and_congr_right fun hsw => ?_
  have hpaid := h.owed
  rw [h.sent, honce.mpr hsw, h.inTime] at hpaid
  cases ht : e.inTime
  · -- nothing has been taken yet
    have hnil : e.answers = [] := List.length_eq_zero_iff.mp (by rw [h.inTime, ht]; rfl)
    rw [hnil, List.nil_append]
    cases e.isRead <;> cases response s i <;> simp
  · -- the response has been taken, and no other is owed
    have hnone : response s i = none := by
      unfold response
      refine Device.offer_none _ ?_
      rw [ht] at hpaid
      simpa using hpaid
    have hlen := h.inTime
    rw [ht] at hlen
    have hstored := h.stored
    rw [ht] at hstored
    rw [hnone]
    simp only [Option.toList_none, List.append_nil, hlen, Bool.not_true, Bool.and_false]
    simp only [Bool.toNat_true, true_and, true_or, iff_true]
    exact fun hr => hstored hr rfl

/-! ## Whole runs -/

/-- The phases, with everything before the current exchange done.  An exchange that went wrong leaves them,
    and a run that does so is one that does not keep to the protocol. -/
def Phased (z : Watched) : Prop :=
  AtRest z.1 z.2 ∨
    ∃ e, z.1 = some e ∧ (Asking e z.2 ∨ Handing e z.2 ∨ Answering e z.2 ∨ Closing e z.2)

/-- In every phase the bridge obeys the protocol in a cycle exactly when the device suits it. -/
theorem obeys_iff_suits (z : Watched) (i : Input) (h : Phased z) : Obeys z i ↔ Suits z i := by
  obtain ⟨m, s⟩ := z
  have hbusy : DmiUart.idle s.dmi = false → (Obeys (m, s) i ↔ Suits (m, s) i) := by
    intro hb
    unfold Obeys Suits
    rw [hb]
    simp
  rcases h with (h : AtRest m s) | ⟨e, (hm : m = some e),
    (h : Asking e s) | (h : Handing e s) | (h : Answering e s) | (h : Closing e s)⟩
  · -- at rest: nothing has happened to a done exchange
    unfold Obeys Suits
    rw [h.ready]
    simp only [Bool.false_eq_true, false_imp_iff, implies_true, iff_true]
    intro _ e he
    obtain ⟨hsent, hlen, hdata⟩ := h.done e he
    refine ⟨?_, ?_, ?_⟩
    · simp [Exchange.after, handsOver, h.valid, hsent]
    · simp [Exchange.after, takes, h.ready, hlen]
    · intro hr
      obtain ⟨hout, hans⟩ := hdata hr
      exact ⟨hout, by simp [Exchange.after, takes, h.ready, hans]⟩
  · exact hbusy (by unfold DmiUart.idle; rw [h.doRequest]; rfl)
  · exact hbusy (by unfold DmiUart.idle; rw [h.doEnd]; simp)
  · exact hbusy (by unfold DmiUart.idle; rw [h.doEnd]; simp)
  · have hidle : DmiUart.idle s.dmi = true := by
      unfold DmiUart.idle
      rw [h.doRequest, h.doEnd]
      rfl
    unfold Obeys Suits
    rw [hm]
    simp only [hidle, h.ready, Option.some.injEq, forall_eq', true_imp_iff]
    exact closing_done_iff i h

theorem atRest_next {m : Option Exchange} {s : State} (i : Input) (h : AtRest m s)
    (hdone : ∀ e, m = some e → (e.after s i).Done s) :
    (∃ e, see m s i = some e ∧ Asking e (next s i)) ∨ AtRest (see m s i) (next s i) := by
  have hidle : DmiUart.idle s.dmi = true := by
    rw [DmiUart.idle, h.doRequest, h.doEnd]
    rfl
  have howed : (next s i).dev.owed = 0 := by
    have hpaid := next_owed s i
    rw [h.owed, handsOver, h.valid, Bool.false_and] at hpaid
    exact (Nat.add_eq_zero_iff.mp hpaid).1
  exact idle_next i hidle h.doRead howed m hdone

/-- An exchange that is done leaves nothing behind. -/
theorem closing_next {e : Exchange} {s : State} (i : Input) (h : Closing e s)
    (hdone : (e.after s i).Done s) :
    (∃ e', see (some e) s i = some e' ∧ Asking e' (next s i)) ∨
      AtRest (see (some e) s i) (next s i) := by
  have hidle : DmiUart.idle s.dmi = true := by
    rw [DmiUart.idle, h.doRequest, h.doEnd]
    rfl
  obtain ⟨hsw, htime⟩ := (closing_done_iff i h).mp hdone
  -- a read that was answered in time waits for nothing
  have hread : s.dmi.doRead = false := by
    rw [h.doRead]
    rcases htime with ht | ⟨hw, -⟩
    · rw [ht, Bool.not_true, Bool.and_false]
    · rw [hw, Bool.false_and]
  -- one request was sent and one answer taken, so the device owes none
  have howed : (next s i).dev.owed = 0 := by
    have hpaid := next_owed s i
    have hlen : (e.after s i).answers.length = 1 := hdone.2.1
    have hsent : (e.after s i).sent = 1 := hdone.1
    have hold := h.owed
    simp only [Exchange.after, List.length_append] at hlen hsent
    omega
  refine idle_next i hidle hread howed (some e) fun e' he' => ?_
  rw [← Option.some.inj he']
  exact hdone

/-- A cycle in which the device suits the bridge leads on to the next phase. -/
theorem phased_next (z : Watched) (i : Input) (h : Phased z) (hsuits : Suits z i) :
    Phased (step z i) := by
  have hobeys := (obeys_iff_suits z i h).mpr hsuits
  obtain ⟨m, s⟩ := z
  show Phased (see m s i, next s i)
  -- one case for each phase; what the device may do wrong is in the first and the last
  rcases h with (h : AtRest m s) | ⟨e, (hm : m = some e),
    (h : Asking e s) | (h : Handing e s) | (h : Answering e s) | (h : Closing e s)⟩
  · have hidle : DmiUart.idle s.dmi = true := by
      rw [DmiUart.idle, h.doRequest, h.doEnd]
      rfl
    rcases atRest_next i h (hobeys hidle) with ⟨e, he, ha⟩ | hr
    · exact Or.inr ⟨e, he, Or.inl ha⟩
    · exact Or.inl hr
  · rw [hm, see_busy i (by rw [DmiUart.idle, h.doRequest]; rfl)]
    rcases asking_next i h with ha | ha
    · exact Or.inr ⟨_, rfl, Or.inl ha⟩
    · exact Or.inr ⟨_, rfl, Or.inr (Or.inl ha)⟩
  · rw [hm, see_busy i (by rw [DmiUart.idle, h.doEnd]; simp)]
    exact Or.inr ⟨_, rfl, Or.inr (Or.inr (Or.inl (handing_next i h)))⟩
  · rw [hm, see_busy i (by rw [DmiUart.idle, h.doEnd]; simp)]
    exact Or.inr ⟨_, rfl, Or.inr (Or.inr (Or.inr (answering_next i h)))⟩
  · have hidle : DmiUart.idle s.dmi = true := by
      rw [DmiUart.idle, h.doRequest, h.doEnd]
      rfl
    rw [hm]
    rcases closing_next i h (hobeys hidle e hm) with ⟨e', he', ha⟩ | hr
    · exact Or.inr ⟨e', he', Or.inl ha⟩
    · exact Or.inl hr

theorem phased_reset : Phased (none, reset) :=
  Or.inl ⟨rfl, rfl, rfl, rfl, rfl, rfl, fun _ he => nomatch he⟩

/-- **The protocol, exactly.**  In every run of the bridge on a device, from reset, every captured word
    is handed over once and answered once, a read with the data the TAP is then offered, if and only if
    the device suits the bridge in every exchange. -/
theorem protocol_iff (is : List Input) :
    Always step Obeys (none, reset) is ↔ Always step Suits (none, reset) is :=
  always_iff_always Phased phased_next obeys_iff_suits is (none, reset) phased_reset

/-- A device whose ready goes away in the cycle in which the valid appears: the word is never handed
    over, and the bridge is idle again. -/
theorem word_lost : ¬ Always step Obeys (none, reset)
    [{ tapWriteValidI := true, tapWriteDataI := 2 }, { dmiReqReadyI := true }, {}, {}, {}] := by
  rintro ⟨-, -, -, -, hidle, -⟩
  have hdone := hidle rfl _ rfl
  exact absurd hdone.1 (by decide)

end RiscDbgUart.DmiProtocol
