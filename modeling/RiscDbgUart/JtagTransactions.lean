/-
  DMI transactions over JTAG.

  Whatever the host does with `TMS` and `TDI`, and however long the channel to the debug module takes:
  an update of the DMI register that finds the state machine idle and no error sends its operation once;
  every other one sends nothing and leaves the busy error, which stays until it is cleared; and a
  capture that reports no error behind a read finds the answer of that read.

  A ledger is kept beside the machine: the operations that were taken, how many of them the channel has
  taken over, and the answers it has given.  The channel carries both ways in order, so the answer at a
  place in the list of answers is that to the operation at the same place.  What makes the last part
  true is that the machine is idle exactly while the two lists are of one length.

  `Balanced` is the invariant on ledger and machine together, with a lemma for each kind of edge:
  `balanced_idle` where an operation may be taken, `balanced_request` while a request waits for the
  channel, `balanced_unanswered` and `balanced_answered` while its answer is waited for.
  `exact_of_balanced` reads off it what an edge owes the host.
-/
import RiscDbgUart.DmiJtag

set_option linter.unusedVariables false

namespace RiscDbgUart.DmiJtag

open Clocked

/-! ## Operations, requests and answers -/

/-- The update names an operation. -/
def namesOp (s : State) : Bool := (dmi s).op == DTM_READ || (dmi s).op == DTM_WRITE

/-- The operation that an update asks for, if it finds the state machine idle and no error. -/
def issued (s : State) (i : Input) : List DmiReq :=
  if takes s && namesOp s then [dmi s] else []

/-- The request that the channel takes over in the cycle. -/
def sent (s : State) (i : Input) : List DmiReq :=
  if dmiReqValid s && i.dmiReqReadyI then [dmiReq s] else []

/-- The request that the channel has not taken over yet. -/
def waiting (s : State) : List DmiReq := if dmiReqValid s then [dmiReq s] else []

/-- The operations taken so far, how many requests the channel has taken over, the answers it has
    given, and if the last update of the DMI register was a read that was taken, its place among the
    operations. -/
structure Ledger where
  ops : List DmiReq
  carried : Nat
  answers : List (BitVec 32)
  lastRead : Option Nat

def ledger0 : Ledger := { ops := [], carried := 0, answers := [], lastRead := none }

def record (g : Ledger) (s : State) (i : Input) : Ledger :=
  { ops := g.ops ++ issued s i
    carried := g.carried + (sent s i).length
    answers := g.answers ++ (if i.dmiRespValidI then [i.dmiRespDataI] else [])
    lastRead :=
      if updatesDmi s then
        if takes s && (dmi s).op == DTM_READ then some g.ops.length else none
      else g.lastRead }

/-- The channel gives an answer only to a request that it has taken over before and not answered
    yet. -/
def Behaves (c : Ledger × State) (i : Input) : Prop :=
  i.dmiRespValidI = true → c.1.answers.length < c.1.carried

instance (c : Ledger × State) (i : Input) : Decidable (Behaves c i) := by
  unfold Behaves; infer_instance

/-- A capture of the DMI register. -/
def capturesDmi (s : State) : Bool := JtagTap.captureDrO s.tap && JtagTap.dmiAccessO s.tap

/-- The status that the DMI register reports. -/
def status (s : State) : DmiError := s.dr.extractLsb' 0 2

/-- What an edge owes the host: an update that is not taken leaves the busy error, the busy error stays
    until `dmireset`, and a capture without an error behind a read has the answer of that read. -/
structure Exact (idcodeValue : BitVec 32) (c : Ledger × State) (i : Input) : Prop where
  refused : updatesDmi c.2 = true → namesOp c.2 = true → takes c.2 = false →
    (next idcodeValue c.2 i).error = DMIBusy
  sticky : c.2.error = DMIBusy → resetsDmi c.2 = false → (next idcodeValue c.2 i).error = DMIBusy
  answered : capturesDmi c.2 = true → status (next idcodeValue c.2 i) = DMINoError →
    ∀ k, c.1.lastRead = some k → c.1.answers[k]? = some (dmi (next idcodeValue c.2 i)).data

/-- The state machine waits for an answer. -/
def waitsAnswer (s : State) : Bool := s.state == .WaitReadValid || s.state == .WaitWriteValid

section Edge

variable {idcodeValue : BitVec 32} {s : State} {i : Input}

/-! ## Where the state machine is -/

theorem dmiReqValid_iff : dmiReqValid s = true ↔ s.state = .Read ∨ s.state = .Write := by
  unfold dmiReqValid
  rw [Bool.or_eq_true, beq_iff_eq, beq_iff_eq]

theorem waitsAnswer_iff :
    waitsAnswer s = true ↔ s.state = .WaitReadValid ∨ s.state = .WaitWriteValid := by
  unfold waitsAnswer
  rw [Bool.or_eq_true, beq_iff_eq, beq_iff_eq]

/-- An idle machine neither requests nor waits. -/
theorem idle_silent (hs : s.state = .Idle) : dmiReqValid s = false ∧ waitsAnswer s = false := by
  unfold dmiReqValid waitsAnswer
  rw [hs]
  exact ⟨rfl, rfl⟩

/-- A machine that waits for an answer is busy, and requests nothing any more. -/
theorem waits_busy (h : waitsAnswer s = true) : s.state ≠ .Idle ∧ dmiReqValid s = false := by
  unfold dmiReqValid
  rcases waitsAnswer_iff.mp h with hs | hs
  · rw [hs]
    exact ⟨by decide, rfl⟩
  · rw [hs]
    exact ⟨by decide, rfl⟩

/-- A machine that requests is busy, and waits for no answer yet. -/
theorem request_busy (h : dmiReqValid s = true) : s.state ≠ .Idle ∧ waitsAnswer s = false := by
  unfold waitsAnswer
  rcases dmiReqValid_iff.mp h with hs | hs
  · rw [hs]
    exact ⟨by decide, rfl⟩
  · rw [hs]
    exact ⟨by decide, rfl⟩

/-- A busy machine that requests nothing waits for an answer.  There is no third thing to be busy with. -/
theorem waits_of_busy (hs : s.state ≠ .Idle) (h : dmiReqValid s = false) : waitsAnswer s = true := by
  unfold dmiReqValid at h
  unfold waitsAnswer
  cases hst : s.state
  · exact absurd hst hs
  · rw [hst] at h
    cases h
  · rfl
  · rw [hst] at h
    cases h
  · rfl

/-- A request stays until the channel takes it over, and then its answer is waited for. -/
theorem stateD_request (h : dmiReqValid s = true) : stateD s i
    = if i.dmiReqReadyI then (if s.state = .Read then .WaitReadValid else .WaitWriteValid)
      else s.state := by
  rcases dmiReqValid_iff.mp h with hs | hs
  · rw [stateD_read hs, hs]
    rfl
  · rw [stateD_write hs, hs]
    rfl

/-- The answer ends the operation, and nothing else does. -/
theorem stateD_waits (h : waitsAnswer s = true) :
    stateD s i = if i.dmiRespValidI then .Idle else s.state := by
  rcases waitsAnswer_iff.mp h with hs | hs
  · rw [stateD_waitRead hs, hs]
  · rw [stateD_waitWrite hs, hs]

/-! ## The account of the requests -/

/-- Only an idle machine takes an operation, whatever the host scans meanwhile. -/
theorem issued_busy (hs : s.state ≠ .Idle) : issued s i = [] := by
  unfold issued
  rw [takes_busy hs]
  rfl

/-- What an idle machine takes is the request it puts on the channel, an edge later. -/
theorem issued_idle (hs : s.state = .Idle) : issued s i = waiting (next idcodeValue s i) := by
  have hstate : (next idcodeValue s i).state = _ := stateD_idle (i := i) hs
  have haddr : (next idcodeValue s i).address = addressD s := rfl
  have hdata : (next idcodeValue s i).data = dataD s i := rfl
  unfold issued waiting dmiReqValid dmiReq namesOp
  rw [hstate, haddr, hdata]
  unfold addressD dataD
  obtain ⟨addr, op, data⟩ := dmi s
  cases takes s
  · rfl
  · simp only [Bool.true_and, if_true]
    by_cases hread : op = DTM_READ
    · subst hread
      rfl
    · by_cases hwrite : op = DTM_WRITE
      · subst hwrite
        rfl
      · have hno : ¬ op = 1#2 ∧ ¬ op = 2#2 := ⟨hread, hwrite⟩
        simp [hno]

/-- While the channel is not ready the request stays as it is, as long as that may take. -/
theorem waiting_held (h : dmiReqValid s = true) (hr : i.dmiReqReadyI = false) :
    waiting (next idcodeValue s i) = waiting s := by
  obtain ⟨hidle, hno⟩ := request_busy h
  have hwait : s.state ≠ .WaitReadValid := by
    intro hs
    rw [waitsAnswer, hs] at hno
    cases hno
  obtain ⟨haddr, hdata⟩ := request_held (i := i) hidle hwait
  have hstate : (next idcodeValue s i).state = s.state := by
    show stateD s i = s.state
    rw [stateD_request h, hr, if_neg Bool.false_ne_true]
  have haddr' : (next idcodeValue s i).address = s.address := haddr
  have hdata' : (next idcodeValue s i).data = s.data := hdata
  unfold waiting dmiReqValid dmiReq
  rw [hstate, haddr', hdata']

/-- Without a request on the channel none is waiting. -/
theorem waiting_none (h : dmiReqValid s = false) : waiting s = [] := by
  unfold waiting
  rw [h]
  rfl

/-- Nothing is sent while there is no request on the channel. -/
theorem sent_none (h : dmiReqValid s = false) : sent s i = [] := by
  unfold sent
  rw [h]
  rfl

/-- Behind a request that the channel takes over its answer is waited for, for a read and for a write. -/
theorem waits_sent (h : dmiReqValid s = true) (hr : i.dmiReqReadyI = true) :
    waitsAnswer (next idcodeValue s i) = true := by
  rw [waitsAnswer_iff]
  show stateD s i = .WaitReadValid ∨ stateD s i = .WaitWriteValid
  rw [stateD_request h, hr, if_pos rfl]
  split_ifs
  · exact Or.inl rfl
  · exact Or.inr rfl

/-- A machine that waits for an answer puts nothing on the channel. -/
theorem quiet_of_waits (h : waitsAnswer s = true) :
    dmiReqValid (next idcodeValue s i) = false := by
  cases hv : i.dmiRespValidI
  · have hstate : (next idcodeValue s i).state = s.state := by
      show stateD s i = s.state
      rw [stateD_waits h, hv, if_neg Bool.false_ne_true]
    have hno := (waits_busy h).2
    unfold dmiReqValid at hno ⊢
    rw [hstate]
    exact hno
  · refine (idle_silent ?_).1
    show stateD s i = .Idle
    rw [stateD_waits h, hv, if_pos rfl]

/-- **The account.**  What was waiting and what is taken is what is sent and what is waiting then. -/
theorem request_law : waiting s ++ issued s i = sent s i ++ waiting (next idcodeValue s i) := by
  cases hv : dmiReqValid s
  · rw [waiting_none hv, sent_none hv, List.nil_append, List.nil_append]
    by_cases hidle : s.state = .Idle
    · exact issued_idle hidle
    · rw [issued_busy hidle, waiting_none (quiet_of_waits (waits_of_busy hidle hv))]
  · rw [issued_busy (request_busy hv).1, List.append_nil]
    cases hr : i.dmiReqReadyI
    · rw [waiting_held hv hr]
      unfold sent
      rw [hr, Bool.and_false]
      rfl
    · rw [waiting_none (waits_busy (waits_sent hv hr)).2]
      unfold waiting sent
      rw [hv, hr]
      rfl

/-! ## The ledger -/

/-- What the ledger says of the machine: every operation has its answer but for the one that is under
    way, and a read that was the last update is under way, or its answer is in the data register. -/
structure Balanced (c : Ledger × State) : Prop where
  error : c.2.error = DMINoError ∨ c.2.error = DMIBusy
  ops : c.1.ops.length = c.1.answers.length + (if c.2.state = .Idle then 0 else 1)
  carried : c.1.carried = c.1.answers.length + (if waitsAnswer c.2 then 1 else 0)
  last : ∀ k, c.1.lastRead = some k → k + 1 = c.1.ops.length ∧
    ((c.2.state = .Idle ∧ c.1.answers[k]? = some c.2.data) ∨ c.2.state = .Read ∨
      c.2.state = .WaitReadValid)

/-- The error is none or busy; the two other codes are never set. -/
theorem error_next (h : s.error = DMINoError ∨ s.error = DMIBusy) :
    errorD s = DMINoError ∨ errorD s = DMIBusy := by
  unfold errorD
  split_ifs
  · exact Or.inl rfl
  · exact Or.inr rfl
  · exact h

/-- There is no answer unless one is waited for.  This is where the account of the channel comes in. -/
theorem silent {c : Ledger × State} (h : Balanced c) (hb : Behaves c i)
    (hw : waitsAnswer c.2 = false) : i.dmiRespValidI = false := by
  by_contra hv
  have hlt := hb (Bool.not_eq_false _ ▸ hv)
  have hc := h.carried
  rw [hw, if_neg Bool.false_ne_true] at hc
  omega

/-- An edge without an answer adds none to the list. -/
theorem record_silent (g : Ledger) (hv : i.dmiRespValidI = false) :
    (record g s i).answers = g.answers := by
  unfold record
  rw [hv]
  exact List.append_nil _

/-- An answer goes to the end of the list. -/
theorem record_answer (g : Ledger) (hv : i.dmiRespValidI = true) :
    (record g s i).answers = g.answers ++ [i.dmiRespDataI] := by
  unfold record
  rw [hv]
  rfl

/-- A busy machine takes no operation, and an update it does not take is no read. -/
theorem record_busy (g : Ledger) (hs : s.state ≠ .Idle) :
    (record g s i).ops = g.ops ∧
      (record g s i).lastRead = if updatesDmi s then none else g.lastRead := by
  unfold record
  rw [issued_busy hs, takes_busy hs]
  exact ⟨List.append_nil _, rfl⟩

/-- A read that is the last update behind an edge of a busy machine was so before. -/
theorem last_kept {g : Ledger} {k : Nat} (hs : s.state ≠ .Idle)
    (h : (record g s i).lastRead = some k) : g.lastRead = some k := by
  rw [(record_busy g hs).2] at h
  split_ifs at h
  exact h

/-- An idle machine goes to a request or stays idle, and goes to one for each operation it takes. -/
theorem issued_length (hs : s.state = .Idle) :
    (issued s i).length = (if (next idcodeValue s i).state = .Idle then 0 else 1) ∧
      waitsAnswer (next idcodeValue s i) = false := by
  have hstate : (next idcodeValue s i).state = _ := stateD_idle (i := i) hs
  have hissued : issued s i = waiting (next idcodeValue s i) := issued_idle hs
  rw [hissued]
  unfold waiting dmiReqValid waitsAnswer
  rw [hstate]
  split_ifs <;> first | exact ⟨rfl, rfl⟩ | contradiction

/-- A read that an idle machine takes is the last operation. -/
theorem issued_read (htake : takes s = true) (hread : (dmi s).op = DTM_READ) :
    issued s i = [dmi s] := by
  unfold issued namesOp
  rw [htake, hread]
  rfl

/-- An edge without an update takes nothing. -/
theorem takes_none (hup : ¬ updatesDmi s = true) : takes s = false := by
  unfold takes
  rw [Bool.eq_false_iff.mpr hup, Bool.false_and, Bool.false_and]

/-- The place of the last read, behind an edge of an idle machine: its answer is in the register, or it has
    just been taken. -/
theorem last_idle {c : Ledger × State} (h : Balanced c) (hs : c.2.state = .Idle) {k : Nat}
    (hk : (record c.1 c.2 i).lastRead = some k) :
    k + 1 = (c.1.ops ++ issued c.2 i).length ∧
      ((stateD c.2 i = .Idle ∧ c.1.answers[k]? = some (dataD c.2 i)) ∨ stateD c.2 i = .Read) := by
  have hk' : (if updatesDmi c.2 then
      if takes c.2 && (dmi c.2).op == DTM_READ then some c.1.ops.length else none
    else c.1.lastRead) = some k := hk
  rw [stateD_idle hs]
  split_ifs at hk' with hup htake
  · -- the read is taken now
    rw [Bool.and_eq_true, beq_iff_eq] at htake
    rw [issued_read htake.1 htake.2, List.length_append, htake.1, htake.2]
    exact ⟨by rw [← Option.some.inj hk']; rfl, Or.inr rfl⟩
  · -- nothing is taken, and the answer is where it was
    have hno : takes c.2 = false := takes_none hup
    have hnone : issued c.2 i = [] := by
      unfold issued
      rw [hno]
      rfl
    obtain ⟨hlen, hplace⟩ := h.last k hk'
    rw [hno, hnone, List.append_nil]
    refine ⟨hlen, Or.inl ⟨rfl, ?_⟩⟩
    rcases hplace with ⟨-, hd⟩ | hr | hr
    · unfold dataD
      rw [hno, if_neg Bool.false_ne_true, hs]
      exact hd
    · rw [hs] at hr
      cases hr
    · rw [hs] at hr
      cases hr

/-- An edge of an idle machine: an operation may be taken, and then it is the last one. -/
theorem balanced_idle {c : Ledger × State} (h : Balanced c) (hb : Behaves c i)
    (hs : c.2.state = .Idle) : Balanced (watched (next idcodeValue) record c i) := by
  obtain ⟨hreq, hnowait⟩ := idle_silent hs
  obtain ⟨hissued, hwait⟩ : _ ∧ waitsAnswer (next idcodeValue c.2 i) = false := issued_length hs
  -- no answer can come, and a request goes out exactly when one is recorded
  have hans : (record c.1 c.2 i).answers = c.1.answers := record_silent c.1 (silent h hb hnowait)
  refine ⟨error_next h.error, ?_, ?_, ?_⟩
  · have hops := h.ops
    rw [if_pos hs] at hops
    show (c.1.ops ++ issued c.2 i).length = (record c.1 c.2 i).answers.length + _
    rw [hans, List.length_append, hissued, hops]
    rfl
  · have hcarried := h.carried
    rw [hnowait] at hcarried
    show c.1.carried + (sent c.2 i).length = (record c.1 c.2 i).answers.length + _
    rw [hans, sent_none hreq, hcarried, watched_snd, hwait]
    rfl
  · -- the last operation of the debugger is either answered already or the one just issued
    intro k hk
    obtain ⟨hlen, hplace⟩ := last_idle h hs hk
    show k + 1 = (c.1.ops ++ issued c.2 i).length ∧
      ((stateD c.2 i = .Idle ∧ (record c.1 c.2 i).answers[k]? = some (dataD c.2 i)) ∨
        stateD c.2 i = .Read ∨ stateD c.2 i = .WaitReadValid)
    rw [hans]
    exact ⟨hlen, hplace.imp_right Or.inl⟩

/-- While a request is on the channel there is no answer, and what is sent is the last operation. -/
theorem balanced_request {c : Ledger × State} (h : Balanced c) (hb : Behaves c i)
    (hreq : dmiReqValid c.2 = true) : Balanced (watched (next idcodeValue) record c i) := by
  obtain ⟨hidle, hwait⟩ := request_busy hreq
  have hstate : (next idcodeValue c.2 i).state = _ := stateD_request (i := i) hreq
  have hans : (record c.1 c.2 i).answers = c.1.answers := record_silent c.1 (silent h hb hwait)
  have hops' := (record_busy (i := i) c.1 hidle).1
  have hbusy' : (next idcodeValue c.2 i).state ≠ .Idle := by
    rw [hstate]
    split_ifs <;> first | exact hidle | decide
  have hwait' : waitsAnswer (next idcodeValue c.2 i) = i.dmiReqReadyI := by
    cases hr : i.dmiReqReadyI
    · rw [hr, if_neg Bool.false_ne_true] at hstate
      unfold waitsAnswer at hwait ⊢
      rw [hstate]
      exact hwait
    · exact waits_sent hreq hr
  refine ⟨error_next h.error, ?_, ?_, ?_⟩
  · have hops := h.ops
    rw [if_neg hidle] at hops
    rw [watched_snd, if_neg hbusy']
    show (record c.1 c.2 i).ops.length = (record c.1 c.2 i).answers.length + 1
    rw [hops', hans, hops]
  · have hcarried := h.carried
    rw [hwait, if_neg Bool.false_ne_true, Nat.add_zero] at hcarried
    rw [watched_snd, hwait']
    show c.1.carried + (sent c.2 i).length = (record c.1 c.2 i).answers.length + _
    unfold sent
    rw [hans, hcarried, hreq, Bool.true_and]
    cases i.dmiReqReadyI <;> rfl
  · intro k hk
    obtain ⟨hlen, hplace⟩ := h.last k (last_kept hidle hk)
    show k + 1 = (record c.1 c.2 i).ops.length ∧ _
    rw [hops', watched_snd, hstate]
    refine ⟨hlen, ?_⟩
    rcases hplace with ⟨hs, -⟩ | hs | hs
    · exact absurd hs hidle
    · -- the read is on the channel, or has just been taken over
      rw [hs]
      cases i.dmiReqReadyI
      · exact Or.inr (Or.inl rfl)
      · exact Or.inr (Or.inr rfl)
    · rw [waitsAnswer, hs] at hwait
      cases hwait

/-- While an answer is waited for and does not come, the ledger stays. -/
theorem balanced_unanswered {c : Ledger × State} (h : Balanced c) (hw : waitsAnswer c.2 = true)
    (hv : i.dmiRespValidI = false) : Balanced (watched (next idcodeValue) record c i) := by
  obtain ⟨hidle, hreq⟩ := waits_busy hw
  -- the machine waits on, so the ledger does not move
  have hstate : (next idcodeValue c.2 i).state = c.2.state := by
    show stateD c.2 i = c.2.state
    rw [stateD_waits hw, hv, if_neg Bool.false_ne_true]
  have hops' := (record_busy (i := i) c.1 hidle).1
  have hans : (record c.1 c.2 i).answers = c.1.answers := record_silent c.1 hv
  have hwait' : waitsAnswer (next idcodeValue c.2 i) = waitsAnswer c.2 := by
    unfold waitsAnswer
    rw [hstate]
  refine ⟨error_next h.error, ?_, ?_, ?_⟩
  · rw [watched_snd, hstate]
    show (record c.1 c.2 i).ops.length = (record c.1 c.2 i).answers.length + _
    rw [hops', hans]
    exact h.ops
  · rw [watched_snd, hwait']
    show c.1.carried + (sent c.2 i).length = (record c.1 c.2 i).answers.length + _
    rw [hans, sent_none hreq]
    exact h.carried
  · intro k hk
    obtain ⟨hlen, hplace⟩ := h.last k (last_kept hidle hk)
    show k + 1 = (record c.1 c.2 i).ops.length ∧ _
    rw [hops', watched_snd, hstate]
    refine ⟨hlen, Or.inr ?_⟩
    rcases hplace with ⟨hs, -⟩ | hs
    · exact absurd hs hidle
    · exact hs

/-- The answer comes, and goes to the data register behind a read.  Behind a write it is dropped. -/
theorem balanced_answered {c : Ledger × State} (h : Balanced c) (hw : waitsAnswer c.2 = true)
    (hv : i.dmiRespValidI = true) : Balanced (watched (next idcodeValue) record c i) := by
  obtain ⟨hidle, hreq⟩ := waits_busy hw
  -- the machine is idle again, with one more answer
  have hstate : (next idcodeValue c.2 i).state = .Idle := by
    show stateD c.2 i = .Idle
    rw [stateD_waits hw, hv, if_pos rfl]
  have hops' := (record_busy (i := i) c.1 hidle).1
  have hans : (record c.1 c.2 i).answers = c.1.answers ++ [i.dmiRespDataI] :=
    record_answer c.1 hv
  have hops := h.ops
  have hcarried := h.carried
  rw [if_neg hidle] at hops
  rw [hw, if_pos rfl] at hcarried
  refine ⟨error_next h.error, ?_, ?_, ?_⟩
  · rw [watched_snd, hstate, if_pos rfl]
    show (record c.1 c.2 i).ops.length = (record c.1 c.2 i).answers.length + 0
    rw [hops', hans, List.length_append, hops]
    rfl
  · rw [watched_snd, (idle_silent hstate).2]
    show c.1.carried + (sent c.2 i).length = (record c.1 c.2 i).answers.length + 0
    rw [hans, sent_none hreq, hcarried, List.length_append]
    rfl
  · intro k hk
    obtain ⟨hlen, hplace⟩ := h.last k (last_kept hidle hk)
    have hk' : k = c.1.answers.length := by omega
    show k + 1 = (record c.1 c.2 i).ops.length ∧
      (_ ∧ (record c.1 c.2 i).answers[k]? = some (dataD c.2 i) ∨ _)
    rw [hops', watched_snd, hstate, hans, hk']
    refine ⟨hk' ▸ hlen, Or.inl ⟨rfl, ?_⟩⟩
    -- the machine waits in a state of a read, so the last operation is one
    have hread : c.2.state = .WaitReadValid := by
      rcases hplace with ⟨hs, -⟩ | hs | hs
      · exact absurd hs hidle
      · rw [waitsAnswer, hs] at hw
        cases hw
      · exact hs
    unfold dataD
    rw [takes_busy hidle, if_neg Bool.false_ne_true, if_pos ⟨hread, hv⟩,
      List.getElem?_append_right (Nat.le_refl _), Nat.sub_self]
    rfl

theorem balanced_next (c : Ledger × State) (i : Input) (h : Balanced c) (hb : Behaves c i) :
    Balanced (watched (next idcodeValue) record c i) := by
  by_cases hidle : c.2.state = .Idle
  · exact balanced_idle h hb hidle
  · cases hreq : dmiReqValid c.2
    · have hw := waits_of_busy hidle hreq
      cases hv : i.dmiRespValidI
      · exact balanced_unanswered h hw hv
      · exact balanced_answered h hw hv
    · exact balanced_request h hb hreq

/-! ## What an edge owes the host -/

theorem refused_busy (herr : s.error = DMINoError ∨ s.error = DMIBusy) (hup : updatesDmi s = true)
    (hno : takes s = false) : errorD s = DMIBusy := by
  have hup' := hup
  unfold updatesDmi at hup'
  rw [Bool.and_eq_true] at hup'
  have hreset : resetsDmi s = false := by
    unfold resetsDmi
    rw [JtagTap.dtmcs_not_dmi hup'.1, Bool.and_false]
  unfold errorD
  rw [hreset, if_neg Bool.false_ne_true]
  split_ifs with hbusy
  · rfl
  · -- the machine is idle, so it is the error that refuses
    unfold errorDmiBusy at hbusy
    unfold takes at hno
    rw [hup, Bool.true_and] at hno
    rw [hup'.2, Bool.true_and, Bool.or_eq_true, not_or, bne_iff_ne, not_not] at hbusy
    rw [hbusy.1] at hno
    rcases herr with he | he
    · rw [he] at hno
      cases hno
    · exact he

theorem busy_sticky (herr : s.error = DMIBusy) (hreset : resetsDmi s = false) :
    errorD s = DMIBusy := by
  unfold errorD
  rw [hreset, if_neg Bool.false_ne_true, herr, ite_self]

/-- What is captured: the data register and the error, and no error only if there is none and no read
    is under way. -/
theorem captured_eq (herr : s.error = DMINoError ∨ s.error = DMIBusy) :
    captured s = s.address ++ s.data
      ++ (if s.error = DMINoError ∧ errorDmiBusy s = false then DMINoError else DMIBusy) := by
  unfold captured
  split_ifs with h1 h2
  · rfl
  · rfl
  · exfalso
    rw [not_or, Bool.not_eq_true] at h2
    rcases herr with he | he
    · exact h1 ⟨he, h2.2⟩
    · exact h2.1 he

theorem drD_capture (hcap : capturesDmi s = true) : drD s i = captured s := by
  unfold capturesDmi at hcap
  have hcap' := hcap
  rw [Bool.and_eq_true] at hcap'
  obtain ⟨hshift, -, hreset⟩ := JtagTap.capture_alone hcap'.1
  unfold drD
  rw [hcap, hshift, hreset]
  rfl

/-- **One edge.**  What the theorem promises of every edge is read off the balance before it. -/
theorem exact_of_balanced {c : Ledger × State} (h : Balanced c) : Exact idcodeValue c i := by
  refine ⟨fun hup _ hno => refused_busy h.error hup hno, busy_sticky, ?_⟩
  intro hcap hstatus k hk
  have hdr : (next idcodeValue c.2 i).dr = _ := (drD_capture hcap).trans (captured_eq h.error)
  have hgood : c.2.error = DMINoError ∧ errorDmiBusy c.2 = false := by
    by_contra hbad
    unfold status at hstatus
    rw [hdr, if_neg hbad, status_append] at hstatus
    exact absurd hstatus (by decide)
  obtain ⟨-, hplace⟩ := h.last k hk
  have hdata : (dmi (next idcodeValue c.2 i)).data = c.2.data := by
    unfold dmi
    rw [hdr]
    exact data_append _ _ _
  rw [hdata]
  rcases hplace with ⟨-, hd⟩ | hs
  · exact hd
  · -- a read that is under way is reported
    exfalso
    have hcap' := hcap
    unfold capturesDmi at hcap'
    rw [Bool.and_eq_true] at hcap'
    have hno := hgood.2
    unfold errorDmiBusy at hno
    rw [hcap'.1] at hno
    rcases hs with hs | hs <;> rw [hs] at hno <;> simp at hno

end Edge

/-! ## Whole runs -/

/-- **DMI transactions are exact or flagged.**  For every sequence on `TMS` and `TDI` from reset, and
    every channel that answers in order what it has taken over: the requests that the channel takes over
    are the operations of the updates that find the machine idle and no error, one each and in order,
    but for the one it has not taken over yet; every other update with an operation leaves the busy
    error, which stays until `dmireset`; and a capture that reports no error, and whose last update of
    the DMI register was a read that was taken, finds the answer to that read. -/
theorem transactions_exact (idcodeValue : BitVec 32) (is : List Input)
    (hcdc : Always (watched (next idcodeValue) record) Behaves (ledger0, reset idcodeValue) is) :
    emitted (next idcodeValue) issued (reset idcodeValue) is
      = emitted (next idcodeValue) sent (reset idcodeValue) is
        ++ waiting (run (next idcodeValue) (reset idcodeValue) is) ∧
    Always (watched (next idcodeValue) record) (Exact idcodeValue) (ledger0, reset idcodeValue)
      is := by
  constructor
  · exact emitted_conserved (fun _ => True) issued sent waiting (fun _ _ _ _ => trivial)
      (fun s i _ _ => request_law) is (reset idcodeValue) trivial
      (always_true (next idcodeValue) (reset idcodeValue) is)
  · have hstart : Balanced (ledger0, reset idcodeValue) := by
      refine ⟨Or.inl rfl, rfl, rfl, ?_⟩
      intro k hk
      cases hk
    exact always_of_step Balanced Behaves _ balanced_next (fun c i h _ => exact_of_balanced h) is _
      hstart hcdc

/-- The bits of a word, the lowest first, the last one with `TMS` up. -/
def shifts {k : Nat} (x : BitVec k) : List Input :=
  (List.range k).map fun j => { tmsI := j + 1 == k, tdI := x.getLsbD j }

/-- The host selects `DMIACCESS`, asks for a read of address 0x11, and scans the answer out. -/
def readScan : List Input :=
  [{ tmsI := true }, { tmsI := true }, { tmsI := false }, { tmsI := false }]
    ++ shifts JtagTap.DMIACCESS
    ++ [{ tmsI := true }, { tmsI := true }, { tmsI := false }, { tmsI := false }]
    ++ shifts ((0x11 : BitVec 7) ++ (0 : BitVec 32) ++ DTM_READ)
    ++ [{ tmsI := true }, { tmsI := false }, { tmsI := false, dmiReqReadyI := true },
      { tmsI := true, dmiRespValidI := true, dmiRespDataI := 0xABCD }, { tmsI := false },
      { tmsI := false }]

example : (dmi (run (next 1) (reset 1) readScan)).data = 0xABCD := by decide +kernel

theorem transactions_exact_read_scan :
    emitted (next 1) issued (reset 1) readScan
      = emitted (next 1) sent (reset 1) readScan ++ waiting (run (next 1) (reset 1) readScan) ∧
    Always (watched (next 1) record) (Exact 1) (ledger0, reset 1) readScan :=
  transactions_exact 1 readScan (by decide +kernel)

end RiscDbgUart.DmiJtag
