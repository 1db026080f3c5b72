/-
  What a read leaves behind on the read side.

  `HostReads` follows the bytes that answer a read.  Here is the end of it: once enough cycles of a willing
  transmitter have gone by, the read side is at rest again, as it was when the command came.

  Rest means: the decoder is idle, the arbiter has no command, the serializer is reset, and `TX_Escape`
  is free.  From there the next command finds what it found before, so that a session can be put
  together from messages, and `SerialReads` carries the statement to the whole system.
-/
import RiscDbgUart.HostReads

set_option linter.unusedVariables false

namespace RiscDbgUart.HostRead

open Clocked Stuffing DmiUartTap

variable {esc : Byte} {r : BitVec 32} {s : State} {todo : List (Symbol Byte)} {m : Nat}

/-- No command is current, nothing is announced, and `TX_Escape` is free.  A command finds the read side so
    after a reset, and again after every answer. -/
structure AtRest (s : State) : Prop where
  idle : Idle s
  dec : s.tap.dec.state = .idle
  cmd : s.tap.rd.currentReadCommand = CMD_NOP
  send : s.tap.rd.sendCommand = false
  ack : s.tap.rd.readArbiterReady = false
  free : s.link.tx.sendData = false

/-- There is only one phase without steps to make. -/
theorem phase_rest (h : Phase r s todo 0) (hfree : s.link.tx.sendData = false) : AtRest s := by
  generalize hm : 0 = m at h
  cases h with
  | rest idle dec cmd send ack => exact ⟨idle, dec, cmd, send, ack, hfree⟩
  | offered a => omega
  | accepted a => omega
  | again a hl t busy =>
    rw [effort, busy, if_neg Bool.false_ne_true] at hm
    omega
  | parting a hl t =>
    unfold effort at hm
    split_ifs at hm <;> omega
  | sending a k hl t =>
    have hle := t.le
    unfold effort at hm
    split_ifs at hm <;> omega
  | finished => omega
  | closing => omega

/-- **A run without commands.**  What is owed is what is sent and what is owed still, and every cycle
    of a willing transmitter brings the end nearer. -/
theorem owed_run {js : List Input} (hfix : Fixed esc r s) (h : Phase r s todo m) (hwelcome : Welcome js)
    (hnone : commands js = []) :
    ∃ todo' m', Fixed esc r (run (next esc) s js) ∧ Phase r (run (next esc) s js) todo' m' ∧
      owed esc s todo = emitted (next esc) wire s js ++ owed esc (run (next esc) s js) todo' ∧
      distance (run (next esc) s js) m' ≤ distance s m - (js.filter (·.wake)).length := by
  induction js generalizing s todo m with
  -- cycle by cycle; a willing cycle brings the end one step nearer
  | nil => exact ⟨todo, m, hfix, h, rfl, le_rfl⟩
  | cons j js ih =>
    obtain ⟨hcalm, hlocal, hrest⟩ := welcome_cons hwelcome
    rw [commands, List.flatMap_cons, List.append_eq_nil_iff] at hnone
    have hj : j.arrival = none := Option.toList_eq_nil_iff.mp hnone.1
    have hno {P : Prop} (ha : j.arrival ≠ none) : P := absurd hj ha
    obtain ⟨todo1, m1, h1, hlaw, hm⟩ := phase_next hfix hcalm h hlocal hno
    have howed := owed_next hfix hlaw
    have hreply : replies esc r [j] = [] := by simp [replies, commands, hj]
    rw [hreply, List.append_nil] at howed
    obtain ⟨todo', m', hfix', h', hsent, hnear⟩ :=
      ih (fixed_next hfix hcalm hno) h1 hrest hnone.2
    refine ⟨todo', m', hfix', h', ?_, ?_⟩
    · rw [howed, hsent, emitted_cons, List.append_assoc]
      rfl
    · rw [run_cons]
      refine le_trans hnear ?_
      rw [List.filter_cons]
      rcases distance_next hfix h hj hlaw (hm hj) with hless | ⟨hzero, hzero'⟩
      · split_ifs at hless ⊢
        · rw [List.length_cons]
          omega
        · omega
      · omega

/-- **The read side comes to rest**, with everything sent, after as many willing cycles as the distance
    says. -/
theorem owed_settles {js : List Input} (hfix : Fixed esc r s) (h : Phase r s todo m)
    (hwelcome : Welcome js) (hnone : commands js = [])
    (hfar : distance s m ≤ (js.filter (·.wake)).length) :
    emitted (next esc) wire s js = owed esc s todo ∧ Fixed esc r (run (next esc) s js) ∧
      AtRest (run (next esc) s js) := by
  obtain ⟨todo', m', hfix', h', hsent, hnear⟩ := owed_run hfix h hwelcome hnone
  have hzero : distance (run (next esc) s js) m' = 0 := by omega
  have hnil := owed_zero hfix' h' hzero
  rw [distance, Nat.add_eq_zero_iff] at hzero
  have hm : m' = 0 := by omega
  subst hm
  have hfree := TxLink.stage_free.mp (TxLink.steps_zero.mp hzero.2)
  rw [hnil, List.append_nil] at hsent
  exact ⟨hsent.symm, hfix', phase_rest h' hfree⟩

/-- A command that comes at rest is owed its answer, less what is sent in its cycle. -/
theorem read_starts {i : Input} {a : Addr} (hfix : Fixed esc r s) (h : AtRest s)
    (ha : i.arrival = some a) (hcalm : Calm i) (hlocal : Local a) :
    Fixed esc r (next esc s i) ∧ ∃ todo m, Phase r (next esc s i) todo m ∧
      reply esc r a = wire s i ++ owed esc (next esc s i) todo := by
  have hphase : Phase r s [] 0 := .rest h.idle h.dec h.cmd h.send h.ack
  obtain ⟨todo, m, h1, hlaw, -⟩ := phase_next hfix hcalm hphase
    (fun b hb => Option.some.inj (ha.symm.trans hb) ▸ hlocal) fun _ => ⟨rfl, h.free⟩
  have howed := owed_next hfix hlaw
  have hreply : replies esc r [i] = reply esc r a := by simp [replies, commands, ha]
  have hnothing : owed esc s [] = [] := by
    rw [owed, TxLink.pending_free hfix.link (TxLink.stage_free.mpr h.free)]
    rfl
  rw [hreply, hnothing, List.nil_append] at howed
  exact ⟨fixed_next hfix hcalm fun _ => h.dec, todo, m, h1, howed⟩

/-- **A read at rest is answered, and the read side is at rest again.**  This is the lemma that a session is
    made of: it can be used again on the state that it leaves. -/
theorem read_settles {i : Input} {js : List Input} {a : Addr} (hfix : Fixed esc r s) (h : AtRest s)
    (ha : i.arrival = some a) (hwelcome : Welcome (i :: js)) (hnone : commands js = [])
    (hwake : patience ≤ (js.filter (·.wake)).length) :
    emitted (next esc) wire s (i :: js) = reply esc r a ∧ Fixed esc r (run (next esc) s (i :: js)) ∧
      AtRest (run (next esc) s (i :: js)) := by
  obtain ⟨hcalm, hlocal, hrest⟩ := welcome_cons hwelcome
  obtain ⟨hfix1, todo, m, h1, howed⟩ := read_starts hfix h ha hcalm (hlocal a ha)
  have hfar : distance (next esc s i) m ≤ (js.filter (·.wake)).length := by
    have hm := phase_bound h1
    have hsteps : TxLink.steps (next esc s i).link ≤ 8 := TxLink.steps_le
    have hlong : 242 ≤ (js.filter (·.wake)).length := hwake
    unfold distance
    omega
  obtain ⟨hsent, hend⟩ := owed_settles hfix1 h1 hrest hnone hfar
  rw [emitted_cons, hsent, run_cons, howed]
  exact ⟨rfl, hend⟩

/-- At no time is more sent than the answer. -/
theorem read_sends {i : Input} {js : List Input} {a : Addr} (hfix : Fixed esc r s) (h : AtRest s)
    (ha : i.arrival = some a) (hwelcome : Welcome (i :: js)) (hnone : commands js = []) :
    emitted (next esc) wire s (i :: js) <+: reply esc r a := by
  obtain ⟨hcalm, hlocal, hrest⟩ := welcome_cons hwelcome
  obtain ⟨hfix1, todo, m, h1, howed⟩ := read_starts hfix h ha hcalm (hlocal a ha)
  obtain ⟨todo', m', -, -, hsent, -⟩ := owed_run hfix1 h1 hrest hnone
  rw [emitted_cons, howed, hsent, ← List.append_assoc]
  exact List.prefix_append _ _

theorem reply_length (esc : Byte) (r : BitVec 32) (a : Addr) : (reply esc r a).length ≤ 14 := by
  have hbytes := (byteLength_bounds a).2
  have hstuffed (bs : List Byte) :
      (bs.flatMap fun b => if b = esc then [esc, esc] else [b]).length ≤ 2 * bs.length := by
    induction bs with
    | nil => exact Nat.zero_le _
    | cons b bs ih =>
      rw [List.flatMap_cons, List.length_append, List.length_cons]
      split_ifs <;> simp only [List.length_cons, List.length_nil] <;> omega
  have h := hstuffed (registerBytes r a)
  have hlen : (registerBytes r a).length = byteLength a := by
    rw [registerBytes, List.length_map, List.length_range]
  rw [reply, List.length_cons, List.length_cons]
  omega

end RiscDbgUart.HostRead
