/-
  Every register read of a polite host is answered, and nothing else is sent.

  A polite host sends its next command when it has received as many bytes as it has asked for and
  `TX_Escape` is free.  In every cycle of such a run, what has been asked for is what has been sent
  and what the TAP and `TX_Escape` still owe (`run_owes`); and what they owe is sent after a bounded
  number of cycles in which the transmitter does not stay busy (`owed_sent`).

  The account of one cycle is `phase_next` of `HostRead`.  `Book` is what the host remembers, how much it
  has asked for and how much it has got, and `owed` is what the hardware remembers.  That the two agree is
  kept by every cycle, so a host that waits for its own book waits for the hardware.  `distance` bounds the
  number of willing cycles until nothing is owed, and `patience` is that bound for one read.
-/
import RiscDbgUart.HostRead

set_option linter.unusedVariables false

namespace RiscDbgUart.HostRead

open Clocked Stuffing DmiUartTap

/-! ## The host -/

/-- The bytes of a register, the lowest first. -/
def registerBytes (r : BitVec 32) (a : Addr) : List Byte :=
  (List.range (byteLength a)).map (registerByte r a)

/-- What a read of `a` puts on the wire: the escape byte, the header, and the bytes of the register
    with every escape byte doubled. -/
def reply (esc : Byte) (r : BitVec 32) (a : Addr) : List Byte :=
  esc :: headerOf a :: (registerBytes r a).flatMap fun b => if b = esc then [esc, esc] else [b]

/-- The commands that arrive during a run. -/
def commands (is : List Input) : List Addr := is.flatMap fun i => i.arrival.toList

/-- The bytes that answer the commands of a run. -/
def replies (esc : Byte) (r : BitVec 32) (is : List Input) : List Byte :=
  (commands is).flatMap (reply esc r)

/-- How many bytes the host has asked for and how many it has received.  This is all that a polite host
    needs to remember. -/
structure Book where
  asked : Nat
  received : Nat
deriving DecidableEq, Repr

def tally (esc : Byte) (r : BitVec 32) (g : Book) (s : State) (i : Input) : Book :=
  { asked := g.asked + (replies esc r [i]).length, received := g.received + (wire s i).length }

/-- A command arrives only after the answers to the ones before it have left `TX_Escape`. -/
def polite (g : Book) (s : State) (i : Input) : Bool :=
  i.arrival.isNone || (g.received == g.asked && !s.link.tx.sendData)

theorem encode_answer (esc : Byte) (r : BitVec 32) (a : Addr) :
    encode esc (answer r a) = reply esc r a := by
  have hall : wordBytes a (registerOf r a) 0 = registerBytes r a := by
    rw [wordBytes, registerBytes, List.range_eq_range', Nat.sub_zero]
    rfl
  rw [answer, bytesFrom, hall, reply]
  show esc :: headerOf a :: List.flatMap (stuff esc) _ = _
  rw [List.flatMap_map]
  rfl

theorem encode_append (esc : Byte) (xs ys : List (Symbol Byte)) :
    encode esc (xs ++ ys) = encode esc xs ++ encode esc ys := List.flatMap_append

theorem replies_cons (esc : Byte) (r : BitVec 32) (i : Input) (is : List Input) :
    replies esc r (i :: is) = replies esc r [i] ++ replies esc r is := by
  simp [replies, commands]

theorem replies_append (esc : Byte) (r : BitVec 32) (is js : List Input) :
    replies esc r (is ++ js) = replies esc r is ++ replies esc r js := by
  simp [replies, commands]

theorem encode_asked (esc : Byte) (r : BitVec 32) (i : Input) :
    encode esc (asked r i) = replies esc r [i] := by
  cases ha : i.arrival with
  | none => simp [asked, replies, commands, ha, encode]
  | some a =>
    have h : asked r i = answer r a := by simp [asked, ha]
    rw [h, encode_answer]
    simp [replies, commands, ha]

/-! ## What is owed -/

variable {esc : Byte} {r : BitVec 32} {s : State} {todo : List (Symbol Byte)} {m : Nat}

/-- The bytes that `TX_Escape` and the TAP have still to send. -/
def owed (esc : Byte) (s : State) (todo : List (Symbol Byte)) : List Byte :=
  TxLink.pending esc s.link ++ encode esc todo

/-- The steps until nothing is owed, while the transmitter does not stay busy. -/
def distance (s : State) (m : Nat) : Nat := 9 * m + TxLink.steps s.link

theorem encode_nil {xs : List (Symbol Byte)} (h : encode esc xs = []) : xs = [] := by
  cases xs with
  | nil => rfl
  | cons x xs =>
    cases x with
    | data b =>
      rw [encode, List.flatMap_cons, stuff] at h
      split at h <;> cases h
    | command c => cases h

/-- A cycle sends what it sends of what is owed, and adds what is asked for. -/
theorem owed_next {i : Input} {todo' : List (Symbol Byte)} (hfix : Fixed esc r s)
    (hlaw : todo ++ asked r i = TxLink.taken s.link (linkIn s i) ++ todo') :
    owed esc s todo ++ replies esc r [i] = wire s i ++ owed esc (next esc s i) todo' := by
  have hlink := TxLink.pending_next (linkIn s i) hfix.link
  calc owed esc s todo ++ replies esc r [i]
      = TxLink.pending esc s.link ++ encode esc (todo ++ asked r i) := by
        rw [owed, encode_append, encode_asked, List.append_assoc]
    _ = (TxLink.pending esc s.link ++ encode esc (TxLink.taken s.link (linkIn s i)))
          ++ encode esc todo' := by
        rw [hlaw, encode_append, List.append_assoc]
    _ = wire s i ++ owed esc (next esc s i) todo' := by
        rw [hlink, List.append_assoc]
        rfl

/-- The TAP has something to do as long as it has something to send. -/
theorem phase_zero (h : Phase r s todo 0) : todo = [] := by
  generalize hm : 0 = m at h
  cases h with
  | rest => rfl
  | offered a => omega
  | accepted a => omega
  | again a hl t busy =>
    rw [effort, busy, if_neg Bool.false_ne_true] at hm
    omega
  | parting a hl t =>
    unfold effort at hm
    split_ifs at hm <;> omega
  | sending a k hl t =>
    have hle := t.le
    unfold effort at hm
    split_ifs at hm <;> omega
  | finished => omega
  | closing => omega

theorem phase_bound (h : Phase r s todo m) : m ≤ 26 := by
  have hstart : ∀ a, untilStart a s ≤ 4 := by
    intro a
    unfold untilStart
    split_ifs <;> omega
  have heffort : ∀ a k, effort a k s ≤ 25 := by
    intro a k
    have h6 := (byteLength_bounds a).2
    have h4 := hstart a
    unfold effort
    split_ifs <;> omega
  cases h with
  | rest => omega
  | offered a => have h6 := (byteLength_bounds a).2; omega
  | accepted a => have h6 := (byteLength_bounds a).2; omega
  | again a => have h25 := heffort a 0; omega
  | parting a => have h25 := heffort a 0; omega
  | sending a k => have h25 := heffort a k; omega
  | finished => omega
  | closing => omega

/-- Without an arrival the distance shrinks, unless the transmitter stays busy.  At zero it has nowhere to
    go. -/
theorem distance_next {i : Input} {todo' : List (Symbol Byte)} {m' : Nat} (hfix : Fixed esc r s)
    (h : Phase r s todo m) (hnone : i.arrival = none)
    (hlaw : todo ++ asked r i = TxLink.taken s.link (linkIn s i) ++ todo')
    (hm : m' < m ∨ (m' = m ∧ (s.link.tx.sendData = true ∨ m = 0))) :
    distance (next esc s i) m' + (if i.wake then 1 else 0) ≤ distance s m ∨
      (distance s m = 0 ∧ distance (next esc s i) m' = 0) := by
  unfold distance
  rw [next_link]
  rcases hm with hless | ⟨rfl, hwait⟩
  · -- the TAP makes a step, which may load `TX_Escape`
    have hnew : TxLink.steps (TxLink.next esc s.link (linkIn s i)) ≤ 8 := TxLink.steps_le
    left
    split_ifs <;> omega
  · cases hd : s.link.tx.sendData
    · -- nothing is left to do
      have hzero : m' = 0 := hwait.resolve_left (by rw [hd]; exact Bool.noConfusion)
      subst hzero
      have hfree := TxLink.stage_free.mpr hd
      rw [phase_zero h, asked_none hnone, List.append_nil, eq_comm, List.append_eq_nil_iff] at hlaw
      have hnext := TxLink.stage_next (linkIn s i) hfix.link
      rw [hfree, hlaw.1] at hnext
      right
      rw [TxLink.steps_zero.mpr hfree, TxLink.steps_zero.mpr hnext]
      exact ⟨rfl, rfl⟩
    · -- the TAP waits, the symbol comes nearer
      have hbusy : TxLink.stage s.link ≠ .free := by
        rw [Ne, TxLink.stage_free, hd]
        exact Bool.noConfusion
      have hstep := TxLink.steps_next (linkIn s i) hfix.link hbusy
      have hwake : (linkIn s i).wake = i.wake := rfl
      left
      rw [hwake] at hstep
      cases hw : i.wake
      · simp only [Bool.false_eq_true, if_false]
        omega
      · rw [hw] at hstep
        simp at hstep ⊢
        omega

/-! ## Runs -/

/-- The inputs of a run: silent STB devices, no word on the bridge's write port, and only commands
    for addresses without an STB target. -/
def Welcome (is : List Input) : Prop :=
  (∀ i ∈ is, Calm i) ∧ ∀ a ∈ commands is, Local a

theorem welcome_cons {i : Input} {is : List Input} (h : Welcome (i :: is)) :
    Calm i ∧ (∀ a, i.arrival = some a → Local a) ∧ Welcome is := by
  obtain ⟨hcalm, hlocal⟩ := h
  refine ⟨hcalm i List.mem_cons_self, ?_, ?_, ?_⟩
  · intro a ha
    exact hlocal a (by simp [commands, ha])
  · exact fun j hj => hcalm j (List.mem_cons_of_mem _ hj)
  · intro a ha
    refine hlocal a ?_
    rw [commands, List.flatMap_cons]
    exact List.mem_append_right _ ha

theorem welcome_append {is js : List Input} (h : Welcome (is ++ js)) : Welcome is ∧ Welcome js := by
  obtain ⟨hcalm, hlocal⟩ := h
  rw [commands, List.flatMap_append] at hlocal
  exact ⟨⟨fun i hi => hcalm i (List.mem_append_left _ hi),
      fun a ha => hlocal a (List.mem_append_left _ ha)⟩,
    ⟨fun i hi => hcalm i (List.mem_append_right _ hi),
      fun a ha => hlocal a (List.mem_append_right _ ha)⟩⟩

/-- **The account of a run.**  What was owed and what has been asked for since is what has been sent
    and what is still owed.  The host's book is right in every cycle, so that it never sends a command while
    anything is owed. -/
theorem run_owes {is : List Input} {g : Book} (hfix : Fixed esc r s) (h : Phase r s todo m)
    (hbook : g.asked = g.received + (owed esc s todo).length) (hwelcome : Welcome is)
    (hpolite : Always (watched (next esc) (tally esc r)) (fun p i => polite p.1 p.2 i = true)
      (g, s) is) :
    ∃ todo' m', Fixed esc r (run (next esc) s is) ∧ Phase r (run (next esc) s is) todo' m' ∧
      owed esc s todo ++ replies esc r is
        = emitted (next esc) wire s is ++ owed esc (run (next esc) s is) todo' := by
  induction is generalizing g s todo m with
  | nil => exact ⟨todo, m, hfix, h, by simp [replies, commands]⟩
  | cons i is ih =>
    obtain ⟨hcalm, hlocal, hrest⟩ := welcome_cons hwelcome
    obtain ⟨hnow, hlater⟩ := hpolite
    -- a polite host sends a command only when nothing is owed any more
    have hquiet : i.arrival ≠ none → todo = [] ∧ s.link.tx.sendData = false := by
      intro ha
      have hsome : i.arrival.isNone = false := by
        rw [← Bool.not_eq_true, Option.isNone_iff_eq_none]
        exact ha
      have hp : polite g s i = true := hnow
      rw [polite, hsome, Bool.false_or, Bool.and_eq_true, beq_iff_eq, Bool.not_eq_true'] at hp
      have hnil : owed esc s todo = [] := by
        rw [← List.length_eq_zero_iff]
        omega
      rw [owed, List.append_eq_nil_iff] at hnil
      exact ⟨encode_nil hnil.2, hp.2⟩
    have hidle : i.arrival ≠ none → s.tap.dec.state = .idle :=
      fun ha => phase_idle h (hquiet ha).1 (hquiet ha).2
    obtain ⟨todo1, m1, h1, hlaw, -⟩ := phase_next hfix hcalm h hlocal hquiet
    have howed := owed_next hfix hlaw
    -- the book stays right: a byte that is sent leaves what is owed
    have hbook1 : (tally esc r g s i).asked
        = (tally esc r g s i).received + (owed esc (next esc s i) todo1).length := by
      have hlen := congrArg List.length howed
      rw [List.length_append, List.length_append] at hlen
      show g.asked + _ = g.received + _ + _
      omega
    obtain ⟨todo', m', hfix', h', hrun⟩ :=
      ih (fixed_next hfix hcalm hidle) h1 hbook1 hrest hlater
    refine ⟨todo', m', hfix', h', ?_⟩
    rw [replies_cons, ← List.append_assoc, howed, List.append_assoc, hrun, emitted_cons,
      List.append_assoc]
    rfl

/-- At distance zero nothing is owed: there is nothing to send, and the link is empty. -/
theorem owed_zero (hfix : Fixed esc r s) (h : Phase r s todo m) (hzero : distance s m = 0) :
    owed esc s todo = [] := by
  obtain ⟨hm, hsteps⟩ := Nat.add_eq_zero_iff.mp hzero
  have hm0 : m = 0 := by omega
  subst hm0
  rw [owed, TxLink.pending_free hfix.link (TxLink.steps_zero.mp hsteps), phase_zero h]
  rfl

/-- **Everything owed is sent**, once the transmitter has been willing in as many cycles as the distance
    says. -/
theorem owed_sent {js : List Input} (hfix : Fixed esc r s) (h : Phase r s todo m)
    (hwelcome : Welcome js) (hnone : commands js = [])
    (hfar : distance s m ≤ (js.filter (·.wake)).length) :
    emitted (next esc) wire s js = owed esc s todo := by
  induction js generalizing s todo m with
  -- no distance left, so nothing is owed
  | nil =>
    rw [owed_zero hfix h (Nat.le_zero.mp hfar)]
    rfl
  | cons j js ih =>
    obtain ⟨hcalm, hlocal, hrest⟩ := welcome_cons hwelcome
    rw [commands, List.flatMap_cons, List.append_eq_nil_iff] at hnone
    have hj : j.arrival = none := by
      cases hj : j.arrival with
      | none => rfl
      | some a => rw [hj] at hnone; cases hnone.1
    have hno {P : Prop} (ha : j.arrival ≠ none) : P := absurd hj ha
    obtain ⟨todo1, m1, h1, hlaw, hm⟩ := phase_next hfix hcalm h hlocal hno
    have howed := owed_next hfix hlaw
    have hreply : replies esc r [j] = [] := by simp [replies, commands, hj]
    rw [hreply, List.append_nil] at howed
    -- a wake of the transmitter brings the reply nearer to its end
    have hnear : distance (next esc s j) m1 ≤ (js.filter (·.wake)).length := by
      rw [List.filter_cons] at hfar
      rcases distance_next hfix h hj hlaw (hm hj) with hless | ⟨-, hzero⟩
      · split_ifs at hfar hless
        · rw [List.length_cons] at hfar
          omega
        · omega
      · omega
    rw [emitted_cons, howed, ih (fixed_next hfix hcalm hno) h1 hrest hnone.2 hnear]

/-! ## The whole way -/

theorem start_fixed (esc : Byte) (r : BitVec 32) (s : State) : Fixed esc r (start s r) where
  link := TxLink.regular_reset esc
  waiting := rfl
  write := rfl
  writeReady := rfl
  cmd h := absurd rfl h
  noRead := rfl
  noRequest := rfl
  resp := rfl

theorem start_phase (r : BitVec 32) (s : State) : Phase r (start s r) [] 0 :=
  Phase.rest ⟨rfl, rfl, rfl, rfl, rfl, rfl, rfl, rfl⟩ rfl rfl rfl rfl

/-- How many cycles of a willing transmitter see every answer through. -/
abbrev patience : Nat := 242

/-- **Every register read of a polite host is answered, and nothing else is sent.**  After a polite
    run `is` and `patience` cycles in which the transmitter does not stay busy, the bytes on the wire
    are the replies to the commands, in order; and at any time before, they are the first of them. -/
theorem registers_sent (esc : Byte) (s : State) (r : BitVec 32) (is js : List Input)
    (hwelcome : Welcome (is ++ js))
    (hpolite : Always (watched (next esc) (tally esc r)) (fun p i => polite p.1 p.2 i = true)
      (⟨0, 0⟩, start s r) is)
    (hend : commands js = []) (hwake : patience ≤ (js.filter (·.wake)).length) :
    emitted (next esc) wire (start s r) (is ++ js) = replies esc r is ∧
      ∀ pre, pre <+: is ++ js →
        emitted (next esc) wire (start s r) pre <+: replies esc r pre := by
  -- the account of every initial segment of `is`
  have hrun : ∀ pre, pre <+: is → ∃ todo m, Fixed esc r (run (next esc) (start s r) pre) ∧
      Phase r (run (next esc) (start s r) pre) todo m ∧
      replies esc r pre = emitted (next esc) wire (start s r) pre
        ++ owed esc (run (next esc) (start s r) pre) todo := by
    rintro pre ⟨post, rfl⟩
    obtain ⟨hpre, -⟩ := (always_append _ _ pre post _).mp hpolite
    rw [List.append_assoc] at hwelcome
    exact run_owes (start_fixed esc r s) (start_phase r s) rfl (welcome_append hwelcome).1 hpre
  have hall : emitted (next esc) wire (start s r) (is ++ js) = replies esc r is := by
    obtain ⟨todo, m, hfix, h, hreplies⟩ := hrun is List.prefix_rfl
    have hnear : distance (run (next esc) (start s r) is) m ≤ (js.filter (·.wake)).length := by
      have hm := phase_bound h
      have hsteps : TxLink.steps (run (next esc) (start s r) is).link ≤ 8 := TxLink.steps_le
      have hlong : 242 ≤ (js.filter (·.wake)).length := hwake
      unfold distance
      omega
    rw [emitted_append, owed_sent hfix h (welcome_append hwelcome).2 hend hnear, hreplies]
  refine ⟨hall, fun pre hpre => ?_⟩
  rcases List.prefix_or_prefix_of_prefix hpre (List.prefix_append is js) with hp | ⟨t, rfl⟩
  · obtain ⟨todo, m, -, -, hreplies⟩ := hrun pre hp
    rw [hreplies]
    exact List.prefix_append _ _
  · obtain ⟨rest, hcut⟩ := hpre
    have hsome : emitted (next esc) wire (start s r) (is ++ t) <+: replies esc r is := by
      rw [← hall, ← hcut, emitted_append _ _ (is ++ t) rest]
      exact List.prefix_append _ _
    rw [replies_append]
    exact hsome.trans (List.prefix_append _ _)

/-- Cycles of a transmitter that stays busy for three cycles after every byte. -/
def slowly (n : Nat) : List Input :=
  (List.replicate n ([{}, {}, { wake := true }] : List Input)).flatten

/-- A read of the identification register, a read of an address without a register, and a read of
    the DMI register with a response that contains the escape byte. -/
def threeReads : List Input :=
  { arrival := some ADDR_IDCODE } :: slowly 30 ++ { arrival := some 0x0A } :: slowly 20
    ++ { arrival := some ADDR_DMI } :: slowly 10

theorem three_registers_sent :
    emitted (next ESC) wire (start default 0x2800) (threeReads ++ slowly patience)
      = [0xA0, 0x01, 0x01, 0x00, 0x00, 0x00] ++ [0xA0, 0x0A, 0x00]
        ++ [0xA0, 0x11, 0x00, 0xA0, 0xA0, 0x00, 0x00, 0x00, 0x00] := by
  have hreplies : replies ESC 0x2800 threeReads
      = [0xA0, 0x01, 0x01, 0x00, 0x00, 0x00] ++ [0xA0, 0x0A, 0x00]
        ++ [0xA0, 0x11, 0x00, 0xA0, 0xA0, 0x00, 0x00, 0x00, 0x00] := by decide +kernel
  rw [← hreplies]
  refine (registers_sent ESC default 0x2800 threeReads (slowly patience) ⟨?_, ?_⟩ ?_ ?_ ?_).1
  · decide +kernel
  · decide +kernel
  · decide +kernel
  · decide +kernel
  · decide +kernel

end RiscDbgUart.HostRead
