/-
  The two serializers on their own: a word goes out as bytes and comes back as the same word.

  `TX_SERIALIZER` and `RX_DESERIALIZER` are taken for an arbitrary `MAX_BITS` that is a multiple of
  eight and fits its own length port, which is `$clog2(MAX_BITS)` bits wide.  Both counters count
  bits in steps of eight; below the length they stay multiples of eight, and so the step past a
  length that fits the port fits it too (`count_step`).

  The word is held, the handshakes are not: the serializer sees any `READY_I`, the deserializer any
  pattern of `RUN_I`.  `Sent` says what the serializer has done after handing over a list of bytes,
  `Got` what the deserializer holds after `n` of them; both are kept by every cycle, and the facts of
  `Serializes` and `Deserializes` are read off them.

  `serialize_deserialize` is the two halves over one list of bytes (`bytesOf`): what the first has handed
  over when it reports done is what makes the second show the word.
-/
import RiscDbgUart.Clocked.Machine
import RiscDbgUart.RxDeserializer
import RiscDbgUart.TxSerializer

set_option linter.unusedVariables false

namespace RiscDbgUart.SerialRoundTrip

open Clocked

variable {maxBits : Nat}

/-! ## Bytes of a word -/

/-- `ceil(length / 8)` -/
def byteCountOf (length : Nat) : Nat := (length + 7) / 8

/-- The first `n` bytes of a word, least significant first. -/
def bytesOf (w : BitVec maxBits) (length n : Nat) : List Byte :=
  (List.range n).map fun k => serialByte w length (8 * k)

@[simp] theorem length_bytesOf (w : BitVec maxBits) (length n : Nat) :
    (bytesOf w length n).length = n := by
  rw [bytesOf, List.length_map, List.length_range]

theorem bytesOf_succ (w : BitVec maxBits) (length n : Nat) :
    bytesOf w length (n + 1) = bytesOf w length n ++ [serialByte w length (8 * n)] := by
  rw [bytesOf, List.range_succ, List.map_append]
  rfl

/-- Fewer bytes of a word are a prefix of more of them. -/
theorem bytesOf_prefix (w : BitVec maxBits) (length : Nat) {m n : Nat} (h : m ≤ n) :
    bytesOf w length m <+: bytesOf w length n := by
  induction n with
  | zero =>
    rw [Nat.le_zero.mp h]
  | succ n ih =>
    rcases Nat.lt_or_ge m (n + 1) with hlt | hge
    · rw [bytesOf_succ]
      exact (ih (by omega)).trans (List.prefix_append _ _)
    · rw [Nat.le_antisymm h hge]

/-- The byte behind a prefix of the bytes is the next one.  This is how a receiver that has been given
    only bytes of the word knows which one comes now. -/
theorem next_byte {w : BitVec maxBits} {length n : Nat} {h : List Byte} {b : Byte}
    (hpre : h ++ [b] <+: bytesOf w length n) :
    h.length < n ∧ b = serialByte w length (8 * h.length) := by
  have hlen := hpre.length_le
  rw [List.length_append, length_bytesOf] at hlen
  have hlt : h.length < n := hlen
  refine ⟨hlt, ?_⟩
  obtain ⟨rest, hrest⟩ := hpre
  have hget : (bytesOf w length n)[h.length]? = some b := by
    rw [← hrest, List.append_assoc, List.getElem?_append_right le_rfl, Nat.sub_self]
    rfl
  rw [bytesOf, List.getElem?_map, List.getElem?_range hlt, Option.map_some] at hget
  exact (Option.some.inj hget).symm

/-- What the length has to be for a word of `maxBits` bits: `MAX_BITS` is a multiple of eight that its
    own length port can hold. -/
structure Fits (maxBits length : Nat) : Prop where
  bytes : 8 ∣ maxBits
  port : maxBits < 2 ^ clog2 maxBits
  pos : 1 ≤ length
  le : length ≤ maxBits

/-- **The counters do not wrap** on a length that fits. -/
theorem count_step {length n : Nat} (h : Fits maxBits length) (hn : 8 * n < length) :
    (8 * n + 8) % 2 ^ clog2 maxBits = 8 * (n + 1) := by
  obtain ⟨m, hm⟩ := h.bytes
  have hport := h.port
  have hle := h.le
  rw [Nat.mod_eq_of_lt (by omega), Nat.mul_succ]

/-! ## The serializer -/

/-- The word and the length are held and there is no reset. -/
def TxHeld (w : BitVec maxBits) (length : Nat) (i : TxSerializer.Input maxBits) : Prop :=
  i.rstI = false ∧ i.dataI = w ∧ i.lengthI = length

/-- The serializer after reset and the cycles `is`. -/
def afterTx (is : List (TxSerializer.Input maxBits)) : TxSerializer.State :=
  run TxSerializer.next TxSerializer.reset is

/-- The bytes it has handed over in these cycles. -/
def handed (is : List (TxSerializer.Input maxBits)) : List Byte :=
  emitted TxSerializer.next TxSerializer.handsOver TxSerializer.reset is

/-- What the serializer owes its user: its counter counts the bytes handed over, `DONE_O` follows the
    last of them by a cycle and nothing else raises it, and nothing is handed over under `DONE_O`. -/
structure Serializes (w : BitVec maxBits) (length : Nat) : Prop where
  count : ∀ is, (∀ i ∈ is, TxHeld w length i) →
    (afterTx is).count = 8 * (handed is).length ∧ 8 * (handed is).length < 2 ^ clog2 maxBits
  done : ∀ is i, (∀ i' ∈ is ++ [i], TxHeld w length i') →
    ((afterTx (is ++ [i])).doneO = true ↔ (handed is).length = byteCountOf length)
  quiet : ∀ is is', (∀ i ∈ is ++ is', TxHeld w length i) →
    (afterTx is).doneO = true → handed (is ++ is') = handed is

/-- The serializer has handed over the bytes `h`.  They are the first bytes of the word, the counter
    stands behind them, and a byte on offer is the one that the counter stands at. -/
structure Sent (w : BitVec maxBits) (length : Nat) (h : List Byte) (s : TxSerializer.State) :
    Prop where
  count : s.count = 8 * h.length
  bytes : h = bytesOf w length h.length
  bound : s.count < length + 8
  done : s.doneO = true → length ≤ s.count
  started : 0 < s.count → s.busyO = true ∨ s.doneO = true
  offered : s.writeO = true →
    s.busyO = true ∧ s.count < length ∧ s.dataByteO = serialByte w length s.count

section Serializer

variable {w : BitVec maxBits} {length : Nat} {h : List Byte} {s : TxSerializer.State}
  {i : TxSerializer.Input maxBits}

theorem sent_reset : Sent w length [] TxSerializer.reset where
  count := rfl
  bytes := rfl
  bound := Nat.succ_pos _
  done := fun hd => nomatch hd
  started := fun hc => absurd hc (Nat.lt_irrefl 0)
  offered := fun ho => nomatch ho

/-- The serializer is at work exactly below the length. -/
theorem serves_held (hi : TxHeld w length i) :
    TxSerializer.serves s i = (s.busyO && decide (s.count < length)) := by
  unfold TxSerializer.serves
  rw [hi.2.2]

/-- `DONE_O` is raised by a serializer at work that has reached the length. -/
theorem next_done_held (hi : TxHeld w length i) :
    (TxSerializer.next s i).doneO = true
      ↔ s.doneO = true ∨ (s.busyO = true ∧ length ≤ s.count) := by
  rw [TxSerializer.next_doneO, hi.1, serves_held hi]
  cases s.doneO <;> cases s.busyO <;> simp

/-- A byte is handed over: it is the next one, and the counter moves on by eight bits, also where
    fewer than eight were left of the word. -/
theorem sent_hands (hfit : Fits maxBits length) (hs : Sent w length h s) (hi : TxHeld w length i)
    (hw : s.writeO = true) (hr : i.readyI = false) :
    Sent w length (h ++ TxSerializer.handsOver s i) (TxSerializer.next s i) := by
  obtain ⟨hbusy, hlow, hbyte⟩ := hs.offered hw
  have hserves : TxSerializer.serves s i = true := by
    rw [serves_held hi, hbusy, decide_eq_true hlow]
    rfl
  have hout : TxSerializer.handsOver s i = [serialByte w length (8 * h.length)] := by
    unfold TxSerializer.handsOver
    rw [hw, hr, ← hs.count, ← hbyte]
    rfl
  have hlen : (h ++ [serialByte w length (8 * h.length)]).length = h.length + 1 :=
    List.length_append
  -- the counter was at the byte that is handed over
  have hcount : (TxSerializer.next s i).count = 8 * (h.length + 1) := by
    rw [TxSerializer.next_count, hi.1, hserves, hw, hr, hs.count,
      count_step hfit (by rw [← hs.count]; exact hlow)]
    rfl
  have hcs := hs.count
  rw [hout]
  refine ⟨?_, ?_, ?_, ?_, ?_, ?_⟩
  · rw [hcount, hlen]
  · rw [hlen, bytesOf_succ, ← hs.bytes]
  · omega
  · -- done is not raised before the last byte
    intro hd
    rcases (next_done_held hi).mp hd with hdone | ⟨-, hle⟩
    · have := hs.done hdone
      omega
    · omega
  · intro _
    left
    rw [TxSerializer.next_busyO, hi.1, hserves]
    rfl
  · intro ho
    rw [TxSerializer.next_writeO, hr, Bool.and_false] at ho
    exact nomatch ho

/-- No byte is handed over, because none is on offer or nobody takes it: the counter stays, and with
    it everything that is said about the bytes. -/
theorem sent_waits (hs : Sent w length h s) (hi : TxHeld w length i)
    (hw : (s.writeO && !i.readyI) = false) :
    Sent w length (h ++ TxSerializer.handsOver s i) (TxSerializer.next s i) := by
  have hout : TxSerializer.handsOver s i = [] := by
    unfold TxSerializer.handsOver
    rw [hw]
    rfl
  -- nothing is handed over, so the counter stays
  have hcount : (TxSerializer.next s i).count = s.count := by
    rw [TxSerializer.next_count, hi.1, Bool.and_assoc, hw, Bool.and_false]
    rfl
  rw [hout, List.append_nil]
  refine ⟨?_, hs.bytes, ?_, ?_, ?_, ?_⟩
  · rw [hcount, hs.count]
  · rw [hcount]
    exact hs.bound
  · intro hd
    rw [hcount]
    rcases (next_done_held hi).mp hd with hdone | ⟨-, hle⟩
    · exact hs.done hdone
    · exact hle
  · intro hpos
    rw [hcount] at hpos
    rcases hs.started hpos with hb | hd
    · rcases Nat.lt_or_ge s.count length with hlow | hle
      · left
        rw [TxSerializer.next_busyO, hi.1, serves_held hi, hb, decide_eq_true hlow]
        rfl
      · right
        exact (next_done_held hi).mpr (Or.inr ⟨hb, hle⟩)
    · right
      exact (next_done_held hi).mpr (Or.inl hd)
  · -- the byte on offer is loaded from the counter
    intro ho
    rw [TxSerializer.next_writeO, hi.1] at ho
    have hserves : TxSerializer.serves s i = true := by
      cases hsv : TxSerializer.serves s i
      · rw [hsv] at ho
        exact nomatch ho
      · rfl
    refine ⟨?_, ?_, ?_⟩
    · rw [TxSerializer.next_busyO, hi.1, hserves]
      rfl
    · rw [serves_held hi, Bool.and_eq_true, decide_eq_true_iff] at hserves
      rw [hcount]
      exact hserves.2
    · rw [TxSerializer.next_dataByteO, hi.1, hi.2.1, hi.2.2, hcount]
      rfl

/-- **One cycle of the serializer.** -/
theorem sent_next (hfit : Fits maxBits length) (hs : Sent w length h s) (hi : TxHeld w length i) :
    Sent w length (h ++ TxSerializer.handsOver s i) (TxSerializer.next s i) := by
  cases hw : (s.writeO && !i.readyI)
  · exact sent_waits hs hi hw
  · rw [Bool.and_eq_true, Bool.not_eq_true'] at hw
    exact sent_hands hfit hs hi hw.1 hw.2

/-- All bytes are handed over exactly when the counter has reached the length. -/
theorem sent_all_iff (hs : Sent w length h s) : length ≤ s.count ↔ h.length = byteCountOf length := by
  have hc := hs.count
  have hb := hs.bound
  unfold byteCountOf
  omega

/-- `DONE_O` after the next cycle.  It depends on the counter alone, which has to have reached the
    length. -/
theorem sent_done_iff (hfit : Fits maxBits length) (hs : Sent w length h s)
    (hi : TxHeld w length i) :
    (TxSerializer.next s i).doneO = true ↔ length ≤ s.count := by
  have hpos := hfit.pos
  rw [next_done_held hi]
  constructor
  · rintro (hd | ⟨-, hle⟩)
    · exact hs.done hd
    · exact hle
  · intro hle
    rcases hs.started (by omega) with hb | hd
    · exact Or.inr ⟨hb, hle⟩
    · exact Or.inl hd

/-- After every run the serializer has sent what it handed over, for any pattern of the handshake. -/
theorem sent_run (hfit : Fits maxBits length) (is : List (TxSerializer.Input maxBits))
    (his : ∀ i ∈ is, TxHeld w length i) : Sent w length (handed is) (afterTx is) := by
  have hall : Always TxSerializer.next (fun _ i => TxHeld w length i) TxSerializer.reset is := by
    rw [always_iff]
    intro pre i post hcut
    exact his i (by rw [hcut]; simp)
  have hstep : ∀ h s i, Sent w length h s → TxHeld w length i →
      Sent w length (h ++ TxSerializer.handsOver s i) (TxSerializer.next s i) :=
    fun h s i hs hi => sent_next hfit hs hi
  exact history_of_step (Sent w length) (fun _ i => TxHeld w length i) hstep is [] _ sent_reset hall

end Serializer

/-- **The serializer does what it owes.**  The three promises are read off `Sent`; that the counter does
    not overflow is where the length has to fit the port. -/
theorem serializes {length : Nat} (w : BitVec maxBits) (hfit : Fits maxBits length) :
    Serializes w length where
  count := by
    intro is his
    have hs := sent_run hfit is his
    obtain ⟨m, hm⟩ := hfit.bytes
    have hport := hfit.port
    have hle := hfit.le
    have hc := hs.count
    have hb := hs.bound
    exact ⟨hc, by omega⟩
  done := by
    intro is i his
    have hs := sent_run hfit is fun i' hi' => his i' (List.mem_append_left _ hi')
    have hi := his i (List.mem_append_right _ (List.mem_singleton_self i))
    unfold afterTx
    rw [run_append]
    exact (sent_done_iff hfit hs hi).trans (sent_all_iff hs)
  quiet := by
    intro is is' his hd
    have hs := sent_run hfit is fun i hi => his i (List.mem_append_left _ hi)
    have hs' := sent_run hfit (is ++ is') his
    have hall := (sent_all_iff hs).mp (hs.done hd)
    have hc := hs'.count
    have hb := hs'.bound
    have hpre : handed is <+: handed (is ++ is') := by
      unfold handed
      rw [emitted_append]
      exact List.prefix_append _ _
    have hlen := hpre.length_le
    unfold byteCountOf at hall
    exact (hpre.eq_of_length (by omega)).symm

/-! ## The deserializer -/

/-- The length is held and there is no reset. -/
def RxHeld (length : Nat) (j : RxDeserializer.Input) : Prop := j.rstI = false ∧ j.lengthI = length

/-- The deserializer after reset and the cycles `js`. -/
def afterRx (maxBits : Nat) (js : List RxDeserializer.Input) : RxDeserializer.State maxBits :=
  run RxDeserializer.next RxDeserializer.reset js

/-- The bytes presented with `RUN_I`. -/
def presented (js : List RxDeserializer.Input) : List Byte :=
  js.flatMap fun j => if j.runI then [j.dataByteI] else []

/-- What the deserializer owes its user when the bytes it is presented are, in this order, bytes that a
    serializer hands over for the word `w`: its counter counts them, `DONE_O` follows the last of them
    by a cycle and nothing else raises it, and the word is then the low `length` bits of `w`. -/
structure Deserializes (w : BitVec maxBits) (length : Nat) : Prop where
  count : ∀ is js, (∀ i ∈ is, TxHeld w length i) → (∀ j ∈ js, RxHeld length j) →
    presented js <+: handed is →
    (afterRx maxBits js).byteCount = 8 * (presented js).length ∧
      8 * (presented js).length < 2 ^ clog2 maxBits
  done : ∀ is js j, (∀ i ∈ is, TxHeld w length i) → (∀ j' ∈ js ++ [j], RxHeld length j') →
    presented js <+: handed is →
    ((afterRx maxBits (js ++ [j])).doneO = true ↔ (presented js).length = byteCountOf length)
  word : ∀ is js, (∀ i ∈ is, TxHeld w length i) → (∀ j ∈ js, RxHeld length j) →
    presented js <+: handed is → (presented js).length = byteCountOf length →
    (afterRx maxBits js).dataO = (w.setWidth length).setWidth maxBits

/-- The deserializer has stored the first `n` bytes of the word. -/
structure Got (w : BitVec maxBits) (length n : Nat) (s : RxDeserializer.State maxBits) : Prop where
  byteCount : s.byteCount = 8 * n
  busy : 0 < n → s.busyO = true
  bits : ∀ k < maxBits,
    s.dataO.getLsbD k = (decide (k < 8 * n) && (decide (k < length) && w.getLsbD k))

section Deserializer

variable {w : BitVec maxBits} {length n : Nat} {s : RxDeserializer.State maxBits}
  {j : RxDeserializer.Input}

theorem got_reset : Got w length 0 (RxDeserializer.reset : RxDeserializer.State maxBits) where
  byteCount := rfl
  busy := fun hpos => absurd hpos (Nat.lt_irrefl 0)
  bits := by
    intro k hk
    exact BitVec.getLsbD_zero

/-- A cycle without `RUN_I` stores nothing and leaves the counter as it is. -/
theorem got_waits (hs : Got w length n s) (hj : RxHeld length j) (hr : j.runI = false) :
    Got w length n (RxDeserializer.next s j) where
  byteCount := by
    rw [RxDeserializer.next_byteCount, hj.1, hr]
    exact hs.byteCount
  busy := by
    intro hpos
    rw [RxDeserializer.next_busyO, hj.1, hs.busy hpos]
    rfl
  bits := by
    intro k hk
    rw [RxDeserializer.next_dataO, hj.1, hr]
    exact hs.bits k hk

/-- The next byte is stored behind the others, at the place that the counter gives.  Of the last byte
    only the bits below the length have a place in the word. -/
theorem got_stores (hfit : Fits maxBits length) (hs : Got w length n s) (hj : RxHeld length j)
    (hr : j.runI = true) (hn : 8 * n < length) (hb : j.dataByteI = serialByte w length (8 * n)) :
    Got w length (n + 1) (RxDeserializer.next s j) := by
  have hroom : (j.runI && decide (s.byteCount < j.lengthI)) = true := by
    rw [hr, hj.2, hs.byteCount, decide_eq_true hn]
    rfl
  refine ⟨?_, ?_, ?_⟩
  · rw [RxDeserializer.next_byteCount, hj.1, hroom, hs.byteCount, count_step hfit hn]
    rfl
  · intro _
    rw [RxDeserializer.next_busyO, hj.1, hroom, Bool.or_true]
    rfl
  · -- bit by bit: inside the new byte, below it, or above it
    intro k hk
    rw [RxDeserializer.next_dataO, hj.1, hroom, hs.byteCount, hb]
    show (setByte s.dataO (8 * n) (serialByte w length (8 * n))).getLsbD k = _
    rw [setByte_bit _ _ _ _ hk]
    by_cases hin : 8 * n ≤ k ∧ k < 8 * n + 8
    · rw [if_pos hin, serialByte_bit _ _ _ _ (by omega), Nat.add_sub_cancel' hin.1,
        decide_eq_true (by omega : k < 8 * (n + 1)), Bool.true_and]
    · rw [if_neg hin, hs.bits k hk]
      have hsame : (k < 8 * n) ↔ (k < 8 * (n + 1)) := by omega
      rw [decide_eq_decide.mpr hsame]

/-- The deserializer stores the bytes of the word as long as it is presented nothing else.  The
    induction takes the run from its end, as a prefix does not lose its earlier bytes. -/
theorem got_run (hfit : Fits maxBits length) (js : List RxDeserializer.Input)
    (hjs : ∀ j ∈ js, RxHeld length j)
    (hpre : presented js <+: bytesOf w length (byteCountOf length)) :
    Got w length (presented js).length (afterRx maxBits js) := by
  -- from the first cycle on, so the induction takes the last cycle off
  induction js using List.reverseRecOn with
  | nil => exact got_reset
  | append_singleton js j ih =>
    have hsplit : presented (js ++ [j]) = presented js ++ (if j.runI then [j.dataByteI] else []) := by
      unfold presented
      rw [List.flatMap_append, List.flatMap_singleton]
    have hrun : afterRx maxBits (js ++ [j]) = RxDeserializer.next (afterRx maxBits js) j := by
      unfold afterRx
      rw [run_append]
      rfl
    have hj := hjs j (List.mem_append_right _ (List.mem_singleton_self j))
    rw [hsplit] at hpre ⊢
    rw [hrun]
    have hs := ih (fun j' hj' => hjs j' (List.mem_append_left _ hj'))
      ((List.prefix_append _ _).trans hpre)
    cases hr : j.runI
    · rw [if_neg Bool.false_ne_true, List.append_nil]
      exact got_waits hs hj hr
    · rw [hr, if_pos rfl] at hpre
      obtain ⟨hlt, hb⟩ := next_byte hpre
      unfold byteCountOf at hlt
      rw [if_pos rfl, List.length_append]
      exact got_stores hfit hs hj hr (by omega) hb

/-- `DONE_O` after the next cycle.  Nothing is presented behind the last byte, so the counter does not
    run past the length. -/
theorem got_done_iff (hfit : Fits maxBits length) (hs : Got w length n s) (hj : RxHeld length j)
    (hn : n ≤ byteCountOf length) :
    (RxDeserializer.next s j).doneO = true ↔ n = byteCountOf length := by
  have hpos := hfit.pos
  unfold byteCountOf at hn ⊢
  rw [RxDeserializer.next_doneO, hj.1, hj.2, hs.byteCount]
  constructor
  · intro hd
    simp only [Bool.not_false, Bool.true_and, Bool.and_eq_true, decide_eq_true_iff] at hd
    omega
  · intro hall
    rw [decide_eq_true (by omega), hs.busy (by omega)]
    rfl

/-- All bytes stored, the word is the low bits, with zeros above the length. -/
theorem got_word (hs : Got w length (byteCountOf length) s) :
    s.dataO = (w.setWidth length).setWidth maxBits := by
  apply BitVec.eq_of_getLsbD_eq
  intro k hk
  rw [hs.bits k hk, BitVec.getLsbD_setWidth, BitVec.getLsbD_setWidth, decide_eq_true hk,
    Bool.true_and]
  unfold byteCountOf
  rcases Nat.lt_or_ge k length with hlow | hhigh
  · rw [decide_eq_true (by omega : k < 8 * ((length + 7) / 8)), Bool.true_and]
  · rw [decide_eq_false (Nat.not_lt.mpr hhigh), Bool.false_and, Bool.and_false]

/-- What is presented are bytes of the word, because it was handed over by a serializer with that word
    and that length. -/
theorem presented_bytes (hfit : Fits maxBits length) {is : List (TxSerializer.Input maxBits)}
    {js : List RxDeserializer.Input} (his : ∀ i ∈ is, TxHeld w length i)
    (hpre : presented js <+: handed is) :
    presented js <+: bytesOf w length (byteCountOf length) := by
  have hs := sent_run hfit is his
  have hc := hs.count
  have hb := hs.bound
  rw [hs.bytes] at hpre
  apply hpre.trans
  apply bytesOf_prefix
  unfold byteCountOf
  omega

end Deserializer

/-- **The deserializer gives the word back.**  Here the other serializer is no machine running beside
    it; all that is used is the list of bytes it handed over. -/
theorem deserializes {length : Nat} (w : BitVec maxBits) (hfit : Fits maxBits length) :
    Deserializes w length where
  count := by
    intro is js his hjs hpre
    have hbytes := presented_bytes hfit his hpre
    have hlen := hbytes.length_le
    rw [length_bytesOf] at hlen
    obtain ⟨m, hm⟩ := hfit.bytes
    have hport := hfit.port
    have hle := hfit.le
    unfold byteCountOf at hlen
    exact ⟨(got_run hfit js hjs hbytes).byteCount, by omega⟩
  done := by
    intro is js j his hjs hpre
    have hbytes := presented_bytes hfit his hpre
    have hlen := hbytes.length_le
    rw [length_bytesOf] at hlen
    have hs := got_run hfit js (fun j' hj' => hjs j' (List.mem_append_left _ hj')) hbytes
    have hj := hjs j (List.mem_append_right _ (List.mem_singleton_self j))
    unfold afterRx
    rw [run_append]
    exact got_done_iff hfit hs hj hlen
  word := by
    intro is js his hjs hpre hall
    have hs := got_run hfit js hjs (presented_bytes hfit his hpre)
    rw [hall] at hs
    exact got_word hs

/-! ## There and back -/

/-- **Serialize then deserialize is the identity**, for every `MAX_BITS` that is a multiple of eight
    and fits its length port, every length and every word, whatever the handshakes. -/
theorem serialize_deserialize {length : Nat} (w : BitVec maxBits) (hbytes : 8 ∣ maxBits)
    (hport : maxBits < 2 ^ clog2 maxBits) (hpos : 1 ≤ length) (hle : length ≤ maxBits) :
    Serializes w length ∧ Deserializes w length := by
  have hfit : Fits maxBits length := ⟨hbytes, hport, hpos, hle⟩
  exact ⟨serializes w hfit, deserializes w hfit⟩

/-- The TAP's serializers on a `DMI` word: 41 of 48 bits. -/
theorem serialize_deserialize_dmi :
    Serializes (0x1FEDCBA9876 : BitVec MAX_BITS) 41 ∧
      Deserializes (0x1FEDCBA9876 : BitVec MAX_BITS) 41 :=
  serialize_deserialize _ (by decide) (by decide) (by decide) (by decide)

end RiscDbgUart.SerialRoundTrip
