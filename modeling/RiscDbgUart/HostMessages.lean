/-
  Every DMI write of a polite host arrives, once and in order.

  The induction is over the cycles of the run.  It carries `Soon n`: given `n` cycles without a new
  byte the hardware settles, and what it accepts on the way is known.  Quiet cycles count `n` down,
  and a polite host sends its next byte only when `n` is zero, so every byte meets a settled state
  and moves the `Stage` by at most one symbol.

  The steps, from the bytes up:

  * `soon_of_bareIdle` turns a computed timeline into `Soon`;
  * `arrived_symbol` and `arrival_symbol` are one byte from a settled state, whatever symbol it completes;
  * `run_accepts` is the induction over a run of spaced bytes;
  * `run_message` reads a word off the bytes of its message (`collected_word`);
  * `requests_accepted` puts them together for a list of words.
-/
import RiscDbgUart.HostWrites

set_option linter.unusedVariables false

namespace RiscDbgUart.HostWrite

open Clocked Stuffing DmiUartTap

/-! ## The host -/

/-- The six bytes of a word, the lowest first. -/
def wordBytes (w : BitVec WIDTH) : List Byte :=
  (List.range 6).map fun k => serialByte w WIDTH (8 * k)

/-- What the host sends for a word: the command and the bytes of the word. -/
def message (w : BitVec WIDTH) : List (Symbol Byte) :=
  .command writeSymbol :: (wordBytes w).map .data

/-- The bytes on the line for a sequence of words. -/
def hostBytes (esc : Byte) (ws : List (BitVec WIDTH)) : List Byte := encode esc (ws.flatMap message)

/-- The bytes that arrive during a run. -/
def arrivals (is : List Input) : List Byte := is.flatMap fun i => i.arrival.toList

/-- Nothing arrives. -/
def Quiet (is : List Input) : Prop := ∀ i ∈ is, i.arrival = none

/-- No byte arrives in the next `n` cycles, and two bytes are sixteen cycles or more apart.  A frame takes
    longer than that at every supported rate, so a serial line is such a host by itself. -/
def Spaced : Nat → List Input → Prop
  | _, [] => True
  | n, i :: is => if i.arrival = none then Spaced (n - 1) is else n = 0 ∧ Spaced 15 is

instance decidableSpaced : ∀ (n : Nat) (is : List Input), Decidable (Spaced n is)
  | _, [] => isTrue trivial
  | n, i :: is =>
    @instDecidableIte _ _ _ _ (decidableSpaced (n - 1) is)
      (@instDecidableAnd _ _ _ (decidableSpaced 15 is))

/-! ## Settling -/

/-- The hardware is in a settled state. -/
def Settled (e : Bool) (st : Stage) (s : State) : Prop :=
  st.Short ∧ ∃ d req, Sees s (settled (between e d) req st)

/-- When nothing arrives for `n` cycles, the hardware has settled and has accepted `reqs`.  This is what the
    induction over the cycles carries, with `n` counting down. -/
def Soon (esc : Byte) (n : Nat) (e : Bool) (st : Stage) (reqs : List DmiReq) (s : State) : Prop :=
  ∀ js, Quiet js → n ≤ js.length →
    Settled e st (run (next esc) s js) ∧ emitted (next esc) accepted s js = reqs

variable {esc : Byte} {n : Nat} {e : Bool} {st : Stage} {reqs : List DmiReq} {s : State}

theorem settled_soon (h : Settled e st s) : Soon esc 0 e st [] s := by
  intro js hquiet _
  induction js generalizing s with
  | nil => exact ⟨h, rfl⟩
  | cons j js ih =>
    obtain ⟨hshort, d, req, hsees⟩ := h
    have hj : j.arrival = none := hquiet j List.mem_cons_self
    have hrest := settled_rests esc e d req hshort
    rw [← hj] at hrest
    obtain ⟨hnext, hnone⟩ := sees_next hsees hrest
    have hend := ih ⟨hshort, d, req, hnext⟩ (fun i hi => hquiet i (List.mem_cons_of_mem _ hi))
      (Nat.zero_le _)
    rw [run_cons, emitted_cons, hnone]
    exact hend

/-- A timeline that ends in a settled state is computed once for the bare hardware, and holds for every
    state that sees it. -/
theorem soon_of_bareIdle (hshort : st.Short) {d : Byte} {req : DmiReq} {k : Nat} {b : State}
    (hsees : Sees s b) (hidle : bareIdle esc k b = some (settled (between e d) req st, reqs)) :
    Soon esc k e st reqs s := by
  induction k generalizing b reqs s with
  -- the induction is on the cycles that the timeline takes
  | zero =>
    rw [bareIdle, Option.some.injEq, Prod.mk.injEq] at hidle
    obtain ⟨rfl, rfl⟩ := hidle
    exact settled_soon ⟨hshort, d, req, hsees⟩
  | succ k ih =>
    rw [bareIdle] at hidle
    cases hstep : bareStep esc b none with
    | none => rw [hstep] at hidle; cases hidle
    | some p =>
      rw [hstep, Option.bind_some] at hidle
      cases hk : bareIdle esc k p.1 with
      | none => rw [hk] at hidle; cases hidle
      | some q =>
        rw [hk, Option.map_some, Option.some.injEq, Prod.mk.injEq] at hidle
        obtain ⟨hq, rfl⟩ := hidle
        -- the cycle is quiet, so it is the one of the timeline
        rintro (_ | ⟨j, js⟩) hquiet hlen
        · exact absurd hlen (Nat.not_succ_le_zero k)
        have hj : j.arrival = none := hquiet j List.mem_cons_self
        rw [← hj] at hstep
        obtain ⟨hnext, hnow⟩ := sees_next hsees hstep
        have hsoon := ih hnext (by rw [hk, ← hq])
        obtain ⟨hend, hlater⟩ := hsoon js (fun i hi => hquiet i (List.mem_cons_of_mem _ hi))
          (Nat.le_of_succ_le_succ hlen)
        rw [run_cons, emitted_cons, hnow, hlater]
        exact ⟨hend, rfl⟩

theorem soon_mono {m : Nat} (h : Soon esc n e st reqs s) (hnm : n ≤ m) : Soon esc m e st reqs s :=
  fun js hquiet hlen => h js hquiet (le_trans hnm hlen)

/-- A quiet cycle brings the settled state nearer, and what it accepts is the first of what is to come. -/
theorem soon_quiet {i : Input} (h : Soon esc n e st reqs s) (hi : i.arrival = none) :
    ∃ later, reqs = accepted s i ++ later ∧ Soon esc (n - 1) e st later (next esc s i) := by
  have hcons : ∀ js, Quiet js → Quiet (i :: js) := by
    intro js hjs j hj
    rcases List.mem_cons.mp hj with rfl | hj
    · exact hi
    · exact hjs j hj
  have hsplit : ∀ js, Quiet js → n - 1 ≤ js.length →
      accepted s i ++ emitted (next esc) accepted (next esc s i) js = reqs :=
    fun js hjs hlen => (h (i :: js) (hcons js hjs) (by rw [List.length_cons]; omega)).2
  refine ⟨reqs.drop (accepted s i).length, ?_, ?_⟩
  · have hsome := hsplit (List.replicate (n - 1) {})
      (fun j hj => by rw [List.eq_of_mem_replicate hj]) (by rw [List.length_replicate])
    rw [← hsome, List.drop_left]
  · intro js hjs hlen
    refine ⟨(h (i :: js) (hcons js hjs) (by rw [List.length_cons]; omega)).1, ?_⟩
    rw [← hsplit js hjs hlen, List.drop_left]

theorem soon_zero (h : Soon esc 0 e st reqs s) : Settled e st s ∧ reqs = [] := by
  obtain ⟨hs, hnil⟩ := h [] (fun j hj => absurd hj List.not_mem_nil) le_rfl
  exact ⟨hs, hnil.symm⟩

/-! ## Bytes -/

/-- What `RX_Escape` shows the TAP for a symbol. -/
def showing : Symbol Byte → RxEscape.State
  | .data b => { state := .data, data := b }
  | .command c => { state := .command, data := c }

theorem next_short {st' : Stage} {sym : Symbol Byte} (hn : st.next sym = some (st', reqs)) :
    st'.Short := by
  cases st <;> cases sym <;> simp only [Stage.next, Option.ite_none_right_eq_some, reduceCtorEq,
    Option.some.injEq, Prod.mk.injEq] at hn
  · obtain ⟨-, rfl, -⟩ := hn
    exact Nat.zero_le 5
  · split_ifs at hn with h5 h6
    · rw [Option.some.injEq, Prod.mk.injEq] at hn
      obtain ⟨rfl, -⟩ := hn
      exact h5
    · rw [Option.some.injEq, Prod.mk.injEq] at hn
      obtain ⟨rfl, -⟩ := hn
      trivial
  · obtain ⟨-, rfl, -⟩ := hn
    exact Nat.zero_le 5

/-- The timeline of a symbol, whichever it is: none takes more than nine cycles. -/
theorem shown_symbol (esc : Byte) (req : DmiReq) {st' : Stage} {sym : Symbol Byte}
    (hn : st.next sym = some (st', reqs)) :
    ∃ k d req', k ≤ 9 ∧ bareIdle esc k (settled (showing sym) req st)
      = some (settled (between false d) req' st', reqs) := by
  cases st <;> cases sym <;> simp only [Stage.next, Option.ite_none_right_eq_some, reduceCtorEq,
    Option.some.injEq, Prod.mk.injEq] at hn
  · -- the command of a message
    obtain ⟨rfl, rfl, rfl⟩ := hn
    exact ⟨5, writeSymbol, req, by omega, shown_command esc req (Or.inl rfl)⟩
  · -- a byte of the word: one of the first five, or the last
    rename_i got b
    split_ifs at hn with h5 h6
    · rw [Option.some.injEq, Prod.mk.injEq] at hn
      obtain ⟨rfl, rfl⟩ := hn
      exact ⟨2, b, req, by omega, shown_data esc b got req (le_of_lt h5)⟩
    · rw [Option.some.injEq, Prod.mk.injEq] at hn
      obtain ⟨rfl, rfl⟩ := hn
      subst h6
      obtain ⟨req', hlast⟩ := shown_last esc b got req
      exact ⟨9, b, req', le_rfl, hlast⟩
  · -- the command of the next message
    rename_i w c
    obtain ⟨rfl, rfl, rfl⟩ := hn
    exact ⟨5, writeSymbol, req, by omega, shown_command esc req (Or.inr ⟨w, rfl⟩)⟩

/-- A byte that is not the first escape byte completes a symbol, for `RX_Escape` as for the
    decoder. -/
theorem arrived_symbol {b : Byte} (h : ¬ (e = false ∧ b = esc)) (bs : List Byte) :
    ∃ sym, arrived esc e b = showing sym ∧
      decode esc e (b :: bs) = sym :: decode esc false bs := by
  cases e with
  | false =>
    have hb : b ≠ esc := fun hb => h ⟨rfl, hb⟩
    exact ⟨.data b, by rw [arrived, if_neg hb]; rfl, by rw [decode, if_neg hb]⟩
  | true =>
    by_cases hb : b = esc
    · exact ⟨.data b, by rw [arrived, if_pos hb]; rfl, by rw [decode, if_pos hb]⟩
    · exact ⟨.command b, by rw [arrived, if_neg hb]; rfl, by rw [decode, if_neg hb]⟩

/-- A byte that completes a symbol.  After fifteen quiet cycles the hardware has settled in the next
    stage. -/
theorem arrival_symbol {i : Input} {b : Byte} {sym : Symbol Byte} {st' : Stage}
    (h : Settled e st s) (hi : i.arrival = some b) (hsym : arrived esc e b = showing sym)
    (hn : st.next sym = some (st', reqs)) :
    accepted s i = [] ∧ Soon esc 15 false st' reqs (next esc s i) := by
  obtain ⟨hshort, d, req, hsees⟩ := h
  have hread := settled_arrives esc e d b req hshort
  rw [hsym, ← hi] at hread
  obtain ⟨hnext, hnone⟩ := sees_next hsees hread
  obtain ⟨k, d', req', hk, hidle⟩ := shown_symbol esc req hn
  exact ⟨hnone, soon_mono (soon_of_bareIdle (next_short hn) hnext hidle) (by omega)⟩

/-- An escape byte completes nothing, and the stage is what it was. -/
theorem arrival_escape {i : Input} (h : Settled false st s) (hi : i.arrival = some esc) :
    accepted s i = [] ∧ Soon esc 15 true st [] (next esc s i) := by
  obtain ⟨hshort, d, req, hsees⟩ := h
  have hread := settled_arrives esc false d esc req hshort
  rw [← hi] at hread
  obtain ⟨hnext, hnone⟩ := sees_next hsees hread
  have hescape : arrived esc false esc = between true esc := by rw [arrived, if_pos rfl]; rfl
  rw [hescape] at hnext
  exact ⟨hnone, soon_mono (settled_soon ⟨hshort, esc, req, hnext⟩) (Nat.zero_le 15)⟩

/-! ## Runs -/

theorem arrivals_cons (i : Input) (is : List Input) :
    arrivals (i :: is) = i.arrival.toList ++ arrivals is := rfl

/-- From a state that is about to settle, a run accepts what is on its way and then the requests of
    the symbols that arrive. -/
theorem run_accepts {pads is : List Input} {st' : Stage} {reqs' : List DmiReq} (hpads : Quiet pads)
    (hlong : 15 ≤ pads.length) (hn : n ≤ 15) (hsoon : Soon esc n e st reqs s) (hspaced : Spaced n is)
    (hrun : st.run (decode esc e (arrivals is)) = some (st', reqs')) :
    emitted (next esc) accepted s (is ++ pads) = reqs ++ reqs' := by
  induction is generalizing n e st st' reqs reqs' s with
  | nil =>
    have hnone : reqs' = [] := by
      have h : some (st, []) = some (st', reqs') := by rw [← hrun]; cases e <;> rfl
      rw [Option.some.injEq, Prod.mk.injEq] at h
      exact h.2.symm
    rw [hnone, List.append_nil]
    exact (hsoon pads hpads (le_trans hn hlong)).2
  | cons i is ih =>
    rw [List.cons_append, emitted_cons]
    rw [arrivals_cons] at hrun
    cases hi : i.arrival with
    | none =>
      rw [Spaced, if_pos hi] at hspaced
      rw [hi, Option.toList_none, List.nil_append] at hrun
      obtain ⟨later, rfl, hnext⟩ := soon_quiet hsoon hi
      rw [ih (by omega) hnext hspaced hrun, List.append_assoc]
    | some b =>
      rw [Spaced, if_neg (by rw [hi]; exact Option.some_ne_none b)] at hspaced
      obtain ⟨rfl, hspaced⟩ := hspaced
      obtain ⟨hsettled, rfl⟩ := soon_zero hsoon
      rw [hi, Option.toList_some, List.singleton_append] at hrun
      by_cases hesc : e = false ∧ b = esc
      · obtain ⟨rfl, hb⟩ := hesc
        rw [hb] at hi hrun
        rw [decode, if_pos rfl] at hrun
        obtain ⟨hnone, hnext⟩ := arrival_escape hsettled hi
        rw [hnone]
        exact ih le_rfl hnext hspaced hrun
      · -- the byte completes a symbol
        obtain ⟨sym, hsym, hdecode⟩ := arrived_symbol hesc (arrivals is)
        rw [hdecode, Stage.run] at hrun
        cases hstage : st.next sym with
        | none => rw [hstage] at hrun; cases hrun
        | some p =>
          obtain ⟨st1, reqs1⟩ := p
          rw [hstage, Option.bind_some] at hrun
          cases hrest : st1.run (decode esc false (arrivals is)) with
          | none => rw [hrest] at hrun; cases hrun
          | some q =>
            rw [hrest, Option.map_some, Option.some.injEq, Prod.mk.injEq] at hrun
            obtain ⟨-, rfl⟩ := hrun
            obtain ⟨hnone, hnext⟩ := arrival_symbol hsettled hi hsym hstage
            rw [hnone, ih le_rfl hnext hspaced hrest]

/-! ## Words -/

/-- Storing the next byte of a word: one more byte agrees with the word. -/
theorem setByte_agrees {got : BitVec MAX_BITS} {w : BitVec WIDTH} {k : Nat} (hk : k < 6)
    (h : ∀ j, j < 8 * k → got.getLsbD j = w.getLsbD j) :
    ∀ j, j < 8 * (k + 1) →
      (setByte got (8 * k) (serialByte w WIDTH (8 * k))).getLsbD j = w.getLsbD j := by
  intro j hj
  have hmax : j < MAX_BITS := by show j < 48; omega
  rw [setByte_bit _ _ _ _ hmax]
  by_cases hlow : 8 * k ≤ j
  · rw [if_pos ⟨hlow, by omega⟩, serialByte_bit _ _ _ _ (by omega), Nat.add_sub_cancel' hlow]
    rcases Nat.lt_or_ge j WIDTH with hw | hw
    · rw [decide_eq_true hw, Bool.true_and]
    · rw [BitVec.getLsbD_of_ge w j hw, Bool.and_false]
  · rw [if_neg (fun hin => hlow hin.1)]
    exact h j (by omega)

/-- The word after `n` of its bytes. -/
def collected (w : BitVec WIDTH) : Nat → BitVec MAX_BITS
  | 0 => 0
  | n + 1 => setByte (collected w n) (8 * n) (serialByte w WIDTH (8 * n))

theorem collected_agrees (w : BitVec WIDTH) {n : Nat} (hn : n ≤ 6) :
    ∀ j, j < 8 * n → (collected w n).getLsbD j = w.getLsbD j := by
  induction n with
  | zero =>
    intro j hj
    exact absurd hj (Nat.not_lt_zero j)
  | succ n ih =>
    intro j hj
    exact setByte_agrees (by omega) (ih (by omega)) j hj

theorem collected_word (w : BitVec WIDTH) : (collected w 6).setWidth WIDTH = w := by
  apply BitVec.eq_of_getLsbD_eq
  intro j hj
  rw [BitVec.getLsbD_setWidth, decide_eq_true hj, Bool.true_and]
  have hmax : j < 8 * 6 := lt_of_lt_of_le hj (by decide)
  exact collected_agrees w le_rfl j hmax

theorem run_append (st : Stage) (syms syms' : List (Symbol Byte)) :
    st.run (syms ++ syms') = (st.run syms).bind fun p =>
      (p.1.run syms').map fun q => (q.1, p.2 ++ q.2) := by
  induction syms generalizing st with
  | nil => cases h : st.run syms' <;> simp [Stage.run, h]
  | cons sym syms ih =>
    rw [List.cons_append, Stage.run, Stage.run]
    cases hn : st.next sym with
    | none => rfl
    | some p =>
      rw [Option.bind_some, Option.bind_some, ih]
      cases hp : p.1.run syms with
      | none => rfl
      | some q => cases hq : q.1.run syms' <;> simp [hq]

/-- Between two messages. -/
def Stage.Ready (st : Stage) : Prop := st = .fresh ∨ ∃ w, st = .finished w

/-- The rest of a word, from its byte `n` on.  The induction is on how many are left. -/
theorem run_bytes (w : BitVec WIDTH) {m n : Nat} (hn : n + (m + 1) = 6) :
    (Stage.writing n (collected w n)).run
        ((List.range' n (m + 1)).map fun k => .data (serialByte w WIDTH (8 * k)))
      = some (.finished (collected w 6), requestsOf w) := by
  induction m generalizing n with
  | zero =>
    have hlast : n = 5 := by omega
    subst hlast
    have hnext : (Stage.writing 5 (collected w 5)).next (.data (serialByte w WIDTH (8 * 5)))
        = some (.finished (collected w 6), requestsOf ((collected w 6).setWidth WIDTH)) := rfl
    rw [collected_word] at hnext
    rw [List.range'_succ, List.map_cons, Stage.run, hnext, Option.bind_some]
    simp [Stage.run]
  | succ m ih =>
    have hlt : n < 5 := by omega
    rw [List.range'_succ, List.map_cons, Stage.run, Stage.next, if_pos hlt, Option.bind_some]
    show ((Stage.writing (n + 1) (collected w (n + 1))).run _).map _ = _
    rw [ih (by omega)]
    rfl

/-- A whole message leaves its request behind, from every stage in which a command may come. -/
theorem run_message {st : Stage} (h : st.Ready) (w : BitVec WIDTH) :
    st.run (message w) = some (.finished (collected w 6), requestsOf w) := by
  have hstart : st.next (.command writeSymbol) = some (.writing 0 0, []) := by
    rcases h with rfl | ⟨v, rfl⟩ <;> rfl
  have hbytes : (wordBytes w).map Symbol.data
      = (List.range' 0 (5 + 1)).map fun k => Symbol.data (serialByte w WIDTH (8 * k)) := by
    rw [wordBytes, List.range_eq_range', List.map_map]
    rfl
  rw [message, Stage.run, hstart, Option.bind_some, hbytes]
  show ((Stage.writing 0 (collected w 0)).run _).map _ = _
  rw [run_bytes w rfl]
  rfl

theorem run_messages {st : Stage} (h : st.Ready) (ws : List (BitVec WIDTH)) :
    ∃ st', st'.Ready ∧ st.run (ws.flatMap message) = some (st', ws.flatMap requestsOf) := by
  induction ws generalizing st with
  | nil => exact ⟨st, h, rfl⟩
  | cons w ws ih =>
    have hready : (Stage.finished (collected w 6)).Ready := Or.inr ⟨_, rfl⟩
    obtain ⟨st', hst', hrun⟩ := ih hready
    refine ⟨st', hst', ?_⟩
    rw [List.flatMap_cons, run_append, run_message h, Option.bind_some, hrun]
    rfl

theorem requestsOf_flatMap (ws : List (BitVec WIDTH)) :
    ws.flatMap requestsOf = (ws.filter isRequest).map DmiReq.ofWord := by
  induction ws with
  | nil => rfl
  | cons w ws ih =>
    rw [List.flatMap_cons, ih, List.filter_cons, requestsOf]
    cases isRequest w <;> rfl

/-! ## The whole way -/

theorem reset_settled (s : State) : Settled false .fresh (reset s) :=
  ⟨trivial, 0, ⟨0, 0, 0⟩, rfl, rfl⟩

/-- **Every DMI write of a polite host arrives.**  When the bytes of a sequence of words reach
    `RX_Escape` sixteen cycles or more apart, the debug module has accepted, sixteen cycles after the
    last byte, the requests among the words, in order; and at no point has it accepted anything but
    the first of them. -/
theorem requests_accepted (esc : Byte) (hesc : esc ≠ writeSymbol) (s : State)
    (ws : List (BitVec WIDTH)) (is pads : List Input) (hbytes : arrivals is = hostBytes esc ws)
    (hspaced : Spaced 0 is) (hpads : Quiet pads) (hlong : 15 ≤ pads.length) :
    emitted (next esc) accepted (reset s) (is ++ pads) = (ws.filter isRequest).map DmiReq.ofWord ∧
      ∀ pre, pre <+: is ++ pads → emitted (next esc) accepted (reset s) pre
        <+: (ws.filter isRequest).map DmiReq.ofWord := by
  have hall : emitted (next esc) accepted (reset s) (is ++ pads)
      = (ws.filter isRequest).map DmiReq.ofWord := by
    -- the only command is WRITE, which is not the escape symbol
    have hclean : ∀ c, Symbol.command c ∈ ws.flatMap message → c ≠ esc := by
      intro c hc
      obtain ⟨w, -, hw⟩ := List.mem_flatMap.mp hc
      rcases List.mem_cons.mp hw with h | h
      · rw [Symbol.command.injEq] at h
        rw [h]
        exact hesc.symm
      · obtain ⟨b, -, hb⟩ := List.mem_map.mp h
        cases hb
    obtain ⟨st', -, hrun⟩ := run_messages (Or.inl rfl) ws
    rw [← decode_encode esc _ hclean, ← hostBytes, ← hbytes] at hrun
    rw [run_accepts hpads hlong (Nat.zero_le 15) (settled_soon (reset_settled s)) hspaced hrun,
      List.nil_append, requestsOf_flatMap]
  refine ⟨hall, ?_⟩
  rintro pre ⟨post, hcut⟩
  -- at an earlier cut the accepted ones are a prefix of all of them
  rw [← hall, ← hcut, emitted_append]
  exact List.prefix_append _ _

/-- A run in which the bytes `bs` arrive every sixteen cycles. -/
def paced (bs : List Byte) : List Input :=
  bs.flatMap fun b => { arrival := some b } :: List.replicate 15 {}

/-- A write of `0x2800` to the register `0x10`; its second byte is the escape byte. -/
theorem write_accepted :
    emitted (next ESC) accepted (reset default)
        (paced [0xA0, 0x71, 0x02, 0xA0, 0xA0, 0x00, 0x00, 0x40, 0x00]
          ++ List.replicate 15 ({} : Input))
      = [{ addr := 0x10, op := DTM_WRITE, data := 0x2800 }] := by
  have hwords : (([0x400000A002] : List (BitVec WIDTH)).filter isRequest).map DmiReq.ofWord
      = [{ addr := 0x10, op := DTM_WRITE, data := 0x2800 }] := by decide
  rw [← hwords]
  refine (requests_accepted ESC (by decide) default [0x400000A002] (paced _) _ ?_ ?_ ?_ ?_).1
  · decide +kernel
  · decide +kernel
  · intro i hi
    rw [List.eq_of_mem_replicate hi]
  · rw [List.length_replicate]

end RiscDbgUart.HostWrite
