/-
  Whole sessions over the serial line.

  A session is a list of messages, each of them with the time behind it that its effect takes; the bits
  of the frames may come with any pauses between them.  The debug module accepts the requests of the
  messages in order, and the line back carries, in frames of its own, the answer to every read: the
  register of the bridge shows what the debug module has answered to the last DMI read before it.

  The induction is over the messages.  One of them takes the system from rest to rest (`rest_item`), and
  between two of them the line so far is the frames of the bytes that the receiver has announced
  (`Heard`), and the bridge has stored the answer to the last DMI read.

  The wait behind a message is part of it (`Item.pause`): twenty cycles behind a write, in which the debug
  module accepts and answers the request; and the time of the whole reply behind a read, since the
  decoder must be free for the next command.  A session of a host that does not wait is not described
  here: what goes wrong there is the subject of `DataSymbols`, `CommandSymbols` and `ReadAnswers`.

  `session_run` is the induction, `session_framed` starts it at the reset, and `back_framed` reads the
  line back as frames of the bytes that the transmitter has taken.
-/
import RiscDbgUart.SerialSession

set_option linter.unusedVariables false

namespace RiscDbgUart.UartDtmTop

open Clocked Stuffing DmiUartTap
open DmMem (Params)
open HostWrite (Stage)

/-! ## What the host sends, and what it waits for -/

/-- A message: a word for the DMI, or the command that asks for a register. -/
inductive Item
  | write (w : BitVec WIDTH)
  | read (a : Addr)

def Item.symbols : Item → List (Symbol Byte)
  | .write w => HostWrite.message w
  | .read a => [.command (symbolOf CMD_READ a)]

/-- The bytes on the line. -/
def Item.bytes (esc : Byte) (it : Item) : List Byte := encode esc it.symbols

/-- The request that it makes. -/
def Item.requests : Item → List DmiReq
  | .write w => HostWrite.requestsOf w
  | .read _ => []

/-- It asks for no register of an STB target. -/
def Item.Local : Item → Prop
  | .write _ => True
  | .read a => HostRead.Local a

/-- The answer, when the debug module has answered the requests so far by `answers`. -/
def Item.reply (esc : Byte) (answers : List (DmiReq × BitVec 32)) : Item → List Byte
  | .write _ => []
  | .read a => HostRead.reply esc (DmiPairing.lastRead answers) a

/-- The time behind it, in cycles: a read is answered in at most fourteen bytes. -/
def Item.pause (r : Rates) : Item → Nat
  | .write _ => 20
  | .read _ => 160 * UartTx.bitTime r

/-- The line of a session: the frames of each message, and then the time that it takes. -/
inductive Session (r : Rates) (esc : Byte) : List Item → List Bool → Prop
  | nil : Session r esc [] []
  | item {it : Item} {items : List Item} {l ls : List Bool} {k : Nat} :
    Framed (UartTx.bitTime r) (it.bytes esc) l → it.pause r ≤ k → Session r esc items ls →
      Session r esc (it :: items) (l ++ (List.replicate k true ++ ls))

/-- The answers to a list of messages, `k` of the requests having been made before. -/
def replies (esc : Byte) (answers : List (DmiReq × BitVec 32)) : Nat → List Item → List Byte
  | _, [] => []
  | k, it :: items =>
    it.reply esc (answers.take k) ++ replies esc answers (k + it.requests.length) items

variable {n w : Nat} {r : Rates} {esc : Byte} {p : Params n} {s : State n} {st : Stage}

/-! ## One message -/

/-- **From rest to rest**, with any message: a word for the write path or a read.  The two have their
    own lemmas; this is what they have in common. -/
theorem rest_item (hr : UartTx.Workable r)
    (hread : cmdOf esc ≠ CMD_READ) (hwrite : cmdOf esc ≠ CMD_WRITE)
    {it : Item} {as js : List (Input n w)} {x : Input n w} {answers : List (DmiReq × BitVec 32)}
    (hrest : Rest st s)
    (hspaced : HostWrite.Spaced 0 (seen (announcing r esc p) (hostIn p) (none, s) (as ++ x :: js)))
    (hheard : emitted (next r esc p) received s as = it.bytes esc)
    (hquiet : emitted (next r esc p) received (run (next r esc p) s as) (x :: js) = [])
    (hclear : Always (next r esc p) Clear s (as ++ x :: js)) (hlocal : it.Local)
    (hlong : it.pause r ≤ js.length + 5) (hstored : DmiPairing.Stored answers (exchange s)) :
    ∃ st', Rest st' (run (next r esc p) s (as ++ x :: js)) ∧
      emitted (next r esc p) accepted s (as ++ x :: js) = it.requests ∧
      emitted (next r esc p) sent s (as ++ x :: js) = it.reply esc answers ∧
      Always (next r esc p) Plain s (as ++ x :: js) := by
  cases it with
  -- a write: its command is not the escape symbol, and it is an access that `SerialWrites` takes
  | write v =>
    have hclean : ∀ c, Symbol.command c ∈ HostWrite.message v → c ≠ esc := by
      intro c hc
      rcases List.mem_cons.mp hc with h | h
      · rw [Symbol.command.inj h]
        intro heq
        rw [← heq, cmdOf_symbolOf] at hwrite
        exact hwrite rfl
      · obtain ⟨b, -, hb⟩ := List.mem_map.mp h
        cases hb
    have hlong' : 20 ≤ js.length + 5 := hlong
    obtain ⟨hend, hacc, hsent, hunused⟩ :=
      rest_symbols hrest hspaced hheard hquiet hclear (by omega) hclean
      (HostWrite.run_message hrest.ready v) (Or.inr ⟨_, rfl⟩)
    exact ⟨_, hend, hacc, hsent, always_imp (fun _ _ h => h.1) _ _ hunused⟩
  -- a read: the pause covers the exchange and the frames of the whole reply
  | read a =>
    have hclean : symbolOf CMD_READ a ≠ esc := by
      intro heq
      rw [← heq, cmdOf_symbolOf] at hread
      exact hread rfl
    have hlong' : 160 * UartTx.bitTime r ≤ js.length + 5 := hlong
    have htime : readTime r < js.length := by
      have hratio := hr.ratio
      have hbytes : readTime r = 242 + 14 * (10 * UartTx.bitTime r + 1) := rfl
      omega
    exact ⟨st, rest_read hr hrest hspaced hheard hquiet hclear hclean hlocal htime hstored⟩

/-! ## The line -/

/-- The line so far is the frames of the bytes that the receiver has announced. -/
def Heard (r : Rates) (esc : Byte) (p : Params n) (s : State n) (is : List (Input n w)) : Prop :=
  Framed (UartTx.bitTime r) (emitted (next r esc p) received s is) (line is)

/-- The receiver hears the bytes of a message and nothing behind them, and has heard what is on the line
    then. -/
theorem heard_item (hr : UartTx.Workable r) (romAddr : Nat) (i₀ : Input n w)
    {pre as js : List (Input n w)} {bytes : List Byte} {l : List Bool} {k : Nat}
    (hpre : Heard r esc p (reset r romAddr s i₀) pre) (hl : Framed (UartTx.bitTime r) bytes l)
    (has : line as = l ++ List.replicate 4 true) (hjs : line js = List.replicate k true) :
    emitted (next r esc p) received (run (next r esc p) (reset r romAddr s i₀) pre) as = bytes ∧
      emitted (next r esc p) received
        (run (next r esc p) (run (next r esc p) (reset r romAddr s i₀) pre) as) js = [] ∧
      Heard r esc p (reset r romAddr s i₀) (pre ++ (as ++ js)) := by
  obtain ⟨hbytes, hnone⟩ := heard_next hr esc p romAddr s i₀ hpre rfl hl has hjs
  rw [run_append] at hnone
  refine ⟨hbytes, hnone, ?_⟩
  have hidle := framed_append (framed_append hl (framed_idle (UartTx.bitTime r) 4))
    (framed_idle (UartTx.bitTime r) k)
  rw [List.append_nil, List.append_nil] at hidle
  rw [Heard, emitted_append, emitted_append, hbytes, hnone, List.append_nil, line_append, line_append,
    has, hjs]
  exact framed_append hpre hidle

theorem line_split {is : List (Input n w)} {ls ls' : List Bool} (h : line is = ls ++ ls') :
    ∃ as js, is = as ++ js ∧ line as = ls ∧ line js = ls' := List.map_eq_append_iff.mp h

/-! ## Between two messages -/

/-- Between two messages of a session; `pre` are the cycles since the reset, `answers` what the debug
    module has answered in them. -/
structure Between (r : Rates) (esc : Byte) (p : Params n) (s : State n) (st : Stage)
    (answers : List (DmiReq × BitVec 32)) (pre : List (Input n w)) : Prop where
  heard : Heard r esc p s pre
  rest : Rest st (run (next r esc p) s pre)
  stored : DmiPairing.Stored answers (exchange (run (next r esc p) s pre))

/-- The receiver leaves the write path its time, at any place of any run. -/
theorem spaced_between (hr : UartTx.Workable r) (romAddr : Nat) (i₀ : Input n w)
    (pre is : List (Input n w)) :
    HostWrite.Spaced 0 (seen (announcing r esc p) (hostIn p)
      (none, run (next r esc p) (reset r romAddr s i₀) pre) is) := by
  have hrx : (run (next r esc p) (reset r romAddr s i₀) pre).dtm.uart.rx
      = run (UartRx.next r) (UartRx.reset r) (line pre) := rx_run r esc p pre _
  exact spaced_seen (supported_of_workable hr) is (line pre) (Nat.zero_le 15) hrx
    (fun h0 => absurd h0 (lt_irrefl 0)) (fun ms hms => absurd hms (Nat.not_lt_zero _))
    fun ha => absurd rfl ha

/-- The cycles of a message: those of its frames, four of the idle line, one more, and the rest.  Four
    cycles is the delay line of the receiver. -/
theorem line_item {is : List (Input n w)} {l : List Bool} {k : Nat}
    (h : line is = l ++ List.replicate k true) (hk : 5 ≤ k) :
    ∃ as x js, is = as ++ x :: js ∧ line as = l ++ List.replicate 4 true ∧
      line (x :: js) = List.replicate (js.length + 1) true ∧ js.length + 5 = k := by
  have hcut : l ++ List.replicate k true
      = (l ++ List.replicate 4 true) ++ List.replicate (k - 5 + 1) true := by
    rw [List.append_assoc, List.replicate_append_replicate]
    congr 2
    omega
  rw [hcut] at h
  obtain ⟨as, ys, hsplit, has, hys⟩ := line_split h
  have hlen := congrArg List.length hys
  rw [line, List.length_map, List.length_replicate] at hlen
  cases ys with
  | nil => cases hlen
  | cons x js =>
    rw [List.length_cons] at hlen
    refine ⟨as, x, js, hsplit, has, ?_, by omega⟩
    rw [hys, ← hlen]

/-- **One message of a session** leads from between messages to between messages, with the answers
    recorded and the requests sent. -/
theorem between_item (hr : UartTx.Workable r)
    (hread : cmdOf esc ≠ CMD_READ) (hwrite : cmdOf esc ≠ CMD_WRITE)
    (romAddr : Nat) (i₀ : Input n w) {it : Item} {l : List Bool} {k : Nat} {pre is : List (Input n w)}
    {answers : List (DmiReq × BitVec 32)}
    (hbetween : Between r esc p (reset r romAddr s i₀) st answers pre)
    (hl : Framed (UartTx.bitTime r) (it.bytes esc) l) (hk : it.pause r ≤ k) (hlocal : it.Local)
    (hline : line is = l ++ List.replicate k true)
    (hclear : Always (next r esc p) Clear (run (next r esc p) (reset r romAddr s i₀) pre) is) :
    ∃ st' now, Between r esc p (reset r romAddr s i₀) st' (answers ++ now) (pre ++ is) ∧
      emitted (next r esc p) (answered p) (run (next r esc p) (reset r romAddr s i₀) pre) is = now ∧
      now.map Prod.fst = it.requests ∧
      emitted (next r esc p) sent (run (next r esc p) (reset r romAddr s i₀) pre) is
        = it.reply esc answers ∧
      Always (next r esc p) Plain (run (next r esc p) (reset r romAddr s i₀) pre) is := by
  have hratio := hr.ratio
  have hpause : 20 ≤ it.pause r := by
    cases it with
    | write v => exact le_rfl
    | read a =>
      show 20 ≤ 160 * UartTx.bitTime r
      omega
  -- the cycles of the message: to its last byte, the one that takes it, and the pause
  obtain ⟨as, x, js, rfl, has, hjs, hlen⟩ := line_item hline (by omega)
  obtain ⟨hheard, hquiet, hpre⟩ := heard_item hr romAddr i₀ hbetween.heard hl has hjs
  obtain ⟨st', hrest, hacc, hsent, hplain⟩ := rest_item hr hread hwrite hbetween.rest
    (spaced_between hr romAddr i₀ pre _) hheard hquiet hclear hlocal (by omega) hbetween.stored
  have hstored := stored_run r esc p hbetween.stored (as ++ x :: js)
  rw [← run_append] at hrest hstored
  refine ⟨st', _, ⟨hpre, hrest, hstored⟩, rfl, ?_, hsent, hplain⟩
  -- the requests are the first halves of the answers
  rw [← emitted_map, ← hacc]
  simp only [answered_fst]

/-- **The messages of a session**, one after the other, by induction on the session. -/
theorem session_run (hr : UartTx.Workable r)
    (hread : cmdOf esc ≠ CMD_READ) (hwrite : cmdOf esc ≠ CMD_WRITE)
    (romAddr : Nat) (i₀ : Input n w) {items : List Item} {ls : List Bool} {pre is : List (Input n w)}
    {answers : List (DmiReq × BitVec 32)} (hsession : Session r esc items ls)
    (hbetween : Between r esc p (reset r romAddr s i₀) st answers pre)
    (hlocal : ∀ it ∈ items, it.Local) (hline : line is = ls)
    (hclear : Always (next r esc p) Clear (run (next r esc p) (reset r romAddr s i₀) pre) is) :
    ∃ st' now, Between r esc p (reset r romAddr s i₀) st' (answers ++ now) (pre ++ is) ∧
      emitted (next r esc p) (answered p) (run (next r esc p) (reset r romAddr s i₀) pre) is = now ∧
      now.map Prod.fst = items.flatMap Item.requests ∧
      emitted (next r esc p) sent (run (next r esc p) (reset r romAddr s i₀) pre) is
        = replies esc (answers ++ now) answers.length items ∧
      Always (next r esc p) Plain (run (next r esc p) (reset r romAddr s i₀) pre) is := by
  induction hsession generalizing pre is st answers with
  | nil =>
    have hnone : is = [] := List.map_eq_nil_iff.mp hline
    subst hnone
    refine ⟨st, [], ?_, rfl, rfl, rfl, trivial⟩
    rw [List.append_nil, List.append_nil]
    exact hbetween
  | @item it items l ls k hl hk _ ih =>
    rw [← List.append_assoc] at hline
    obtain ⟨as, js, rfl, has, hjs⟩ := line_split hline
    rw [always_append] at hclear
    obtain ⟨st₁, first, hmid, hans, hreqs, hsent, hplain⟩ :=
      between_item hr hread hwrite romAddr i₀ hbetween
      hl hk (hlocal _ List.mem_cons_self) has hclear.1
    rw [← run_append] at hclear
    obtain ⟨st', later, hend, hans', hreqs', hsent', hplain'⟩ :=
      ih hmid (fun it hit => hlocal it (List.mem_cons_of_mem _ hit)) hjs hclear.2
    refine ⟨st', first ++ later, ?_, ?_, ?_, ?_, ?_⟩
    · rw [← List.append_assoc, ← List.append_assoc]
      exact hend
    · rw [emitted_append, hans, ← run_append, hans']
    · rw [List.map_append, hreqs, hreqs', List.flatMap_cons]
    · -- the later messages add to the answers, behind those that were there before
      have hcount : first.length = it.requests.length := by rw [← hreqs, List.length_map]
      rw [emitted_append, hsent, ← run_append, hsent', replies, List.take_left, ← hcount,
        ← List.append_assoc, List.length_append]
    · rw [always_append, ← run_append]
      exact ⟨hplain, hplain'⟩

/-! ## From the reset -/

/-- After the reset everything is at rest, unless a device is valid while it lasts. -/
theorem rest_reset (r : Rates) (romAddr : Nat) (s : State n) (i₀ : Input n w)
    (hnobody : ReadInterconnect.validAddress (DtmUart.devices s.dtm (dtmIn s i₀)) = ADDR_NOP) :
    Rest .fresh (reset r romAddr s i₀) := by
  have hview : writeView (reset r romAddr s i₀)
      = HostWrite.reset { (default : HostWrite.State) with side := DtmUart.writeSide s.dtm } := rfl
  have htap : DmiUartTap.ReadRest (reset r romAddr s i₀).dtm.tap :=
    ⟨rfl, rfl, rfl, rfl, rfl, rfl, rfl, rfl, rfl⟩
  refine ⟨Or.inl rfl, ⟨(reset r romAddr s i₀).dtm.tap.dec, Or.inl rfl, ?_⟩, SimpleFifo.holds_reset _, rfl,
    ⟨htap, rfl, hnobody, rfl, rfl, rfl, ⟨rfl, rfl, rfl⟩⟩⟩
  exact HostWrite.reset_settled { (default : HostWrite.State) with side := DtmUart.writeSide s.dtm }

theorem between_reset (r : Rates) (esc : Byte) (p : Params n) (romAddr : Nat) (s : State n)
    (i₀ : Input n w)
    (hnobody : ReadInterconnect.validAddress (DtmUart.devices s.dtm (dtmIn s i₀)) = ADDR_NOP) :
    Between r esc p (reset r romAddr s i₀) .fresh [] ([] : List (Input n w)) :=
  ⟨.nil, rest_reset r romAddr s i₀ hnobody, Or.inl ⟨rfl, Or.inl ⟨rfl, rfl, rfl, rfl, rfl⟩⟩⟩

/-- The channel stays with this end on every line of frames, and the `STB` targets are silent by
    assumption. -/
theorem clear_framed (hr : UartTx.Workable r) (esc : Byte) (p : Params n) (romAddr : Nat) (s : State n)
    (i₀ : Input n w) {is : List (Input n w)} {bs : List Byte} {ls : List Bool} {k : Nat}
    (hl : Framed (UartTx.bitTime r) bs ls) (hline : line is = ls ++ List.replicate (4 + k) true)
    (hsilent : ∀ i ∈ is, DtmUart.Silent { stbI := i.stbI }) :
    Always (next r esc p) Clear (reset r romAddr s i₀) is := by
  refine always_and _ _ (channel_line hr esc p romAddr s i₀ hl hline) ?_
  rw [always_iff]
  intro pre i post hcut
  have hi := hsilent i (by rw [hcut]; exact List.mem_append_right _ List.mem_cons_self)
  exact ⟨hi.stb0Status, hi.stb0Data, hi.stb1Status, hi.stb1Data⟩

theorem session_framed {items : List Item} {ls : List Bool} (h : Session r esc items ls) :
    Framed (UartTx.bitTime r) (items.flatMap (Item.bytes esc)) ls := by
  induction h with
  | nil => exact .nil
  | item hl _ _ ih => exact framed_append hl (framed_append (framed_idle _ _) ih)

/-- The line of a session without pauses in the messages, and with none longer than needed. -/
def lineOf (r : Rates) (esc : Byte) : List Item → List Bool
  | [] => []
  | it :: items => (it.bytes esc).flatMap (frameLine (UartTx.bitTime r))
      ++ (List.replicate (it.pause r) true ++ lineOf r esc items)

theorem session_lineOf (r : Rates) (esc : Byte) (items : List Item) :
    Session r esc items (lineOf r esc items) := by
  induction items with
  | nil => exact .nil
  | cons it items ih => exact .item (framed_frames _ _) le_rfl ih

/-- The level of the line back. -/
def back (s : State n) (i : Input n w) : List Bool := [DtmUart.tx0O s.dtm (dtmIn s i)]

/-- **The line back**, in a run that ends with a frame time in which nothing is sent: the frames of the
    bytes that the transmitter has taken. -/
theorem back_framed (hr : UartTx.Workable r) {is pads : List (Input n w)}
    (hidle : UartTx.Idle s.dtm.uart.tx)
    (hplain : Always (next r esc p) Plain s is)
    (hunused : Always (next r esc p) Unused (run (next r esc p) s is) pads)
    (hlong : 10 * UartTx.bitTime r + 1 ≤ pads.length) :
    ∃ l, Framed (UartTx.bitTime r) (emitted (next r esc p) sent s (is ++ pads)) l ∧
      emitted (next r esc p) back s (is ++ pads) ++ [true, true] = [true, true] ++ l := by
  -- the run of the transmitter alone, inside the run of the whole system
  let pins (s : State n) (i : Input n w) := Uart.txIn s.dtm.uart (DtmUart.uartIn s.dtm (dtmIn s i))
  have hone : ∀ j ∈ seen (next r esc p) pins s is, UartTx.plain j = true := by
    refine forall_emitted _ _ (fun j => UartTx.plain j = true) s is (always_imp ?_ _ _ hplain)
    intro s i hi j hj
    rw [List.mem_singleton.mp hj]
    exact hi
  have hrest : ∀ j ∈ seen (next r esc p) pins (run (next r esc p) s is) pads,
      UartTx.plain j = true ∧ j.txStartI = false := by
    refine forall_emitted _ _ (fun j => UartTx.plain j = true ∧ j.txStartI = false) _ pads
      (always_imp ?_ _ _ hunused)
    intro s i hi j hj
    rw [List.mem_singleton.mp hj]
    exact hi
  have hlen : 10 * UartTx.bitTime r + 1
      ≤ (seen (next r esc p) pins (run (next r esc p) s is) pads).length := by
    rw [seen_length]
    exact hlong
  obtain ⟨l, hl, hline, -⟩ := UartTx.framesTaken_run hr hone hrest hidle hlen
  rw [← seen_append] at hl hline
  -- what the part takes and sends is what the system takes and sends
  have htaken := emitted_component (tx_component r esc p) UartTx.taken (is ++ pads) s
  have hlevels := emitted_component (tx_component r esc p) UartTx.line (is ++ pads) s
  refine ⟨l, ?_, ?_⟩
  · rw [htaken] at hl
    exact hl
  · rw [hlevels] at hline
    exact hline

/-- **A debug session.**  When the line carries the messages of a session and is then idle for eleven
    bit times, the debug module has accepted the requests of the messages, each once and in order, and
    the line back has carried the answers to the reads and nothing else.  What the bridge's register
    shows is what the debug module has answered to the last DMI read before.  The harts, the system bus
    and the second channel do what they like. -/
theorem session_answered (hr : UartTx.Workable r)
    (hread : cmdOf esc ≠ CMD_READ) (hwrite : cmdOf esc ≠ CMD_WRITE)
    (p : Params n) (romAddr : Nat) (s : State n) (i₀ : Input n w)
    (hnobody : ReadInterconnect.validAddress (DtmUart.devices s.dtm (dtmIn s i₀)) = ADDR_NOP)
    {items : List Item} {is pads : List (Input n w)} (hlocal : ∀ it ∈ items, it.Local)
    (hsession : Session r esc items (line is)) (hidle : ∀ i ∈ pads, i.rx0I = true)
    (hlong : 11 * UartTx.bitTime r ≤ pads.length)
    (hsilent : ∀ i ∈ is ++ pads, DtmUart.Silent { stbI := i.stbI }) :
    (emitted (next r esc p) (answered p) (reset r romAddr s i₀) (is ++ pads)).map Prod.fst
        = items.flatMap Item.requests ∧
      ∃ l, Framed (UartTx.bitTime r)
          (replies esc (emitted (next r esc p) (answered p) (reset r romAddr s i₀) (is ++ pads)) 0 items) l ∧
        emitted (next r esc p) back (reset r romAddr s i₀) (is ++ pads) ++ [true, true]
          = [true, true] ++ l := by
  have hratio := hr.ratio
  have hpads : line pads = List.replicate pads.length true := by
    rw [line, List.eq_replicate_iff, List.length_map]
    refine ⟨rfl, fun b hb => ?_⟩
    obtain ⟨j, hj, rfl⟩ := List.mem_map.mp hb
    exact hidle j hj
  have hwhole : line (is ++ pads) = line is ++ List.replicate (4 + (pads.length - 4)) true := by
    rw [line_append, hpads]
    congr 2
    omega
  have hclear := clear_framed hr esc p romAddr s i₀ (session_framed hsession) hwhole hsilent
  rw [always_append] at hclear
  -- the messages
  obtain ⟨st', answers, hbetween, hans, hreqs, hsent, hplain⟩ := session_run hr hread hwrite romAddr i₀
    hsession (between_reset r esc p romAddr s i₀ hnobody) hlocal rfl hclear.1
  rw [List.nil_append, List.nil_append] at hbetween
  rw [run_nil] at hans hsent hplain
  -- and the idle line behind them
  obtain ⟨as, x, js, rfl, has, hjs, hlen⟩ := line_item (l := []) hpads (by omega)
  obtain ⟨hheard, hquiet, -⟩ := heard_item hr romAddr i₀ hbetween.heard .nil has hjs
  obtain ⟨-, hacc, hnone, hunused⟩ := rest_symbols hbetween.rest (spaced_between hr romAddr i₀ is _)
    hheard hquiet hclear.2 (by omega) (fun c hc => absurd hc List.not_mem_nil) rfl hbetween.rest.ready
  have hanswers :
      emitted (next r esc p) (answered p) (reset r romAddr s i₀) (is ++ (as ++ x :: js)) = answers := by
    rw [emitted_append, hans, unanswered hacc, List.append_nil]
  obtain ⟨l, hl, hline⟩ := back_framed hr ⟨rfl, rfl, rfl⟩ hplain hunused (by omega)
  rw [hanswers]
  refine ⟨hreqs, l, ?_, hline⟩
  rw [emitted_append, hsent, hnone, List.append_nil] at hl
  exact hl

theorem line_onLine (ls : List Bool) : line (onLine ls) = ls := by
  rw [line, onLine, List.map_map]
  exact List.map_id' ls

/-- A DMI read of `dmstatus`, and the command that asks for what it has brought. -/
def statusItems : List Item := [.write 0x4400000001, .read ADDR_DMI]

/-- The cycles of a session, with 24 of them per bit. -/
def cyclesOf (items : List Item) : List (Input 1 32) := onLine (lineOf ⟨48000000, 2000000⟩ ESC items)

theorem silent_onLine (ls : List Bool) :
    ∀ i ∈ (onLine ls : List (Input 1 32)), DtmUart.Silent { stbI := i.stbI } := by
  intro i hi
  obtain ⟨b, -, rfl⟩ := List.mem_map.mp hi
  exact ⟨rfl, rfl, rfl, rfl⟩

/-- The host asks for register 0x11 and reads the answer: the word on the line back is the one that the
    debug module has answered. -/
theorem session_answered_status :
    ∃ x l, emitted (next ⟨48000000, 2000000⟩ ESC oneHart) (answered oneHart)
        (reset ⟨48000000, 2000000⟩ 0 powerUp ({} : Input 1 32))
        (cyclesOf statusItems ++ onLine (List.replicate 264 true))
        = [({ addr := 0x11, op := DTM_READ, data := 0 }, x)] ∧
      Framed 24 (HostRead.reply ESC x ADDR_DMI) l ∧
      emitted (next ⟨48000000, 2000000⟩ ESC oneHart) back
          (reset ⟨48000000, 2000000⟩ 0 powerUp ({} : Input 1 32))
          (cyclesOf statusItems ++ onLine (List.replicate 264 true)) ++ [true, true] = [true, true] ++ l := by
  have hrates : UartTx.Workable ⟨48000000, 2000000⟩ := by
    constructor <;> decide
  have htime : UartTx.bitTime ⟨48000000, 2000000⟩ = 24 := by decide
  have hsession : Session ⟨48000000, 2000000⟩ ESC statusItems (line (cyclesOf statusItems)) := by
    rw [cyclesOf, line_onLine]
    exact session_lineOf _ _ _
  have hlocal : ∀ it ∈ statusItems, it.Local := by
    intro it hit
    rcases List.mem_cons.mp hit with rfl | hit
    · trivial
    · rw [List.mem_singleton.mp hit]
      exact (by decide : HostRead.Local ADDR_DMI)
  have hidle : ∀ i ∈ (onLine (List.replicate 264 true) : List (Input 1 32)), i.rx0I = true := by
    intro i hi
    obtain ⟨b, hb, rfl⟩ := List.mem_map.mp hi
    exact List.eq_of_mem_replicate hb
  have hsilent : ∀ i ∈ cyclesOf statusItems ++ onLine (List.replicate 264 true),
      DtmUart.Silent { stbI := i.stbI } := by
    rw [cyclesOf, onLine, onLine, ← List.map_append]
    exact silent_onLine _
  obtain ⟨hreqs, l, hl, hline⟩ := session_answered hrates (by decide) (by decide) oneHart 0 powerUp {}
    (by decide) hlocal hsession hidle (by rw [htime, onLine, List.length_map, List.length_replicate])
    hsilent
  have hone : statusItems.flatMap Item.requests = [{ addr := 0x11, op := DTM_READ, data := 0 }] := by
    decide
  rw [hone] at hreqs
  -- one request, so one answer, and the reply is the one to the only read
  obtain ⟨⟨req, x⟩, hanswers, hreq⟩ := List.map_eq_singleton_iff.mp hreqs
  have hreq' : req = { addr := 0x11, op := DTM_READ, data := 0 } := hreq
  subst hreq'
  have hreply : replies ESC [({ addr := 0x11, op := DTM_READ, data := 0 }, x)] 0 statusItems
      = HostRead.reply ESC x ADDR_DMI := by
    rw [statusItems, replies, replies, replies, List.append_nil]
    rfl
  rw [hanswers, hreply, htime] at hl
  exact ⟨x, l, hanswers, hl, hline⟩

end RiscDbgUart.UartDtmTop
