/-
  From the serial line to the debug module.

  The write path of a polite host was looked at from `RX_Escape` on (`HostMessages`), with the bytes in
  a queue of any length in front of it, and the line up to the byte that the receiver announces
  (`UartRx`).  Here both are put together in the whole system.  Between them is the FIFO of four bytes.
  The receiver announces no two bytes within sixteen cycles, whatever the line does, so the host of
  `HostMessages` is one that the receiver cannot help being; and for such a host the queue is empty in
  every cycle, so that the FIFO never overflows and is that queue.

  The steps:

  * `announced_apart` — two bytes are announced in cycles that are at least sixteen apart;
  * `waiting_run`     — so the host of `HostMessages` never has a byte in its queue;
  * `matches_run`     — and the write path of the system is the one of `HostMessages`, with the byte that
                        was announced in the cycle before as the byte that arrives (`announcing`);
  * `received_framed` — while the bytes announced on a line of frames are the bytes of the frames.

  `serial_writes_accepted` chains them: frames on the line are bytes announced, these are the bytes of the
  host's messages, and the messages are the requests that the debug module accepts.
-/
import RiscDbgUart.HostMessages
import RiscDbgUart.UartDtmTop
import RiscDbgUart.UartSampling

set_option linter.unusedVariables false

/-! ## The receiver announces no two bytes together -/

namespace RiscDbgUart.UartRx

open Clocked

variable {r : Rates} {w : Nat → Bool} {t u : Nat}

/-- Two bytes are at least nine bit times apart, since the sampling of the second one starts when the
    first has been delivered. -/
theorem announced_apart (h : Supported r) (htu : t < u)
    (ht : (coreAt r (reset r) w t).rxDoneO = true) (hu : (coreAt r (reset r) w u).rxDoneO = true) :
    t + 9 * r.sampleInterval + 2 ≤ u := by
  have hready : Ready (reset r).core := ⟨⟨rfl, rfl, rfl, rfl, rfl⟩, rfl⟩
  obtain ⟨e, q, rfl, hd⟩ := (done_iff h.paced hready).mp ht
  obtain ⟨e', q', rfl, hd'⟩ := (done_iff h.paced hready).mp hu
  have hlo := (doneTime_bounds h.paced e q).1
  have hlo' := (doneTime_bounds h.paced e' q').1
  rcases delivered_disjoint h.paced (waiting_of_armed hready.toArmed) hd hd' with
    ⟨rfl, rfl⟩ | hle | hle
  · exact absurd htu (lt_irrefl _)
  · omega
  · omega

/-- The same for the registers after runs, which is how the line of a system is given. -/
theorem announced_spaced (h : Supported r) (ls : List Bool) (l : Bool) (ms : List Bool)
    (ht : (run (next r) (reset r) ls).core.rxDoneO = true)
    (hu : (run (next r) (reset r) (ls ++ l :: ms)).core.rxDoneO = true) :
    9 * r.sampleInterval + 1 ≤ ms.length := by
  -- the line of the longer run
  let w : Nat → Bool := fun t => (ls ++ l :: ms).getD t true
  have hprefix (k : Nat) (hk : k ≤ (ls ++ l :: ms).length) :
      (List.range k).map w = (ls ++ l :: ms).take k := by
    apply List.ext_getElem
    · rw [List.length_map, List.length_range, List.length_take, Nat.min_eq_left hk]
    · intro j hj _
      rw [List.length_map, List.length_range] at hj
      rw [List.getElem_map, List.getElem_range, List.getElem_take]
      exact (List.getElem_eq_getD true).symm
  have hlen : (ls ++ l :: ms).length = ls.length + (ms.length + 1) := by
    rw [List.length_append, List.length_cons]
  have hat : run (next r) (reset r) ls = stateAt (next r) (reset r) w ls.length := by
    rw [stateAt_eq_run, hprefix _ (by omega), List.take_left]
  have hend : run (next r) (reset r) (ls ++ l :: ms)
      = stateAt (next r) (reset r) w (ls ++ l :: ms).length := by
    rw [stateAt_eq_run, hprefix _ le_rfl, List.take_length]
  rw [hat] at ht
  rw [hend] at hu
  have hapart := announced_apart h (by omega) ht hu
  omega

end RiscDbgUart.UartRx

/-! ## Lines one after the other -/

namespace RiscDbgUart

theorem framed_append {S : Nat} {bs bs' : List Byte} {ls ls' : List Bool} (h : Framed S bs ls)
    (h' : Framed S bs' ls') : Framed S (bs ++ bs') (ls ++ ls') := by
  induction h with
  | nil => exact h'
  | idle _ ih => exact .idle ih
  | frame _ ih =>
    rw [List.append_assoc, List.cons_append]
    exact .frame ih

/-- Frames without pauses. -/
theorem framed_frames (S : Nat) (bs : List Byte) : Framed S bs (bs.flatMap (frameLine S)) := by
  induction bs with
  | nil => exact .nil
  | cons b bs ih => exact .frame ih

end RiscDbgUart

/-! ## A polite host never waits -/

namespace RiscDbgUart.HostWrite

open Clocked Stuffing DmiUartTap

variable {esc : Byte} {n : Nat} {e : Bool} {st : Stage} {reqs : List DmiReq} {s : State}

theorem Sees.waiting_nil {rx : RxEscape.State} {req : DmiReq} (h : Sees s (settled rx req st)) :
    s.waiting = [] := by
  have hsame := congrArg State.waiting h.same
  cases st with
  | fresh => exact hsame
  | writing n got => exact hsame
  | finished w => exact hsame

/-- A byte that arrives at a settled state is read at once. -/
theorem waiting_arrival {i : Input} {b : Byte} (h : Settled e st s) (hi : i.arrival = some b) :
    (next esc s i).waiting = [] := by
  obtain ⟨hshort, d, req, hsees⟩ := h
  have hread := settled_arrives esc e d b req hshort
  rw [← hi] at hread
  exact (sees_next hsees hread).1.waiting_nil

theorem waiting_none {i : Input} (hi : i.arrival = none) (h : s.waiting = []) :
    (next esc s i).waiting = [] := by
  have havailable : available s i = [] := by rw [available, h, hi]; rfl
  show (if _ then (available s i).tail else available s i) = []
  rw [havailable]
  split_ifs <;> rfl

/-- **The queue stays empty**, the bytes being those of a polite host.  It takes fifteen cycles at most
    to work off a byte, and the receiver needs longer for the next one. -/
theorem waiting_run {is : List Input} {st' : Stage} {reqs' : List DmiReq} (hn : n ≤ 15)
    (hsoon : Soon esc n e st reqs s) (hspaced : Spaced n is)
    (hrun : st.run (decode esc e (arrivals is)) = some (st', reqs')) (hempty : s.waiting = []) :
    Always (next esc) (fun s _ => s.waiting = []) s is := by
  induction is generalizing n e st st' reqs reqs' s with
  | nil => exact trivial
  | cons i is ih =>
    refine ⟨hempty, ?_⟩
    rw [arrivals_cons] at hrun
    cases hi : i.arrival with
    | none =>
      rw [Spaced, if_pos hi] at hspaced
      rw [hi, Option.toList_none, List.nil_append] at hrun
      obtain ⟨later, rfl, hnext⟩ := soon_quiet hsoon hi
      exact ih (by omega) hnext hspaced hrun (waiting_none hi hempty)
    | some b =>
      rw [Spaced, if_neg (by rw [hi]; exact Option.some_ne_none b)] at hspaced
      obtain ⟨rfl, hspaced⟩ := hspaced
      obtain ⟨hsettled, rfl⟩ := soon_zero hsoon
      rw [hi, Option.toList_some, List.singleton_append] at hrun
      have hnow : (next esc s i).waiting = [] := waiting_arrival hsettled hi
      by_cases hesc : e = false ∧ b = esc
      · obtain ⟨rfl, hb⟩ := hesc
        rw [hb] at hi hrun
        rw [decode, if_pos rfl] at hrun
        exact ih le_rfl (arrival_escape hsettled hi).2 hspaced hrun hnow
      · -- the byte completes a symbol
        obtain ⟨sym, hsym, hdecode⟩ := arrived_symbol hesc (arrivals is)
        rw [hdecode, Stage.run, Option.bind_eq_some_iff] at hrun
        obtain ⟨⟨st1, reqs1⟩, hstage, hrest⟩ := hrun
        rw [Option.map_eq_some_iff] at hrest
        obtain ⟨q, hq, -⟩ := hrest
        exact ih le_rfl (arrival_symbol hsettled hi hsym hstage).2 hspaced hq hnow

/-- The symbols of the words, as they are decoded from the bytes on the line, leave the requests of
    the words behind. -/
theorem run_hostBytes (hesc : esc ≠ writeSymbol) (ws : List (BitVec WIDTH)) :
    ∃ st', Stage.fresh.run (decode esc false (hostBytes esc ws))
      = some (st', (ws.filter isRequest).map DmiReq.ofWord) := by
  have hclean : ∀ c, Symbol.command c ∈ ws.flatMap message → c ≠ esc := by
    intro c hc
    rw [List.mem_flatMap] at hc
    obtain ⟨w, -, hw⟩ := hc
    rw [message, List.mem_cons] at hw
    rcases hw with h | h
    · rw [Symbol.command.inj h]
      exact hesc.symm
    · rw [List.mem_map] at h
      obtain ⟨b, -, hb⟩ := h
      cases hb
  obtain ⟨st', -, hrun⟩ := run_messages (Or.inl rfl) ws
  rw [requestsOf_flatMap] at hrun
  refine ⟨st', ?_⟩
  rw [hostBytes, decode_encode esc _ hclean]
  exact hrun

end RiscDbgUart.HostWrite

/-! ## The write path of the whole system -/

namespace RiscDbgUart.UartDtmTop

open Clocked
open DmMem (Params)

variable {n w : Nat} {r : Rates} {esc : Byte} {p : Params n} {s : State n} {a : Option Byte}
  {h : HostWrite.State} {i : Input n w}

/-- The system, with the byte that the receiver announced in the cycle before: the byte that has just
    become readable in the FIFO. -/
def announcing (r : Rates) (esc : Byte) (p : Params n) :
    Option Byte × State n → Input n w → Option Byte × State n :=
  watched (next r esc p) fun _ s _ => Uart.announced s.dtm.uart

/-- What the write path looks at. -/
def hostIn (p : Params n) (q : Option Byte × State n) (i : Input n w) : HostWrite.Input :=
  { arrival := q.1
    sideI := DtmUart.writeSideIn q.2.dtm (dtmIn q.2 i)
    respQueueData :=
      (DmRegs.csrReadWrite q.2.dm.csrs (DmTop.csrsIn p q.2.dm (dmIn q.2 i))).respQueueData }

/-- The registers of the write path, with the FIFO for the queue of bytes. -/
structure Matches (a : Option Byte) (s : State n) (h : HostWrite.State) : Prop where
  fifo : SimpleFifo.Holds (h.waiting ++ a.toList) s.dtm.uart.fifo
  rx : h.rx = s.dtm.rxEsc
  side : h.side = DtmUart.writeSide s.dtm
  dm : h.dm = s.dm.csrs.queue

/-- Matching states accept the same requests, as these depend on the bridge and its queue only. -/
theorem accepted_matches (hm : Matches a s h) :
    HostWrite.accepted h (hostIn p (a, s) i) = accepted s i := by
  have hready : DmCsrs.dmiReqReadyO h.dm = DmCsrs.dmiReqReadyO s.dm.csrs.queue := by rw [hm.dm]
  have hpush : DmCsrs.push h.dm (HostWrite.dmIn h (hostIn p (a, s) i))
      = DmTop.accepts s.dm (dmIn s i) := by
    show (h.side.dmi.dmiReqValidO && DmCsrs.dmiReqReadyO h.dm) = _
    rw [hready, hm.side, Bool.and_comm]
    rfl
  rw [HostWrite.accepted, accepted, hpush, hm.side]
  rfl

/-- **One cycle** of the system is one of the write path, when there is room in the FIFO.  A byte that
    the receiver announces is readable a cycle later, which is what the register `a` is for. -/
theorem matches_next (hm : Matches a s h) (hempty : h.waiting = []) :
    Matches (Uart.announced s.dtm.uart) (next r esc p s i)
      (HostWrite.next esc h (hostIn p (a, s) i)) := by
  obtain ⟨hfifo, hrx, hside, hdm⟩ := hm
  have havailable : HostWrite.available h (hostIn p (a, s) i) = h.waiting ++ a.toList := rfl
  have hshows := SimpleFifo.holds_shows hfifo
  have hemptyO : (h.waiting ++ a.toList).isEmpty = Uart.rxEmptyO s.dtm.uart := by
    rw [Bool.eq_iff_iff, List.isEmpty_iff]
    exact hshows.empty.symm
  have hside' : HostWrite.sideIn h (hostIn p (a, s) i)
      = DtmUart.writeSideIn s.dtm (dtmIn s i) := by
    rw [HostWrite.sideIn, hrx, hdm]
    rfl
  constructor
  · -- the FIFO is written and read as the queue is
    have hread : SimpleFifo.ReadsFilled s.dtm.uart.fifo
        (Uart.fifoIn s.dtm.uart (DtmUart.uartIn s.dtm (dtmIn s i))) := by
      intro hre
      have hre' : RxEscape.readO s.dtm.rxEsc (Uart.rxEmptyO s.dtm.uart) = true := hre
      rw [RxEscape.readO, Bool.and_eq_true, Bool.not_eq_true'] at hre'
      exact hre'.2
    have htrack := SimpleFifo.holds_next hfifo hread
    have hroom : ¬ (h.waiting ++ a.toList).length = 2 ^ Uart.ABITS := by
      have hone : a.toList.length ≤ 1 := Option.length_toList_le
      rw [hempty, List.nil_append]
      show ¬ a.toList.length = 4
      omega
    rw [SimpleFifo.track, queueStep, if_neg hroom] at htrack
    have hoffered : (if (Uart.fifoIn s.dtm.uart (DtmUart.uartIn s.dtm (dtmIn s i))).weI then
        some (Uart.fifoIn s.dtm.uart (DtmUart.uartIn s.dtm (dtmIn s i))).wDataI else none)
        = Uart.announced s.dtm.uart := rfl
    have hwaiting : (HostWrite.next esc h (hostIn p (a, s) i)).waiting
        = if RxEscape.readO s.dtm.rxEsc (Uart.rxEmptyO s.dtm.uart) then (h.waiting ++ a.toList).tail
          else h.waiting ++ a.toList := by
      rw [← hemptyO, ← hrx]
      rfl
    rw [hoffered] at htrack
    rw [hwaiting]
    exact htrack
  · -- `RX_Escape` looks at the byte only when there is one
    have hreadI : DmiUartTap.readO h.side.tap
        (WriteSide.tapIn h.side (HostWrite.sideIn h (hostIn p (a, s) i)))
          = DmiUartTap.readO s.dtm.tap (DtmUart.tapIn s.dtm (dtmIn s i)) := by
      rw [hside', hside]
      rfl
    show RxEscape.next esc h.rx (HostWrite.rxIn h (hostIn p (a, s) i))
      = RxEscape.next esc s.dtm.rxEsc (DtmUart.rxEscIn s.dtm (dtmIn s i))
    rw [HostWrite.rxIn, havailable, hreadI, hemptyO, hrx, DtmUart.rxEscIn]
    cases hq : h.waiting ++ a.toList with
    | nil =>
      rw [hq] at hemptyO
      rw [← hemptyO]
      unfold RxEscape.next
      rfl
    | cons b q =>
      have holdest : Uart.drecO s.dtm.uart = b := hshows.oldest b (by rw [hq]; rfl)
      rw [holdest]
      rfl
  · show WriteSide.next h.side (HostWrite.sideIn h (hostIn p (a, s) i)) = _
    rw [hside', hside]
    exact (DtmUart.writeSide_component r esc s.dtm (dtmIn s i)).symm
  · show DmCsrs.next h.dm (HostWrite.dmIn h (hostIn p (a, s) i)) = _
    rw [HostWrite.dmIn, hside, hdm]
    rfl

/-- **A run** of the system is one of the write path, and so it accepts the same requests. -/
theorem matches_run (is : List (Input n w)) {a : Option Byte} {s : State n} {h : HostWrite.State}
    (hm : Matches a s h)
    (hempty : Always (HostWrite.next esc) (fun s _ => s.waiting = []) h
      (seen (announcing r esc p) (hostIn p) (a, s) is)) :
    emitted (next r esc p) accepted s is = emitted (HostWrite.next esc) HostWrite.accepted h
      (seen (announcing r esc p) (hostIn p) (a, s) is) := by
  induction is generalizing a s h with
  | nil => rfl
  | cons i is ih =>
    obtain ⟨hnow, hlater⟩ := hempty
    rw [emitted_cons, seen_cons, emitted_cons, accepted_matches hm,
      ih (matches_next hm hnow) hlater]
    rfl

/-! ## Runs from reset -/

/-- The byte that the receiver announces in a cycle. -/
def received (s : State n) (i : Input n w) : List Byte := s.dtm.uart.rx.core.received

/-- The levels of the line. -/
def line (is : List (Input n w)) : List Bool := is.map (·.rx0I)

/-- The receiver of the system is a receiver on the line. -/
theorem rx_run (r : Rates) (esc : Byte) (p : Params n) (is : List (Input n w)) (s : State n) :
    (run (next r esc p) s is).dtm.uart.rx = run (UartRx.next r) s.dtm.uart.rx (line is) := by
  induction is generalizing s with
  | nil => rfl
  | cons i is ih =>
    rw [run_cons, ih]
    rfl

/-- What the system receives depends on its line alone, the receiver being a component. -/
theorem received_run (r : Rates) (esc : Byte) (p : Params n) (is : List (Input n w)) (s : State n) :
    emitted (next r esc p) received s is
      = emitted (UartRx.next r) (fun t _ => t.core.received) s.dtm.uart.rx (line is) := by
  induction is generalizing s with
  | nil => rfl
  | cons i is ih =>
    rw [emitted_cons, ih]
    rfl

variable (r esc p) in
/-- What has become readable during a run is what was announced, up to the cycle before. -/
theorem arrivals_seen (is : List (Input n w)) (a : Option Byte) (s : State n) :
    HostWrite.arrivals (seen (announcing r esc p) (hostIn p) (a, s) is)
        ++ (run (announcing r esc p) (a, s) is).1.toList
      = a.toList ++ emitted (next r esc p) received s is := by
  induction is generalizing a s with
  | nil =>
    rw [emitted_nil, List.append_nil]
    rfl
  | cons i is ih =>
    have hnow : received s i = (Uart.announced s.dtm.uart).toList := Uart.received_eq s.dtm.uart
    rw [seen_cons, HostWrite.arrivals_cons, run_cons, List.append_assoc, emitted_cons, hnow]
    exact congrArg _ (ih _ _)

/-- When nothing is on its way at either end, the bytes that become readable are those announced. -/
theorem arrivals_exact {is : List (Input n w)} {q : Option Byte × State n} (hfirst : q.1 = none)
    (hlast : (run (announcing r esc p) q is).1 = none) :
    HostWrite.arrivals (seen (announcing r esc p) (hostIn p) q is)
      = emitted (next r esc p) received q.2 is := by
  have h := arrivals_seen r esc p is q.1 q.2
  have hnone : (run (announcing r esc p) (q.1, q.2) is).1.toList = [] := congrArg Option.toList hlast
  have hnil : q.1.toList = [] := congrArg Option.toList hfirst
  rw [hnone, hnil, List.append_nil] at h
  exact h

/-- Where nothing is announced, nothing becomes readable, apart from a byte announced just before. -/
theorem quiet_seen {is : List (Input n w)} {q : Option Byte × State n} (hfirst : q.1 = none)
    (hquiet : emitted (next r esc p) received q.2 is = []) :
    HostWrite.Quiet (seen (announcing r esc p) (hostIn p) q is) := by
  have h := arrivals_seen r esc p is q.1 q.2
  have hnil : q.1.toList = [] := congrArg Option.toList hfirst
  rw [hquiet, hnil, List.append_nil, List.append_eq_nil_iff] at h
  intro j hj
  exact Option.toList_eq_nil_iff.mp (List.flatMap_eq_nil_iff.mp h.1 j hj)

/-- After a cycle in which nothing is announced nothing is on its way. -/
theorem last_none {is : List (Input n w)} {x : Input n w} {q : Option Byte × State n}
    (hquiet : received (run (next r esc p) q.2 is) x = []) :
    (run (announcing r esc p) q (is ++ [x])).1 = none := by
  have hstate : (run (announcing r esc p) q is).2 = run (next r esc p) q.2 is := run_watched _ _ is q
  rw [received, Uart.received_eq, ← hstate] at hquiet
  rw [run_append]
  exact Option.toList_eq_nil_iff.mp hquiet

theorem announced_none {s : UartRx.State} (hs : s.core.rxDoneO = false) {u : Uart.State}
    (hu : u.rx = s) : Uart.announced u = none := by
  rw [Uart.announced, hu, hs]
  rfl

/-- **No two bytes become readable within sixteen cycles**; `ls` is the line so far.  The induction is on
    the run, with the cycles that a byte must still stay away as its parameter. -/
theorem spaced_seen (hr : UartRx.Supported r) (is : List (Input n w)) {k : Nat} (ls : List Bool)
    (hk : k ≤ 15) (hrx : s.dtm.uart.rx = run (UartRx.next r) (UartRx.reset r) ls)
    (hnone : 0 < k → a = none)
    (hfar : ∀ ms : List Bool, ms.length + 1 < k →
      (run (UartRx.next r) (UartRx.reset r) (ls ++ ms)).core.rxDoneO = false)
    (hapart : a ≠ none → ∀ ms : List Bool, ms.length < 15 →
      (run (UartRx.next r) (UartRx.reset r) (ls ++ ms)).core.rxDoneO = false) :
    HostWrite.Spaced k (seen (announcing r esc p) (hostIn p) (a, s) is) := by
  induction is generalizing k a s ls with
  | nil => exact trivial
  | cons i is ih =>
    have hrx' : (next r esc p s i).dtm.uart.rx
        = run (UartRx.next r) (UartRx.reset r) (ls ++ [i.rx0I]) := by
      rw [run_append, ← hrx]
      rfl
    -- after a byte that is announced now, there is none for nine bit times
    have hnext : Uart.announced s.dtm.uart ≠ none → ∀ ms : List Bool, ms.length < 15 →
        (run (UartRx.next r) (UartRx.reset r) (ls ++ [i.rx0I] ++ ms)).core.rxDoneO = false := by
      intro hsome ms hms
      have hnow : (run (UartRx.next r) (UartRx.reset r) ls).core.rxDoneO = true := by
        by_contra hno
        exact hsome (announced_none (Bool.eq_false_iff.mpr hno) hrx)
      rw [List.append_assoc, List.singleton_append]
      by_contra hyes
      rw [Bool.not_eq_false] at hyes
      have hlong := UartRx.announced_spaced hr ls i.rx0I ms hnow hyes
      have hsample := hr.sample_le
      omega
    have hshow (hms : (run (UartRx.next r) (UartRx.reset r) (ls ++ [])).core.rxDoneO = false) :
        Uart.announced s.dtm.uart = none := by
      rw [List.append_nil] at hms
      exact announced_none hms hrx
    rw [seen_cons, HostWrite.Spaced]
    split_ifs with ha
    · refine ih (ls ++ [i.rx0I]) (by omega) hrx' (fun h0 => hshow (hfar [] ?_)) (fun ms hms => ?_) hnext
      · rw [List.length_nil]
        omega
      · rw [List.append_assoc]
        refine hfar _ ?_
        rw [List.length_append, List.length_singleton]
        omega
    · have ha' : a ≠ none := ha
      refine ⟨?_, ih (ls ++ [i.rx0I]) le_rfl hrx' (fun _ => hshow (hapart ha' [] ?_))
        (fun ms hms => ?_) hnext⟩
      · by_contra h0
        exact ha' (hnone (Nat.pos_of_ne_zero h0))
      · rw [List.length_nil]
        omega
      · rw [List.append_assoc]
        refine hapart ha' _ ?_
        rw [List.length_append, List.length_singleton]
        omega

/-- After a reset the FIFO and the queue are empty. -/
theorem matches_reset (r : Rates) (romAddr : Nat) (s : State n) (i : Input n w) :
    Matches none (reset r romAddr s i)
      (HostWrite.reset { (default : HostWrite.State) with side := DtmUart.writeSide s.dtm }) :=
  ⟨SimpleFifo.holds_reset _, rfl, rfl, rfl⟩

/-- **Whatever the line looks like**: when the bytes that the receiver announces are those of a
    sequence of words, the debug module has accepted, sixteen cycles after the last of them, the
    requests among the words. -/
theorem announced_accepted (hr : UartRx.Supported r) (hesc : esc ≠ HostWrite.writeSymbol) (p : Params n)
    (romAddr : Nat) (s : State n) (i₀ : Input n w) (ws : List (BitVec WIDTH)) (is pads : List (Input n w))
    (hbytes : emitted (next r esc p) received (reset r romAddr s i₀) is = HostWrite.hostBytes esc ws)
    (hquiet : emitted (next r esc p) received (run (next r esc p) (reset r romAddr s i₀) is) pads = [])
    (hlong : 16 ≤ pads.length) :
    emitted (next r esc p) accepted (reset r romAddr s i₀) (is ++ pads)
      = (ws.filter isRequest).map DmiReq.ofWord := by
  let q₀ : Option Byte × State n := (none, reset r romAddr s i₀)
  cases pads with
  | nil => exact absurd hlong (Nat.not_succ_le_zero 15)
  | cons x xs =>
    rw [List.length_cons] at hlong
    rw [emitted_cons, List.append_eq_nil_iff] at hquiet
    let q₁ := run (announcing r esc p) q₀ (is ++ [x])
    have hsplit : is ++ x :: xs = is ++ [x] ++ xs := by rw [List.append_assoc]; rfl
    have hcut : seen (announcing r esc p) (hostIn p) q₀ (is ++ x :: xs)
        = seen (announcing r esc p) (hostIn p) q₀ (is ++ [x])
          ++ seen (announcing r esc p) (hostIn p) q₁ xs := by
      rw [hsplit, seen_append]
    -- the bytes that become readable, and that there are no more
    have hnone : q₁.1 = none := last_none hquiet.1
    have hfirst : HostWrite.arrivals (seen (announcing r esc p) (hostIn p) q₀ (is ++ [x]))
        = HostWrite.hostBytes esc ws := by
      rw [arrivals_exact rfl hnone, emitted_append, hbytes, emitted_cons, hquiet.1]
      exact List.append_nil _
    have hrest : HostWrite.Quiet (seen (announcing r esc p) (hostIn p) q₁ xs) := by
      refine quiet_seen hnone ?_
      have hstate : q₁.2 = run (next r esc p) (reset r romAddr s i₀) (is ++ [x]) :=
        run_watched _ _ (is ++ [x]) q₀
      rw [hstate, run_append]
      exact hquiet.2
    have hall : HostWrite.arrivals (seen (announcing r esc p) (hostIn p) q₀ (is ++ x :: xs))
        = HostWrite.hostBytes esc ws := by
      have hnil : HostWrite.arrivals (seen (announcing r esc p) (hostIn p) q₁ xs) = [] :=
        List.flatMap_eq_nil_iff.mpr fun j hj => by rw [hrest j hj]; rfl
      rw [hcut, HostWrite.arrivals, List.flatMap_append, ← HostWrite.arrivals, ← HostWrite.arrivals,
        hfirst, hnil, List.append_nil]
    -- the write path from the reset
    obtain ⟨st', hrun⟩ := HostWrite.run_hostBytes hesc ws
    have hsoon : HostWrite.Soon esc 0 false .fresh [] (HostWrite.reset
        { (default : HostWrite.State) with side := DtmUart.writeSide s.dtm }) :=
      HostWrite.settled_soon (HostWrite.reset_settled _)
    have hspaced (is : List (Input n w)) :
        HostWrite.Spaced 0 (seen (announcing r esc p) (hostIn p) q₀ is) :=
      spaced_seen hr is [] (Nat.zero_le 15) rfl (fun h0 => absurd h0 (lt_irrefl 0))
        (fun ms hms => absurd hms (Nat.not_lt_zero _)) fun ha => absurd rfl ha
    have hempty := HostWrite.waiting_run (Nat.zero_le 15) hsoon (hspaced (is ++ x :: xs))
      (by rw [hall]; exact hrun) rfl
    have hpads : 15 ≤ (seen (announcing r esc p) (hostIn p) q₁ xs).length := by
      rw [seen_length]
      exact Nat.le_of_succ_le_succ hlong
    rw [matches_run _ (matches_reset r romAddr s i₀) hempty, hcut,
      HostWrite.run_accepts hrest hpads (Nat.zero_le 15) hsoon (hspaced (is ++ [x]))
        (by rw [hfirst]; exact hrun)]
    rfl

/-! ## Frames on the line -/

/-- What the receiver makes of a line of frames with an idle line behind them.  Four cycles of the idle
    line push the last frame through the delay line. -/
theorem receives_line (hr : UartRx.Supported r) (hratio : 24 ≤ r.sampleInterval) {bs : List Byte}
    {ls : List Bool} (hl : Framed r.sampleInterval bs ls) (k : Nat) :
    UartRx.Receives r (UartRx.reset r).core ((UartRx.pipe (UartRx.reset r)
      ++ (ls ++ List.replicate (4 + k) true)).take (ls ++ List.replicate (4 + k) true).length) bs := by
  have hready : UartRx.Ready (UartRx.reset r).core := ⟨⟨rfl, rfl, rfl, rfl, rfl⟩, rfl⟩
  have hpipe : UartRx.pipe (UartRx.reset r) = List.replicate 4 true := by
    simp [UartRx.pipe, UartRx.reset, List.replicate]
  have hcore : (UartRx.pipe (UartRx.reset r) ++ (ls ++ List.replicate (4 + k) true)).take
      (ls ++ List.replicate (4 + k) true).length
      = List.replicate 4 true ++ ls ++ List.replicate k true := by
    rw [hpipe, Nat.add_comm 4 k, List.replicate_add, ← List.append_assoc ls, ← List.append_assoc]
    have hlen : (ls ++ List.replicate k true ++ List.replicate 4 true).length
        = (List.replicate 4 true ++ ls ++ List.replicate k true).length := by
      simp only [List.length_append, List.length_replicate]
      omega
    rw [hlen, ← List.append_assoc]
    exact List.take_left
  have hframed : Framed r.sampleInterval ([] ++ (bs ++ []))
      (List.replicate 4 true ++ ls ++ List.replicate k true) := by
    rw [List.append_assoc]
    exact framed_append (framed_idle r.sampleInterval 4) (framed_append hl (framed_idle _ k))
  rw [List.nil_append, List.append_nil] at hframed
  rw [hcore]
  exact UartRx.receives_framed hr.paced hratio hframed hready

/-- The receiver announces their bytes, and nothing on the idle line behind them. -/
theorem received_framed (hr : UartRx.Supported r) (hratio : 24 ≤ r.sampleInterval) {bs : List Byte}
    {ls : List Bool} (hl : Framed r.sampleInterval bs ls) (k : Nat) :
    emitted (UartRx.next r) (fun t _ => t.core.received) (UartRx.reset r)
      (ls ++ List.replicate (4 + k) true) = bs := by
  rw [UartRx.emitted_core (fun c => c.received)]
  exact (receives_line hr hratio hl k).bytes

/-- **Every DMI write that is sent over the serial line arrives.**  When the line carries the frames
    of a sequence of words, with any pauses between them, and is then idle for twenty cycles, the
    debug module has accepted the requests among the words, in order; and at no point has it accepted
    anything but the first of them.  The harts, the system bus, the second channel and the STB targets
    do what they like. -/
theorem serial_writes_accepted (hr : UartRx.Supported r) (hratio : 24 ≤ r.sampleInterval)
    (hesc : esc ≠ HostWrite.writeSymbol) (p : Params n) (romAddr : Nat) (s : State n) (i₀ : Input n w)
    (ws : List (BitVec WIDTH)) (is pads : List (Input n w))
    (hline : Framed r.sampleInterval (HostWrite.hostBytes esc ws) (line is))
    (hidle : ∀ i ∈ pads, i.rx0I = true) (hlong : 20 ≤ pads.length) :
    emitted (next r esc p) accepted (reset r romAddr s i₀) (is ++ pads)
        = (ws.filter isRequest).map DmiReq.ofWord ∧
      ∀ pre, pre <+: is ++ pads → emitted (next r esc p) accepted (reset r romAddr s i₀) pre
        <+: (ws.filter isRequest).map DmiReq.ofWord := by
  have hhigh : ∀ js : List (Input n w), (∀ j ∈ js, j.rx0I = true) →
      line js = List.replicate js.length true := by
    intro js hjs
    rw [line, List.eq_replicate_iff, List.length_map]
    refine ⟨rfl, fun b hb => ?_⟩
    obtain ⟨j, hj, rfl⟩ := List.mem_map.mp hb
    exact hjs j hj
  -- the bytes are announced before the last sixteen cycles
  have hpads : line (pads.take 4) = List.replicate (4 + 0) true := by
    rw [hhigh _ fun i hi => hidle i (List.mem_of_mem_take hi), List.length_take,
      Nat.min_eq_left (by omega)]
  have hrest : line (pads.drop 4) = List.replicate (pads.length - 4) true := by
    rw [hhigh _ fun i hi => hidle i (List.mem_of_mem_drop hi), List.length_drop]
  have hreset : (reset r romAddr s i₀).dtm.uart.rx = UartRx.reset r := rfl
  have hline4 : line (is ++ pads.take 4) = line is ++ List.replicate (4 + 0) true := by
    rw [line, List.map_append, ← line, ← line, hpads]
  have hbytes : emitted (next r esc p) received (reset r romAddr s i₀) (is ++ pads.take 4)
      = HostWrite.hostBytes esc ws := by
    rw [received_run, hline4, hreset]
    exact received_framed hr hratio hline 0
  have hquiet : emitted (next r esc p) received
      (run (next r esc p) (reset r romAddr s i₀) (is ++ pads.take 4)) (pads.drop 4) = [] := by
    have hwhole : emitted (next r esc p) received (reset r romAddr s i₀)
        (is ++ pads.take 4 ++ pads.drop 4) = HostWrite.hostBytes esc ws := by
      rw [received_run, line, List.map_append, ← line, ← line, hline4, hrest, hreset, List.append_assoc,
        List.replicate_append_replicate]
      exact received_framed hr hratio hline (pads.length - 4)
    rw [emitted_append, hbytes] at hwhole
    exact List.append_right_eq_self.mp hwhole
  have hall : emitted (next r esc p) accepted (reset r romAddr s i₀) (is ++ pads)
      = (ws.filter isRequest).map DmiReq.ofWord := by
    have hlast : 16 ≤ (pads.drop 4).length := by
      rw [List.length_drop]
      omega
    have h := announced_accepted hr hesc p romAddr s i₀ ws (is ++ pads.take 4) (pads.drop 4) hbytes
      hquiet hlast
    rw [List.append_assoc, List.take_append_drop] at h
    exact h
  refine ⟨hall, ?_⟩
  rintro pre ⟨post, hcut⟩
  rw [← hall, ← hcut, emitted_append]
  exact List.prefix_append _ _

/-- One hart, and two scratch registers. -/
def oneHart : Params 1 := { selectableHarts := 1, dmBaseAddress := 0x1000 }

/-- Before the reset: what a register holds at power-on is arbitrary, and this is one choice. -/
def powerUp : State 1 :=
  { dtm :=
      { uart := { rx := default, fifo := SimpleFifo.reset _ fun _ => 0, tx := default, channel := false }
        rxEsc := default
        txEsc := default
        tap := default
        readIntc := default
        dmi := default }
    dm := DmTop.reset 0 }

/-- The cycles of a line, with nothing else going on. -/
def onLine (ls : List Bool) : List (Input 1 32) := ls.map fun b => { rx0I := b }

/-- A write of `0x2800` to the register `0x10`, with 24 cycles per bit.  The bytes of the message
    are frames on the line, and what comes out at the debug module is the request. -/
theorem serial_writes_accepted_one :
    emitted (next ⟨48000000, 2000000⟩ ESC oneHart) accepted
        (reset ⟨48000000, 2000000⟩ 0 powerUp ({} : Input 1 32))
        (onLine ((HostWrite.hostBytes ESC [0x400000A002]).flatMap (frameLine 24))
          ++ onLine (List.replicate 20 true))
      = [{ addr := 0x10, op := DTM_WRITE, data := 0x2800 }] := by
  have hrates : UartRx.Supported ⟨48000000, 2000000⟩ := ⟨by decide, by decide, by decide⟩
  have hsample : Rates.sampleInterval ⟨48000000, 2000000⟩ = 24 := by decide
  have hwords : (([0x400000A002] : List (BitVec WIDTH)).filter isRequest).map DmiReq.ofWord
      = [{ addr := 0x10, op := DTM_WRITE, data := 0x2800 }] := by decide
  -- an input is its level, so the line is what was written down
  have hline (ls : List Bool) : line (onLine ls) = ls := by
    rw [line, onLine, List.map_map]
    exact List.map_id' ls
  rw [← hwords]
  refine (serial_writes_accepted hrates ?_ (by decide) oneHart 0 powerUp {} [0x400000A002] (onLine _)
    (onLine _) ?_ ?_ ?_).1
  · rw [hsample]
  · rw [hsample, hline]
    exact framed_frames 24 _
  · intro i hi
    obtain ⟨b, hb, rfl⟩ := List.mem_map.mp hi
    exact List.eq_of_mem_replicate hb
  · rw [onLine, List.length_map, List.length_replicate]

end RiscDbgUart.UartDtmTop
