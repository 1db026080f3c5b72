/-
  A debug session over the serial line.

  The host sends words for the debug module and asks for registers, one after another, and waits after
  each.  A word goes from the line to the debug module (`SerialWrites`), an answer from the debug module
  to the bridge (`DmiPairing`), and a register from the bridge to the line (`SerialReads`).  Each of them
  has been looked at with the rest of the transport module doing what it likes; here they meet.

  Between two messages everything is at rest (`Rest`), whatever has been sent before: the write path is
  in a settled state, up to the registers of the idle decoder, and the read path is where a command
  finds it.  A message takes the system from rest to rest (`rest_symbols`, `rest_read`), and the induction
  over a session carries besides only what the line has been so far and what the bridge has stored.

  A message has two parts on the line, the frames of its bytes and the time behind them, and so has each
  lemma about one.  `readable_next` says which bytes become readable in which part.  A write is over when
  the write path has settled again (`rest_symbols`).  A read begins where its command is shown
  (`showing_of_sees`) and ends with the read side at rest (`rest_shown`, `rest_of_reading`).  What a run
  without any event may do besides is nothing: `Unused` and `Plain` say so of its cycles.
-/
import RiscDbgUart.DmiPairing
import RiscDbgUart.SerialReads

set_option linter.unusedVariables false

namespace RiscDbgUart.UartDtmTop

open Clocked Stuffing DmiUartTap
open DmMem (Params)
open HostWrite (Stage)

variable {n w : Nat} {r : Rates} {esc : Byte} {p : Params n} {s : State n} {a : Option Byte}
  {h : HostWrite.State} {i : Input n w} {st : Stage}

/-! ## The answers of the debug module -/

/-- The request that the debug module accepts, with its answer. -/
def answered (p : Params n) (s : State n) (i : Input n w) : List (DmiReq × BitVec 32) :=
  if DmTop.accepts s.dm (dmIn s i) then
    [(s.dtm.dmi.request,
      (DmRegs.csrReadWrite s.dm.csrs (DmTop.csrsIn p s.dm (dmIn s i))).respQueueData)]
  else []

theorem answered_fst (p : Params n) (s : State n) (i : Input n w) :
    (answered p s i).map Prod.fst = accepted s i := by
  unfold answered accepted
  split_ifs <;> rfl

/-- The bridge and the registers. -/
def exchange (s : State n) : DmiPairing.State n := { dmi := s.dtm.dmi, dm := s.dm.csrs }

def exchangeIn (p : Params n) (s : State n) (i : Input n w) : DmiPairing.Input n w :=
  { tapReadReadyI := (DtmUart.dmiIn s.dtm (dtmIn s i)).tapReadReadyI
    tapWriteValidI := (DtmUart.dmiIn s.dtm (dtmIn s i)).tapWriteValidI
    tapWriteDataI := (DtmUart.dmiIn s.dtm (dtmIn s i)).tapWriteDataI
    dmI := DmTop.csrsIn p s.dm (dmIn s i) }

variable (r esc p) in
/-- **What the bridge has stored**, along every run. -/
theorem stored_run {answers : List (DmiReq × BitVec 32)} (h : DmiPairing.Stored answers (exchange s))
    (is : List (Input n w)) :
    DmiPairing.Stored (answers ++ emitted (next r esc p) (answered p) s is)
      (exchange (run (next r esc p) s is)) :=
  history_of_step (fun l s => DmiPairing.Stored l (exchange s)) (fun _ _ => True)
    (fun l s i hs _ => DmiPairing.stored_next p.selectableHarts l (exchange s) (exchangeIn p s i) hs)
    is answers s h (always_true _ _ _)

/-- A bridge without a request or a response to come shows the answer to the last read. -/
theorem stored_idle {answers : List (DmiReq × BitVec 32)} {c : DmiPairing.State n}
    (hc : DmiPairing.Stored answers c) (hrequest : c.dmi.doRequest = false) (hend : c.dmi.doEnd = false) :
    c.dmi.doRead = false ∧ c.dmi.dmiResp = DmiPairing.lastRead answers := by
  rcases hc with ⟨hresp, hrest | hask | hhand⟩ | ⟨earlier, x, -, -, hans⟩
  · exact ⟨hrest.doRead, hresp⟩
  · rw [hask.doRequest] at hrequest
    cases hrequest
  · rw [hhand.doEnd] at hend
    cases hend
  · rw [hans.doEnd] at hend
    cases hend

/-! ## The receiver -/

theorem line_append (is js : List (Input n w)) : line (is ++ js) = line is ++ line js := List.map_append

theorem line_seen (r : Rates) (esc : Byte) (p : Params n) (s : State n) (is : List (Input n w)) :
    seen (next r esc p) (fun _ i => i.rx0I) s is = line is := by
  induction is generalizing s with
  | nil => rfl
  | cons i is ih => rw [seen_cons, ih]; rfl

theorem supported_of_workable (hr : UartTx.Workable r) : UartRx.Supported r := by
  have hratio := hr.ratio
  have hclk := hr.clk
  have hpos : 0 < r.baudRate := by
    by_contra h0
    rw [UartTx.bitTime, Nat.eq_zero_of_not_pos h0, Nat.div_zero] at hratio
    omega
  have hle : 24 * r.baudRate ≤ r.clkRate := (Nat.le_div_iff_mul_le hpos).mp hratio
  exact ⟨by omega, hpos, by omega⟩

/-- On a line of frames the receiver never gives up the channel.  The induction is on the frames, and
    four cycles of idle line let the last one through. -/
theorem channel_line (hr : UartTx.Workable r) (esc : Byte) (p : Params n) (romAddr : Nat) (s : State n)
    (i₀ : Input n w) {is : List (Input n w)} {bs : List Byte} {ls : List Bool} {k : Nat}
    (hl : Framed (UartTx.bitTime r) bs ls) (hline : line is = ls ++ List.replicate (4 + k) true) :
    Always (next r esc p) (fun s _ => UartRx.channelO s.dtm.uart.rx = false)
      (reset r romAddr s i₀) is := by
  have hsample := UartTx.sampleInterval_eq hr
  rw [← hsample] at hl
  have hreceives := receives_line (supported_of_workable hr) (hsample ▸ hr.ratio) hl k
  refine (always_component (rx_component r esc p) (fun t _ => UartRx.channelO t = false) is _).mp ?_
  rw [line_seen, hline]
  exact (UartRx.always_core (fun c => c.channel = false) _ _).mpr hreceives.channel

/-- What the receiver announces of the next frames, and that it announces nothing behind them.  The line
    so far ends with a frame and idle time, which is where a frame can follow. -/
theorem heard_next (hr : UartTx.Workable r) (esc : Byte) (p : Params n) (romAddr : Nat) (s : State n)
    (i₀ : Input n w) {pre as js : List (Input n w)} {bs bytes : List Byte} {ls : List Bool} {k : Nat}
    (hpre : Framed (UartTx.bitTime r) bs (line pre))
    (hheard : emitted (next r esc p) received (reset r romAddr s i₀) pre = bs)
    (hl : Framed (UartTx.bitTime r) bytes ls) (has : line as = ls ++ List.replicate 4 true)
    (hjs : line js = List.replicate k true) :
    emitted (next r esc p) received (run (next r esc p) (reset r romAddr s i₀) pre) as = bytes ∧
      emitted (next r esc p) received (run (next r esc p) (reset r romAddr s i₀) (pre ++ as)) js = [] := by
  have hsample := UartTx.sampleInterval_eq hr
  have hratio : 24 ≤ r.sampleInterval := hsample ▸ hr.ratio
  have hboth : Framed r.sampleInterval (bs ++ bytes) (line pre ++ ls) :=
    hsample.symm ▸ framed_append hpre hl
  have hreset : (reset r romAddr s i₀).dtm.uart.rx = UartRx.reset r := rfl
  have hfirst : emitted (next r esc p) received (reset r romAddr s i₀) (pre ++ as) = bs ++ bytes := by
    rw [received_run, hreset, line_append, has, ← List.append_assoc]
    exact received_framed (supported_of_workable hr) hratio hboth 0
  have hall : emitted (next r esc p) received (reset r romAddr s i₀) (pre ++ as ++ js) = bs ++ bytes := by
    rw [received_run, hreset, line_append, line_append, has, hjs, ← List.append_assoc, List.append_assoc _ _
      (List.replicate k true), List.replicate_append_replicate]
    exact received_framed (supported_of_workable hr) hratio hboth k
  rw [emitted_append, hfirst] at hall
  rw [emitted_append, hheard] at hfirst
  exact ⟨List.append_cancel_left hfirst, List.append_right_eq_self.mp hall⟩

/-! ## Rest -/

/-- The registers of the write path, with nothing in the FIFO. -/
def writeView (s : State n) : HostWrite.State :=
  { waiting := [], rx := s.dtm.rxEsc, side := DtmUart.writeSide s.dtm, dm := s.dm.csrs.queue }

/-- Between two messages. -/
structure Rest (st : Stage) (s : State n) : Prop where
  ready : st.Ready
  path : ∃ d, CommandDecoder.Alike s.dtm.tap.dec d ∧
    HostWrite.Settled false st ((writeView s).withDec d)
  fifo : SimpleFifo.Holds [] s.dtm.uart.fifo
  channel : s.dtm.uart.channel = false
  reads : DtmUart.ReadRest s.dtm

theorem matches_writeView (hfifo : SimpleFifo.Holds [] s.dtm.uart.fifo) : Matches none s (writeView s) :=
  ⟨hfifo, rfl, rfl, rfl⟩

theorem eq_writeView (hm : Matches a s h) (hempty : h.waiting = []) : h = writeView s := by
  obtain ⟨-, hrx, hside, hdm⟩ := hm
  show HostWrite.State.mk h.waiting h.rx h.side h.dm = _
  rw [hempty, hrx, hside, hdm]
  rfl

/-- The write path keeps to itself, and the FIFO never asks for a pause. -/
def Alone (s : State n) (i : Input n w) : Prop :=
  accepts s.dtm.tap = false ∧ SimpleFifo.halfFullO s.dtm.uart.fifo = false

/-- **A run of the system**, beside the write path that keeps to itself.  The states match after it, and
    in every cycle of it the read side accepts no command and the FIFO asks for no pause. -/
theorem matches_trace (is : List (Input n w)) {a : Option Byte} {s : State n} {h : HostWrite.State}
    (hm : Matches a s h)
    (halways : Always (HostWrite.next esc) (fun s _ => HostWrite.plain s = true ∧ s.waiting = []) h
      (seen (announcing r esc p) (hostIn p) (a, s) is)) :
    Matches (run (announcing r esc p) (a, s) is).1 (run (next r esc p) s is)
        (run (HostWrite.next esc) h (seen (announcing r esc p) (hostIn p) (a, s) is)) ∧
      Always (next r esc p) Alone s is := by
  induction is generalizing a s h with
  | nil => exact ⟨hm, trivial⟩
  | cons i is ih =>
    obtain ⟨⟨hplain, hempty⟩, hlater⟩ := halways
    obtain ⟨hend, hrest⟩ := ih (matches_next hm hempty) hlater
    have hone : (h.waiting ++ a.toList).length ≤ 1 := by
      rw [hempty, List.nil_append]
      exact Option.length_toList_le
    rw [HostWrite.plain, Bool.and_eq_true, Bool.not_eq_true', hm.side] at hplain
    refine ⟨hend, ⟨?_, SimpleFifo.halfFull_single hm.fifo hone⟩, hrest⟩
    show (!s.dtm.tap.ser.busyO && (CommandDecoder.out s.dtm.tap.dec).readArbiterValidO) = false
    rw [show (CommandDecoder.out s.dtm.tap.dec).readArbiterValidO = false from hplain.1, Bool.and_false]

/-- The channel stays with this end of the line, and the STB targets have nothing for the host. -/
def Clear (s : State n) (i : Input n w) : Prop :=
  UartRx.channelO s.dtm.uart.rx = false ∧ DtmUart.Silent (dtmIn s i)

/-- The transmitter is not asked for a pause, and is given nothing. -/
def Unused (s : State n) (i : Input n w) : Prop :=
  UartTx.plain (Uart.txIn s.dtm.uart (DtmUart.uartIn s.dtm (dtmIn s i))) = true ∧ s.dtm.txEsc.writeO = false

/-- **The read side sleeps through it**: it is at rest behind the run, and has put nothing on the
    line. -/
theorem readRest_run {is : List (Input n w)} (hrest : DtmUart.ReadRest s.dtm)
    (hchannel : s.dtm.uart.channel = false) (halone : Always (next r esc p) Alone s is)
    (hclear : Always (next r esc p) Clear s is) :
    DtmUart.ReadRest (run (next r esc p) s is).dtm ∧ (run (next r esc p) s is).dtm.uart.channel = false ∧
      emitted (next r esc p) sent s is = [] ∧ Always (next r esc p) Unused s is := by
  induction is generalizing s with
  | nil => exact ⟨hrest, hchannel, rfl, trivial⟩
  | cons i is ih =>
    obtain ⟨⟨hacc, hhalf⟩, halone⟩ := halone
    obtain ⟨⟨hline, hsilent⟩, hclear⟩ := hclear
    obtain ⟨hnext, hnone⟩ : DtmUart.ReadRest (next r esc p s i).dtm ∧ sent s i = [] :=
      DtmUart.readRest_next hrest hacc hsilent ⟨hhalf, hchannel, hline⟩
    have hchannel' : (next r esc p s i).dtm.uart.channel = false := by
      show (UartRx.channelO s.dtm.uart.rx || (false && _)) = false
      rw [hline]
      rfl
    obtain ⟨hend, hlast, hsent, hunused⟩ := ih hnext hchannel' halone hclear
    refine ⟨hend, hlast, ?_, ⟨(UartTx.plain_iff _).mpr ⟨hhalf, hchannel⟩, hrest.noOffer⟩, hunused⟩
    rw [emitted_cons, hsent, List.append_nil]
    exact hnone

/-! ## The bytes of a message -/

theorem announcing_snd (is : List (Input n w)) (a : Option Byte) (s : State n) :
    (run (announcing r esc p) (a, s) is).2 = run (next r esc p) s is := run_watched _ _ is (a, s)

/-- What becomes readable while the frames of a message are on the line, and after that.  The cycle `x`
    in between is the one in which the last byte gets from the receiver to the FIFO. -/
theorem readable_next {as js : List (Input n w)} {x : Input n w} {bytes : List Byte} {s : State n}
    (hheard : emitted (next r esc p) received s as = bytes)
    (hquiet : emitted (next r esc p) received (run (next r esc p) s as) (x :: js) = []) :
    HostWrite.arrivals (seen (announcing r esc p) (hostIn p) (none, s) (as ++ [x])) = bytes ∧
      HostWrite.Quiet (seen (announcing r esc p) (hostIn p)
        (run (announcing r esc p) (none, s) (as ++ [x])) js) ∧
      (run (announcing r esc p) (none, s) (as ++ [x])).1 = none ∧
      (run (announcing r esc p) (none, s) (as ++ x :: js)).1 = none := by
  have hend := emitted_eq_nil.mp hquiet
  -- what is announced in a cycle is readable in the next one, and nothing is announced last
  have hnone : (run (announcing r esc p) (none, s) (as ++ [x])).1 = none := last_none hend.1
  have hlast : (run (announcing r esc p) (none, s) (as ++ x :: js)).1 = none := by
    rcases List.eq_nil_or_concat js with rfl | ⟨js', y, rfl⟩
    · exact hnone
    · rw [List.concat_eq_append, ← List.cons_append, ← List.append_assoc]
      refine last_none ?_
      rw [List.concat_eq_append, ← List.cons_append, emitted_append, List.append_eq_nil_iff] at hquiet
      rw [run_append]
      exact (List.append_eq_nil_iff.mp hquiet.2).1
  have hfirst : HostWrite.arrivals (seen (announcing r esc p) (hostIn p) (none, s) (as ++ [x])) = bytes := by
    rw [arrivals_exact rfl hnone, emitted_append, hheard, emitted_cons, hend.1]
    exact List.append_nil _
  refine ⟨hfirst, quiet_seen hnone ?_, hnone, hlast⟩
  rw [announcing_snd, run_append]
  exact emitted_eq_nil.mpr hend.2

/-- **From rest to rest**, with symbols that are for the write path: the requests are accepted, and the
    read side has noticed nothing. -/
theorem rest_symbols {as js : List (Input n w)} {x : Input n w} {syms : List (Symbol Byte)} {st' : Stage}
    {reqs : List DmiReq} (hrest : Rest st s)
    (hspaced : HostWrite.Spaced 0 (seen (announcing r esc p) (hostIn p) (none, s) (as ++ x :: js)))
    (hheard : emitted (next r esc p) received s as = encode esc syms)
    (hquiet : emitted (next r esc p) received (run (next r esc p) s as) (x :: js) = [])
    (hclear : Always (next r esc p) Clear s (as ++ x :: js)) (hlong : 15 ≤ js.length)
    (hclean : ∀ c, Symbol.command c ∈ syms → c ≠ esc) (hrun : st.run syms = some (st', reqs))
    (hready : st'.Ready) :
    Rest st' (run (next r esc p) s (as ++ x :: js)) ∧
      emitted (next r esc p) accepted s (as ++ x :: js) = reqs ∧
      emitted (next r esc p) sent s (as ++ x :: js) = [] ∧
      Always (next r esc p) Unused s (as ++ x :: js) := by
  obtain ⟨hfirst, hpads, -, hlast⟩ := readable_next hheard hquiet
  obtain ⟨d, hd, hsettled⟩ := hrest.path
  have hsplit : as ++ x :: js = as ++ [x] ++ js := by rw [List.append_assoc]; rfl
  have hcut : seen (announcing r esc p) (hostIn p) (none, s) (as ++ x :: js)
      = seen (announcing r esc p) (hostIn p) (none, s) (as ++ [x])
        ++ seen (announcing r esc p) (hostIn p) (run (announcing r esc p) (none, s) (as ++ [x])) js := by
    rw [hsplit, seen_append]
  -- the write path, from the settled state
  have hdecoded : st.run (decode esc false (HostWrite.arrivals
      (seen (announcing r esc p) (hostIn p) (none, s) (as ++ [x])))) = some (st', reqs) := by
    rw [hfirst, decode_encode esc syms hclean]
    exact hrun
  have hlen : 15 ≤ (seen (announcing r esc p) (hostIn p)
      (run (announcing r esc p) (none, s) (as ++ [x])) js).length := by
    rw [seen_length]
    exact hlong
  rw [hcut] at hspaced
  obtain ⟨halways, hacc, hsettled', hempty⟩ :=
    HostWrite.settled_run hsettled rfl hspaced hpads hlen hdecoded
  rw [← hcut] at halways hacc hsettled' hempty
  rw [hfirst, escaped_encode] at hsettled'
  -- and from the state there is
  obtain ⟨halways₀, hacc₀, d', hend, hd'⟩ := HostWrite.run_withDec esc _ (writeView s) hd halways
  rw [hend] at hsettled' hempty
  obtain ⟨hmatch, halone⟩ := matches_trace _ (matches_writeView hrest.fifo) halways₀
  have hview := eq_writeView hmatch hempty
  obtain ⟨hreads, hchannel, hsent, hunused⟩ := readRest_run hrest.reads hrest.channel halone hclear
  have hfifo := hmatch.fifo
  rw [hlast, hview] at hfifo
  rw [hview] at hd' hsettled'
  refine ⟨⟨hready, ⟨d', hd', hsettled'⟩, hfifo, hchannel, hreads⟩, ?_, hsent, hunused⟩
  have hempties : Always (HostWrite.next esc) (fun s _ => s.waiting = []) (writeView s)
      (seen (announcing r esc p) (hostIn p) (none, s) (as ++ x :: js)) :=
    always_imp (fun _ _ h => h.2) _ _ halways₀
  rw [matches_run _ (matches_writeView hrest.fifo) hempties, ← hacc₀, hacc]

/-! ## A read between two messages -/

/-- A read command is shown to the decoder, and everything else is at rest. -/
structure Showing (r : Rates) (a : Addr) (st : Stage) (s : State n) : Prop where
  reading : Reading r st s
  reads : DtmUart.ReadRest s.dtm
  dec : s.dtm.tap.dec.state = .idle
  rx : s.dtm.rxEsc = { state := .command, data := symbolOf CMD_READ a }

theorem showing_of_sees {d : CommandDecoder.State} {req : DmiReq} {addr : Addr} (hready : st.Ready)
    (hd : CommandDecoder.Alike s.dtm.tap.dec d)
    (hsees : HostWrite.Sees ((writeView s).withDec d)
      (HostWrite.settled { state := .command, data := symbolOf CMD_READ addr } req st))
    (hfifo : SimpleFifo.Holds [] s.dtm.uart.fifo) (hchannel : s.dtm.uart.channel = false)
    (hreads : DtmUart.ReadRest s.dtm) : Showing r addr st s := by
  have hsame := hsees.same
  rw [HostWrite.settled_ready hready] at hsame
  -- the view of the write path is that of the settled state, so each part of it is
  have hrx : s.dtm.rxEsc = { state := .command, data := symbolOf CMD_READ addr } :=
    congrArg HostWrite.State.rx hsame
  have hdec : d = st.decoder := congrArg (fun h => h.side.tap.dec) hsame
  have hwr : s.dtm.tap.wr = st.arbiter := congrArg (fun h => h.side.tap.wr) hsame
  have hdeser : s.dtm.tap.deser = RxDeserializer.reset := congrArg (fun h => h.side.tap.deser) hsame
  have hdmi : HostWrite.forgetDmi s.dtm.dmi = HostWrite.restDmi req := congrArg (fun h => h.side.dmi) hsame
  have hqueue : s.dm.csrs.queue.respQueue = [] := by
    have hlen := congrArg (fun h => h.dm.respQueue.length) hsame
    rw [← List.length_eq_zero_iff, ← List.length_replicate (n := s.dm.csrs.queue.respQueue.length)]
    exact hlen
  -- alike decoders are both free
  have hidle : s.dtm.tap.dec.state = .idle := by
    rcases hd with heq | ⟨hfree, -⟩
    · rw [heq, hdec]
      exact HostWrite.decoder_idle st
    · exact hfree
  refine ⟨⟨⟨hready, hwr, hdeser, req, hdmi⟩, hqueue, hfifo, hchannel,
    ⟨0, Or.inl ⟨rfl, hreads.tx⟩⟩, ?_, ?_⟩, hreads, hidle, hrx⟩
  · intro hne
    exact absurd hidle hne
  · exact Or.inr ⟨hidle, addr, hrx⟩

/-- When the read is over, everything is at rest again.  The read side and the write side are known to
    be; the decoder and `RX_Escape` have to be free as well. -/
theorem rest_of_reading (h : Reading r st s) (hreads : DtmUart.ReadRest s.dtm)
    (hidle : s.dtm.rxEsc.state = .idle) (hdec : s.dtm.tap.dec.state = .idle) : Rest st s := by
  obtain ⟨req, hdmi⟩ := h.write.dmi
  have hready := h.write.ready
  have hshort : st.Short := by
    rcases hready with rfl | ⟨w, rfl⟩
    · trivial
    · trivial
  have hrx : s.dtm.rxEsc = HostWrite.between false s.dtm.rxEsc.data := by
    show s.dtm.rxEsc = RxEscape.State.mk .idle s.dtm.rxEsc.data
    rw [← hidle]
  have hsame : HostWrite.forget ((writeView s).withDec st.decoder)
      = HostWrite.settled (HostWrite.between false s.dtm.rxEsc.data) req st := by
    rw [HostWrite.settled_ready hready, ← hrx, ← h.write.wr, ← h.write.deser, ← hdmi]
    show HostWrite.State.mk _ _ _ (DmCsrs.State.mk (List.replicate s.dm.csrs.queue.respQueue.length 0)) = _
    rw [h.queue]
    rfl
  exact ⟨hready, ⟨st.decoder, Or.inr ⟨hdec, HostWrite.decoder_idle st⟩, hshort, s.dtm.rxEsc.data, req,
    hsame, hreads.tap.ack⟩, h.fifo, h.channel, hreads⟩

variable (r esc p) in
theorem arrivals_emitted (is : List (Input n w)) (q : Option Byte × State n) :
    HostWrite.arrivals (seen (announcing r esc p) (hostIn p) q is)
      = emitted (announcing r esc p) (fun q _ => q.1.toList) q is := by
  induction is generalizing q with
  | nil => rfl
  | cons i is ih =>
    rw [seen_cons, HostWrite.arrivals_cons, emitted_cons, ih]
    rfl

/-- **The command of a read** is shown to the decoder while its frames are on the line or just behind
    them, and nothing comes after it. -/
theorem rest_shown {as js : List (Input n w)} {x : Input n w} {addr : Addr} (hrest : Rest st s)
    (hspaced : HostWrite.Spaced 0 (seen (announcing r esc p) (hostIn p) (none, s) (as ++ x :: js)))
    (hheard : emitted (next r esc p) received s as = [esc, symbolOf CMD_READ addr])
    (hquiet : emitted (next r esc p) received (run (next r esc p) s as) (x :: js) = [])
    (hclear : Always (next r esc p) Clear s (as ++ x :: js)) (hclean : symbolOf CMD_READ addr ≠ esc) :
    ∃ pre post, as ++ x :: js = pre ++ post ∧ js.length ≤ post.length ∧
      emitted (next r esc p) accepted s pre = [] ∧ emitted (next r esc p) sent s pre = [] ∧
      Always (next r esc p) Unused s pre ∧ Showing r addr st (run (next r esc p) s pre) ∧
      Always (next r esc p) Still (run (next r esc p) s pre) post := by
  obtain ⟨hfirst, hpads, hnone, hlast⟩ := readable_next hheard hquiet
  obtain ⟨d, hd, hsettled⟩ := hrest.path
  -- the cycle in which the command becomes readable
  rw [arrivals_emitted] at hfirst
  have hone (q : Option Byte × State n) (i : Input n w) : q.1.toList.length ≤ 1 := Option.length_toList_le
  obtain ⟨pre, y, post, hsplit, hescape, hcommand, hbehind⟩ :
      ∃ pre y post, as ++ [x] = pre ++ y :: post ∧
        emitted (announcing r esc p) (fun q _ => q.1.toList) (none, s) pre = [esc] ∧
        (run (announcing r esc p) (none, s) pre).1.toList = [symbolOf CMD_READ addr] ∧
        emitted (announcing r esc p) (fun q _ => q.1.toList)
          (run (announcing r esc p) (none, s) (pre ++ [y])) post = [] := emitted_last hone hfirst
  have hwhole : as ++ x :: js = pre ++ [y] ++ (post ++ js) := by
    calc as ++ x :: js = as ++ [x] ++ js := by rw [List.append_assoc]; rfl
      _ = pre ++ [y] ++ (post ++ js) := by rw [hsplit]; simp
  have hcommand' : (hostIn p (run (announcing r esc p) (none, s) pre) y).arrival
      = some (symbolOf CMD_READ addr) := by
    show (run (announcing r esc p) (none, s) pre).1 = _
    cases hq : (run (announcing r esc p) (none, s) pre).1 with
    | none =>
      rw [hq] at hcommand
      cases hcommand
    | some b =>
      rw [hq] at hcommand
      exact congrArg some (List.cons.inj hcommand).1
  -- nothing comes behind it
  have hq : run (announcing r esc p) (run (announcing r esc p) (none, s) (pre ++ [y])) (post ++ js)
      = run (announcing r esc p) (none, s) (as ++ x :: js) := by
    rw [hwhole, ← run_append]
  have hafter : emitted (announcing r esc p) (fun q _ => q.1.toList)
      (run (announcing r esc p) (none, s) (pre ++ [y])) (post ++ js) = [] := by
    have hmid : run (announcing r esc p) (run (announcing r esc p) (none, s) (pre ++ [y])) post
        = run (announcing r esc p) (none, s) (as ++ [x]) := by
      rw [hsplit, ← run_append]
      simp
    rw [emitted_append, hbehind, hmid, List.nil_append, ← arrivals_emitted]
    exact List.flatMap_eq_nil_iff.mpr fun j hj => by rw [hpads j hj]; rfl
  have haccount := arrivals_seen r esc p (post ++ js) (run (announcing r esc p) (none, s) (pre ++ [y])).1
    (run (announcing r esc p) (none, s) (pre ++ [y])).2
  rw [Prod.mk.eta, arrivals_emitted, hafter, hq, hlast] at haccount
  obtain ⟨hnow, hlater⟩ := List.append_eq_nil_iff.mp haccount.symm
  -- the write path, from the settled state
  have hseen : seen (announcing r esc p) (hostIn p) (none, s) (pre ++ [y])
      = seen (announcing r esc p) (hostIn p) (none, s) pre
        ++ [hostIn p (run (announcing r esc p) (none, s) pre) y] := seen_append _ _ _ _ _
  rw [hwhole, seen_append, hseen, List.append_assoc] at hspaced
  obtain ⟨halways, hacc, hempty, req, hsees⟩ := HostWrite.command_shown hsettled rfl hspaced
    (by rw [arrivals_emitted, hescape]) hcommand' hclean
  rw [← hseen] at halways hacc hempty hsees
  -- and from the state there is
  obtain ⟨halways₀, hacc₀, d', hend, hd'⟩ := HostWrite.run_withDec esc _ (writeView s) hd halways
  rw [hend] at hsees hempty
  obtain ⟨hmatch, halone⟩ := matches_trace _ (matches_writeView hrest.fifo) halways₀
  have hview := eq_writeView hmatch hempty
  rw [hview] at hd' hsees
  rw [hwhole, always_append] at hclear
  obtain ⟨hreads, hchannel, hsent, hunused⟩ := readRest_run hrest.reads hrest.channel halone hclear.1
  have hfifo := hmatch.fifo
  rw [Option.toList_eq_nil_iff.mp hnow, hview] at hfifo
  refine ⟨pre ++ [y], post ++ js, hwhole, ?_, ?_, hsent, hunused,
    showing_of_sees hrest.ready hd' hsees hfifo hchannel hreads, ?_⟩
  · rw [List.length_append]
    exact Nat.le_add_left _ _
  · rw [matches_run _ (matches_writeView hrest.fifo) (always_imp (fun _ _ h => h.2) _ _ halways₀),
      ← hacc₀, hacc]
  · rw [announcing_snd] at hlater
    refine always_imp ?_ _ _ (always_and _ _ (emitted_eq_nil.mp hlater) hclear.2)
    rintro t i ⟨hno, hline, hsilent⟩
    rw [received, Uart.received_eq] at hno
    exact ⟨Option.toList_eq_nil_iff.mp hno, hline, hsilent⟩

/-- The transmitter is not asked for a pause, and the line is this channel's. -/
def Plain (s : State n) (i : Input n w) : Prop :=
  UartTx.plain (Uart.txIn s.dtm.uart (DtmUart.uartIn s.dtm (dtmIn s i))) = true

theorem unanswered {is : List (Input n w)} (h : emitted (next r esc p) accepted s is = []) :
    emitted (next r esc p) (answered p) s is = [] := by
  have hmap := emitted_map (next r esc p) (answered p) Prod.fst s is
  simp only [answered_fst] at hmap
  rw [h] at hmap
  exact List.map_eq_nil_iff.mp hmap.symm

/-- During a read the debug module is left alone, and the transmitter is not disturbed. -/
theorem reading_quiet (h : Reading r st s) (hi : Still s i) : accepted s i = [] ∧ Plain s i := by
  have hu := h.undisturbed hi
  refine ⟨?_, (UartTx.plain_iff _).mpr ⟨hu.half, hu.channel⟩⟩
  have hno : DmTop.accepts s.dm (dmIn s i) = false := by
    show (DmCsrs.dmiReqReadyO s.dm.csrs.queue && s.dtm.dmi.dmiReqValidO) = false
    rw [h.write.bridge.2.2, Bool.and_false]
  rw [accepted, hno]
  rfl

/-- **A read, from rest to rest.**  The reply is on the line, it is the bridge's register that it shows,
    and the debug module has had no request. -/
theorem rest_read (hr : UartTx.Workable r) {as js : List (Input n w)} {x : Input n w} {addr : Addr}
    {answers : List (DmiReq × BitVec 32)} (hrest : Rest st s)
    (hspaced : HostWrite.Spaced 0 (seen (announcing r esc p) (hostIn p) (none, s) (as ++ x :: js)))
    (hheard : emitted (next r esc p) received s as = [esc, symbolOf CMD_READ addr])
    (hquiet : emitted (next r esc p) received (run (next r esc p) s as) (x :: js) = [])
    (hclear : Always (next r esc p) Clear s (as ++ x :: js)) (hclean : symbolOf CMD_READ addr ≠ esc)
    (hlocal : HostRead.Local addr) (hlong : readTime r < js.length)
    (hstored : DmiPairing.Stored answers (exchange s)) :
    Rest st (run (next r esc p) s (as ++ x :: js)) ∧
      emitted (next r esc p) accepted s (as ++ x :: js) = [] ∧
      emitted (next r esc p) sent s (as ++ x :: js)
        = HostRead.reply esc (DmiPairing.lastRead answers) addr ∧
      Always (next r esc p) Plain s (as ++ x :: js) := by
  obtain ⟨pre, post, hcut, hlen, hacc, hsent, hunused, hshow, hstill⟩ :=
    rest_shown hrest hspaced hheard hquiet hclear hclean
  cases post with
  | nil =>
    rw [List.length_nil] at hlen
    omega
  | cons i is =>
    rw [List.length_cons] at hlen
    -- what the bridge has stored so far
    have hstored' := stored_run r esc p hstored pre
    rw [unanswered hacc, List.append_nil] at hstored'
    obtain ⟨hrequest, hend, -⟩ := hshow.reading.write.bridge
    obtain ⟨hread, hresp⟩ : (run (next r esc p) s pre).dtm.dmi.doRead = false ∧
        (run (next r esc p) s pre).dtm.dmi.dmiResp = DmiPairing.lastRead answers :=
      stored_idle hstored' hrequest hend
    obtain ⟨hreply, hreading, hreads, hidle, hdec⟩ := read_run hr hshow.reading hshow.reads hshow.dec
      hshow.rx hlocal hread hstill (by omega)
    have hquiets (s : State n) (i : Input n w) (hs : Reading r st s) (hi : Still s i) :=
      reading_quiet hs hi
    have hstep (s : State n) (i : Input n w) (hs : Reading r st s) (hi : Still s i) :
        Reading r st (next r esc p s i) := reading_next hr hs hi
    have hlater := always_of_step (Reading r st) Still _ hstep hquiets (i :: is) _ hshow.reading hstill
    rw [hcut, run_append, emitted_append, emitted_append, hacc, hsent, hreply, hresp]
    refine ⟨rest_of_reading hreading hreads hidle hdec, ?_, rfl, ?_⟩
    · exact emitted_eq_nil.mpr (always_imp (fun _ _ h => h.1) _ _ hlater)
    · rw [always_append]
      exact ⟨always_imp (fun _ _ h => h.1) _ _ hunused, always_imp (fun _ _ h => h.2) _ _ hlater⟩

end RiscDbgUart.UartDtmTop
