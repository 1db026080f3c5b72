/-
  What a polite host's bytes leave behind on the write path.

  `HostMessages` follows the requests that such a host makes.  Here is what a run leaves for the rest of
  the transport module: the write path keeps to itself (`plain`), the queue in front of `RX_Escape` stays
  empty, and the hardware settles again.  `Polite` says so of a state, and one cycle keeps it.

  A settled state names every register of the write path, the decoder's among them.  While the decoder
  is idle nobody looks at the address and the command that it held last, so a run may as well start with
  others (`run_withDec`).
-/
import RiscDbgUart.HostMessages

set_option linter.unusedVariables false

/-! ## The registers of an idle decoder -/

namespace RiscDbgUart.CommandDecoder

/-- The same decoder, or both idle, whatever they held last. -/
def Alike (d d' : State) : Prop := d = d' ∨ (d.state = .idle ∧ d'.state = .idle)

theorem Alike.out {d d' : State} (h : Alike d d') : out d = out d' := by
  rcases h with rfl | ⟨hd, hd'⟩
  · rfl
  · unfold CommandDecoder.out
    rw [hd, hd']

theorem Alike.next {d d' : State} (h : Alike d d') (i : Input) : Alike (next d i) (next d' i) := by
  rcases h with rfl | ⟨hd, hd'⟩
  · exact Or.inl rfl
  · cases hi : i.readI && i.cmdRecI
    · rw [next_idle_stays hd hi, next_idle_stays hd' hi]
      exact Or.inr ⟨hd, hd'⟩
    · -- both latch the same symbol
      rw [Bool.and_eq_true] at hi
      rw [next_latch hd hi.1 hi.2, next_latch hd' hi.1 hi.2]
      exact Or.inl rfl

end RiscDbgUart.CommandDecoder

namespace RiscDbgUart.HostWrite

open Clocked Stuffing DmiUartTap

variable {esc : Byte} {n : Nat} {e : Bool} {st : Stage} {reqs : List DmiReq} {s : State}

/-! ## Another decoder -/

/-- The state with another decoder. -/
def State.withDec (s : State) (d : CommandDecoder.State) : State :=
  { s with side := { s.side with tap := { s.side.tap with dec := d } } }

/-- Everything but the decoder moves as before. -/
theorem next_withDec (esc : Byte) (s : State) (i : Input) {d : CommandDecoder.State}
    (h : CommandDecoder.Alike s.side.tap.dec d) :
    ∃ d', next esc (s.withDec d) i = (next esc s i).withDec d' ∧
      CommandDecoder.Alike (next esc s i).side.tap.dec d' := by
  have hout : CommandDecoder.out (s.withDec d).side.tap.dec = CommandDecoder.out s.side.tap.dec :=
    h.out.symm
  have hread (j : DmiUartTap.Input) : readO (s.withDec d).side.tap j = readO s.side.tap j := by
    unfold readO
    rw [hout]
    rfl
  have hwr (j : DmiUartTap.Input) :
      writeArbiter (s.withDec d).side.tap j = writeArbiter s.side.tap j := by
    unfold writeArbiter
    rw [hout]
    rfl
  have hrd (j : DmiUartTap.Input) :
      readArbiter (s.withDec d).side.tap j = readArbiter s.side.tap j := by
    unfold readArbiter
    rw [hout]
    rfl
  have hdec (j : DmiUartTap.Input) : decIn (s.withDec d).side.tap j = decIn s.side.tap j := by
    unfold decIn
    rw [hread]
    rfl
  refine ⟨CommandDecoder.next d (decIn s.side.tap (WriteSide.tapIn s.side (sideIn s i))), ?_, h.next _⟩
  have hrx : rxIn (s.withDec d) i = rxIn s i := by
    unfold rxIn
    rw [hread]
    rfl
  have htap : DmiUartTap.next (s.withDec d).side.tap
        (WriteSide.tapIn (s.withDec d).side (sideIn (s.withDec d) i))
      = { DmiUartTap.next s.side.tap (WriteSide.tapIn s.side (sideIn s i)) with
          dec := CommandDecoder.next d (decIn s.side.tap (WriteSide.tapIn s.side (sideIn s i))) } := by
    unfold DmiUartTap.next
    rw [hwr, hrd, hdec]
    rfl
  show State.mk _ (RxEscape.next esc s.rx (rxIn (s.withDec d) i)) ⟨DmiUartTap.next _ _, _⟩ _ = _
  rw [hrx, htap]
  rfl

/-- **The registers of an idle decoder do not matter**: not for the requests, not for whether the write
    path is on its own, and not for the queue.  A read leaves its command in them, which is how a write after
    a read differs from one after a reset. -/
theorem run_withDec (esc : Byte) (is : List Input) (s : State) {d : CommandDecoder.State}
    (h : CommandDecoder.Alike s.side.tap.dec d)
    (halways : Always (next esc) (fun s _ => plain s = true ∧ s.waiting = []) (s.withDec d) is) :
    Always (next esc) (fun s _ => plain s = true ∧ s.waiting = []) s is ∧
      emitted (next esc) accepted (s.withDec d) is = emitted (next esc) accepted s is ∧
      ∃ d', run (next esc) (s.withDec d) is = (run (next esc) s is).withDec d' ∧
        CommandDecoder.Alike (run (next esc) s is).side.tap.dec d' := by
  induction is generalizing s d with
  -- cycle by cycle: the two decoders stay alike
  | nil => exact ⟨trivial, rfl, d, rfl, h⟩
  | cons i is ih =>
    obtain ⟨⟨hplain, hempty⟩, hlater⟩ := halways
    obtain ⟨d', hnext, hd'⟩ := next_withDec esc s i h
    rw [hnext] at hlater
    obtain ⟨hrest, hacc, d'', hrun, hd''⟩ := ih (next esc s i) hd' hlater
    have hsame : plain (s.withDec d) = plain s := by
      unfold plain
      rw [show CommandDecoder.out (s.withDec d).side.tap.dec = _ from h.out.symm]
      rfl
    refine ⟨⟨⟨hsame ▸ hplain, hempty⟩, hrest⟩, ?_, d'', ?_, hd''⟩
    · rw [emitted_cons, emitted_cons, hnext, hacc]
      rfl
    · rw [run_cons, hnext]
      exact hrun

/-! ## The write path keeps to itself -/

/-- While nothing arrives the write path is on its own. -/
def Alone (esc : Byte) (s : State) : Prop :=
  ∀ js, Quiet js → Always (next esc) (fun s _ => plain s = true) s js

theorem plain_of_step {b : State} {arrival : Option Byte} {q : State × List DmiReq} (h : Sees s b)
    (hstep : bareStep esc b arrival = some q) : plain s = true := by
  rw [bareStep, ← h.same, plain_forget] at hstep
  by_contra hno
  rw [if_neg hno] at hstep
  cases hstep

theorem plain_settled (esc : Byte) (h : Settled e st s) : plain s = true := by
  obtain ⟨hshort, d, req, hsees⟩ := h
  exact plain_of_step hsees (settled_rests esc e d req hshort)

theorem settled_quiet {i : Input} (h : Settled e st s) (hi : i.arrival = none) :
    Settled e st (next esc s i) := by
  obtain ⟨hshort, d, req, hsees⟩ := h
  have hrest := settled_rests esc e d req hshort
  rw [← hi] at hrest
  exact ⟨hshort, d, req, (sees_next hsees hrest).1⟩

theorem alone_settled (h : Settled e st s) : Alone esc s := by
  intro js hquiet
  induction js generalizing s with
  | nil => exact trivial
  | cons j js ih =>
    refine ⟨plain_settled esc h, ?_⟩
    exact ih (settled_quiet h (hquiet j List.mem_cons_self))
      fun i hi => hquiet i (List.mem_cons_of_mem _ hi)

/-- It is on its own along a timeline that ends in a settled state. -/
theorem alone_of_bareIdle (hshort : st.Short) {d : Byte} {req : DmiReq} {k : Nat} {b : State}
    (hsees : Sees s b) (hidle : bareIdle esc k b = some (settled (between e d) req st, reqs)) :
    Alone esc s := by
  induction k generalizing b reqs s with
  -- the induction is on the cycles that the timeline takes
  | zero =>
    rw [bareIdle, Option.some.injEq, Prod.mk.injEq] at hidle
    obtain ⟨rfl, rfl⟩ := hidle
    exact alone_settled ⟨hshort, d, req, hsees⟩
  | succ k ih =>
    rw [bareIdle, Option.bind_eq_some_iff] at hidle
    obtain ⟨p, hstep, hrest⟩ := hidle
    rw [Option.map_eq_some_iff] at hrest
    obtain ⟨q, hk, hq⟩ := hrest
    rintro (_ | ⟨j, js⟩) hquiet
    · exact trivial
    refine ⟨plain_of_step hsees hstep, ?_⟩
    have hj : j.arrival = none := hquiet j List.mem_cons_self
    rw [← hj] at hstep
    have hlater : bareIdle esc k p.1 = some (settled (between e d) req st, q.2) := by
      rw [hk, ← (Prod.mk.inj hq).1]
    exact ih (sees_next hsees hstep).1 hlater js fun i hi => hquiet i (List.mem_cons_of_mem _ hi)

theorem alone_quiet {i : Input} (h : Alone esc s) (hi : i.arrival = none) :
    plain s = true ∧ Alone esc (next esc s i) := by
  have hcons (js : List Input) (hjs : Quiet js) : Quiet (i :: js) := by
    intro j hj
    rcases List.mem_cons.mp hj with rfl | hj
    · exact hi
    · exact hjs j hj
  exact ⟨(h [i] (hcons [] fun j hj => absurd hj List.not_mem_nil)).1,
    fun js hjs => (h (i :: js) (hcons js hjs)).2⟩

/-! ## Polite runs -/

/-- After `n` cycles without a byte the hardware has settled; on the way there it accepts `reqs`, keeps
    to itself, and has read every byte.  A polite host keeps the write path in such states. -/
structure Polite (esc : Byte) (n : Nat) (e : Bool) (st : Stage) (reqs : List DmiReq) (s : State) :
    Prop where
  le : n ≤ 15
  soon : Soon esc n e st reqs s
  alone : Alone esc s
  empty : s.waiting = []

theorem polite_settled (h : Settled e st s) (hempty : s.waiting = []) : Polite esc 0 e st [] s :=
  ⟨Nat.zero_le 15, settled_soon h, alone_settled h, hempty⟩

theorem escaped_symbol {b : Byte} (h : ¬ (e = false ∧ b = esc)) : escaped esc e [b] = false := by
  cases e with
  | false =>
    have hb : b ≠ esc := fun hb => h ⟨rfl, hb⟩
    simp [escaped, hb]
  | true => rfl

/-- The queue is empty again after a cycle in which a settled state meets a byte. -/
theorem empty_arrival {i : Input} {b : Byte} (h : Settled e st s) (hi : i.arrival = some b) :
    (next esc s i).waiting = [] := by
  obtain ⟨hshort, d, req, hsees⟩ := h
  have hread := settled_arrives esc e d b req hshort
  rw [← hi] at hread
  have hsame := congrArg State.waiting (sees_next hsees hread).1.same
  cases st with
  | fresh => exact hsame
  | writing n got => exact hsame
  | finished w => exact hsame

/-- **One cycle of a polite host.**  The bytes to come move the stage as before, and the requests
    are those of the cycle and those still to come. -/
theorem polite_next {i : Input} {is js : List Input} {st' : Stage} {reqs' : List DmiReq}
    (h : Polite esc n e st reqs s) (hspaced : Spaced n (i :: js))
    (hrun : st.run (decode esc e (arrivals (i :: is))) = some (st', reqs')) :
    plain s = true ∧
      ∃ m st₁ now later, Polite esc m (escaped esc e i.arrival.toList) st₁ now (next esc s i) ∧
      Spaced m js ∧
      st₁.run (decode esc (escaped esc e i.arrival.toList) (arrivals is)) = some (st', later) ∧
      reqs ++ reqs' = accepted s i ++ (now ++ later) := by
  rw [arrivals_cons] at hrun
  cases hi : i.arrival with
  | none =>
    rw [Spaced, if_pos hi] at hspaced
    rw [hi, Option.toList_none, List.nil_append] at hrun
    obtain ⟨later, rfl, hnext⟩ := soon_quiet h.soon hi
    obtain ⟨hplain, halone⟩ := alone_quiet h.alone hi
    have hle := h.le
    have hempty : (next esc s i).waiting = [] := by
      have havailable : available s i = [] := by rw [available, h.empty, hi]; rfl
      show (if _ then (available s i).tail else available s i) = []
      rw [havailable]
      split_ifs <;> rfl
    refine ⟨hplain, n - 1, st, later, reqs', ⟨by omega, hnext, ?_, hempty⟩, hspaced, hrun, ?_⟩
    · exact halone
    · rw [List.append_assoc]
  | some b =>
    rw [Spaced, if_neg (by rw [hi]; exact Option.some_ne_none b)] at hspaced
    obtain ⟨rfl, hspaced⟩ := hspaced
    obtain ⟨hsettled, rfl⟩ := soon_zero h.soon
    rw [hi, Option.toList_some, List.singleton_append] at hrun
    have hplain := plain_settled esc hsettled
    have hempty : (next esc s i).waiting = [] := empty_arrival hsettled hi
    refine ⟨hplain, 15, ?_⟩
    by_cases hesc : e = false ∧ b = esc
    · obtain ⟨rfl, hb⟩ := hesc
      rw [hb] at hi hrun
      rw [decode, if_pos rfl] at hrun
      obtain ⟨hnone, hnext⟩ := arrival_escape hsettled hi
      have hafter : escaped esc false (some b).toList = true := by simp [escaped, hb]
      obtain ⟨hshort, d, req, hsees⟩ := hsettled
      have hread := settled_arrives esc false d esc req hshort
      rw [← hi] at hread
      have hescape : arrived esc false esc = between true esc := by rw [arrived, if_pos rfl]; rfl
      rw [hescape] at hread
      have halone : Alone esc (next esc s i) :=
        alone_settled ⟨hshort, esc, req, (sees_next hsees hread).1⟩
      rw [hafter, hnone]
      exact ⟨st, [], reqs', ⟨le_rfl, hnext, halone, hempty⟩, hspaced, hrun, rfl⟩
    · -- the byte completes a symbol
      obtain ⟨sym, hsym, hdecode⟩ := arrived_symbol hesc (arrivals is)
      rw [hdecode, Stage.run, Option.bind_eq_some_iff] at hrun
      obtain ⟨⟨st₁, now⟩, hstage, hrest⟩ := hrun
      rw [Option.map_eq_some_iff] at hrest
      obtain ⟨⟨stEnd, later⟩, hq, hend⟩ := hrest
      rw [Prod.mk.injEq] at hend
      obtain ⟨rfl, rfl⟩ := hend
      obtain ⟨hnone, hnext⟩ := arrival_symbol hsettled hi hsym hstage
      obtain ⟨hshort, d, req, hsees⟩ := hsettled
      have hread := settled_arrives esc e d b req hshort
      rw [hsym, ← hi] at hread
      obtain ⟨k, d', req', hk, hidle⟩ := shown_symbol esc req hstage
      have halone := alone_of_bareIdle (next_short hstage) (sees_next hsees hread).1 hidle
      rw [show escaped esc e (some b).toList = false from escaped_symbol hesc, hnone]
      exact ⟨st₁, now, later, ⟨le_rfl, hnext, halone, hempty⟩, hspaced, hq, rfl⟩

/-- **A run of a polite host**, with the cycles `rest` still to come.  Every byte has been read when the next
    one comes, so the queue in front of `RX_Escape` stays empty. -/
theorem polite_run {is rest : List Input} {st' : Stage} {reqs' : List DmiReq}
    (h : Polite esc n e st reqs s) (hspaced : Spaced n (is ++ rest))
    (hrun : st.run (decode esc e (arrivals is)) = some (st', reqs')) :
    Always (next esc) (fun s _ => plain s = true ∧ s.waiting = []) s is ∧
      ∃ m later, Polite esc m (escaped esc e (arrivals is)) st' later (run (next esc) s is) ∧
        Spaced m rest ∧ reqs ++ reqs' = emitted (next esc) accepted s is ++ later := by
  induction is generalizing n e st reqs reqs' s with
  -- the induction is on the cycles; what is still owed is carried from one to the next
  | nil =>
    have hend : some (st, []) = some (st', reqs') := by rw [← hrun]; cases e <;> rfl
    rw [Option.some.injEq, Prod.mk.injEq] at hend
    obtain ⟨rfl, rfl⟩ := hend
    refine ⟨trivial, n, reqs, ?_, hspaced, List.append_nil reqs⟩
    cases e <;> exact h
  | cons i is ih =>
    obtain ⟨hplain, m, st₁, now, later, hnext, hspaced', hrun', hlaw⟩ :=
      polite_next h hspaced hrun
    obtain ⟨halways, m', later', hend, hrest, hlaw'⟩ := ih hnext hspaced' hrun'
    refine ⟨⟨⟨hplain, h.empty⟩, halways⟩, m', later', ?_, hrest, ?_⟩
    · rw [arrivals_cons, escaped_append]
      exact hend
    · rw [hlaw, hlaw', emitted_cons, List.append_assoc]

/-- **From rest to rest.**  The bytes that arrive at a settled state leave a settled state behind, once
    fifteen quiet cycles have gone by. -/
theorem settled_run {is pads : List Input} {st' : Stage} {reqs' : List DmiReq} (h : Settled e st s)
    (hempty : s.waiting = []) (hspaced : Spaced 0 (is ++ pads)) (hpads : Quiet pads)
    (hlong : 15 ≤ pads.length) (hrun : st.run (decode esc e (arrivals is)) = some (st', reqs')) :
    Always (next esc) (fun s _ => plain s = true ∧ s.waiting = []) s (is ++ pads) ∧
      emitted (next esc) accepted s (is ++ pads) = reqs' ∧
      Settled (escaped esc e (arrivals is)) st' (run (next esc) s (is ++ pads)) ∧
      (run (next esc) s (is ++ pads)).waiting = [] := by
  obtain ⟨halways, m, later, hmid, hrest, hlaw⟩ := polite_run (polite_settled h hempty) hspaced hrun
  have hnone : arrivals pads = [] := by
    rw [arrivals, List.flatMap_eq_nil_iff]
    intro j hj
    rw [hpads j hj]
    rfl
  have hstay : st'.run (decode esc (escaped esc e (arrivals is)) (arrivals pads)) = some (st', []) := by
    rw [hnone]
    cases escaped esc e (arrivals is) <;> rfl
  rw [← List.append_nil pads] at hrest
  obtain ⟨halways', m', later', hend, -, -⟩ := polite_run hmid hrest hstay
  obtain ⟨hsettled, hacc⟩ := hmid.soon pads hpads (le_trans hmid.le hlong)
  rw [Clocked.run_append, emitted_append, hacc, ← hlaw, List.nil_append]
  exact ⟨(always_append _ _ is pads s).mpr ⟨halways, halways'⟩, rfl, hsettled, hend.empty⟩

/-- **A command that is not for the write path** is shown to the decoder, and nothing else happens. -/
theorem command_shown {is rest : List Input} {i : Input} {c : Byte} (h : Settled false st s)
    (hempty : s.waiting = []) (hspaced : Spaced 0 (is ++ i :: rest)) (hescape : arrivals is = [esc])
    (hi : i.arrival = some c) (hc : c ≠ esc) :
    Always (next esc) (fun s _ => plain s = true ∧ s.waiting = []) s (is ++ [i]) ∧
      emitted (next esc) accepted s (is ++ [i]) = [] ∧
      (run (next esc) s (is ++ [i])).waiting = [] ∧
      ∃ req, Sees (run (next esc) s (is ++ [i])) (settled { state := .command, data := c } req st) := by
  have hrun : st.run (decode esc false (arrivals is)) = some (st, []) := by
    rw [hescape, decode, if_pos rfl]
    rfl
  obtain ⟨halways, m, later, hmid, hrest, hlaw⟩ := polite_run (polite_settled h hempty) hspaced hrun
  -- the command comes when everything has settled behind the escape byte
  rw [Spaced, if_neg (by rw [hi]; exact Option.some_ne_none c)] at hrest
  obtain ⟨rfl, -⟩ := hrest
  obtain ⟨hsettled, rfl⟩ := soon_zero hmid.soon
  have hnone : emitted (next esc) accepted s is = [] := (List.append_eq_nil_iff.mp hlaw.symm).1
  have hplain := plain_settled esc hsettled
  have hread : (next esc (run (next esc) s is) i).waiting = [] := empty_arrival hsettled hi
  have hmark : escaped esc false (arrivals is) = true := by
    rw [hescape]
    simp [escaped]
  rw [hmark] at hsettled
  obtain ⟨hshort, d, req, hsees⟩ := hsettled
  have hstep := settled_arrives esc true d c req hshort
  rw [← hi] at hstep
  obtain ⟨hnext, hacc⟩ := sees_next hsees hstep
  have hshown : arrived esc true c = { state := .command, data := c } := by rw [arrived, if_neg hc]
  rw [hshown] at hnext
  refine ⟨(always_append _ _ is [i] s).mpr ⟨halways, ⟨hplain, hmid.empty⟩, trivial⟩, ?_, ?_, req, ?_⟩
  · rw [emitted_append, hnone, emitted_cons, hacc]
    rfl
  · rw [Clocked.run_append]
    exact hread
  · rw [Clocked.run_append]
    exact hnext

end RiscDbgUart.HostWrite
