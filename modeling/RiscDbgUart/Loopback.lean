/-
  The transmitter wired to the receiver.

  Both run on the same clock with the same parameters, but their baud generators differ: the
  transmitter never delays a tick within a frame, the receiver may delay each of its ten, and how
  often depends on the remainder of the two rates.  A bit of the receiver starts half a cell into
  the bit of the transmitter and drifts by at most ten cycles in a frame, so with 24 cycles per bit
  every sample stays in its cell, and the byte is announced before the next frame can begin.

  The run is cut into the frames of the transmitter (`UartTx.framesTaken_run`), each of which the
  receiver takes from its waiting state back to it (`UartRx.receives_framed`).

  Prefix and completeness are two statements.  At any time what has been received is a prefix of what has
  been sent, since a byte is announced after its frame and never without one; and once the transmitter
  has been idle for eleven bit times, it is all of it, since the last frame is through by then.
-/
import RiscDbgUart.UartRx
import RiscDbgUart.UartTx

set_option linter.unusedVariables false

namespace RiscDbgUart.Loopback

open Clocked

/-! ## The two modules wired together -/

abbrev State := UartTx.State × UartRx.State

/-- `TX0_O` of the transmitter is `RX0_I` of the receiver. -/
def next (r : Rates) : State → UartTx.Input → State :=
  cascade (UartTx.next r) UartTx.tx0O (UartRx.next r)

/-- The edge with `RST_NI` low. -/
def reset (r : Rates) (s : State) : State := (UartTx.reset r s.1, UartRx.reset r)

/-- The bytes the transmitter takes: `TX_START_I` is high while `TX_BUSY_O` is low. -/
def sent (s : State) (i : UartTx.Input) : List Byte := UartTx.taken s.1 i

/-- The bytes the receiver announces with `RX_DONE_O`. -/
def received (s : State) : List Byte := s.2.core.received

/-! ## Every run -/

variable {r : Rates}

theorem paced (h : UartTx.Workable r) : UartRx.Paced r (UartTx.bitTime r) := by
  have hratio := h.ratio
  have hlt := h.bitTime_lt
  have hsample := UartTx.sampleInterval_eq h
  constructor
  · constructor <;> simp only [UartRx.baudParams, hsample] <;> omega
  · simp only [UartRx.baudParams, hsample]
  · simp only [UartRx.baudParams, hsample]

theorem idle_reset (r : Rates) (s : UartTx.State) : UartTx.Idle (UartTx.reset r s) := ⟨rfl, rfl, rfl⟩

theorem ready_reset (r : Rates) : UartRx.Ready (UartRx.reset r).core := ⟨⟨rfl, rfl, rfl, rfl, rfl⟩, rfl⟩

theorem taken_quiet {js : List UartTx.Input} (hj : ∀ j ∈ js, j.txStartI = false)
    (s : UartTx.State) : emitted (UartTx.next r) UartTx.taken s js = [] := by
  induction js generalizing s with
  | nil => rfl
  | cons j js ih =>
    have h0 : UartTx.taken s j = [] := by
      simp [UartTx.taken, UartTx.takes, hj j (List.mem_cons_self ..)]
    rw [emitted_cons, h0, ih fun a ha => hj a (List.mem_cons_of_mem j ha)]
    rfl

/-- The line of a run that ends with a quiet frame time, as it comes out of a delay line of four
    cells: six high cycles, and the frames of the bytes taken. -/
theorem line_run (h : UartTx.Workable r) {is js : List UartTx.Input} {s : UartTx.State}
    (hs : UartTx.Idle s) (hi : ∀ i ∈ is, UartTx.plain i = true)
    (hj : ∀ j ∈ js, UartTx.plain j = true ∧ j.txStartI = false)
    (hlen : 10 * UartTx.bitTime r + 7 ≤ js.length) :
    ∃ l, Framed (UartTx.bitTime r) (emitted (UartTx.next r) UartTx.taken s is) l ∧
      ∃ ls, shown (UartTx.next r) UartTx.tx0O s (is ++ js) = ls ∧
        (List.replicate 4 true ++ ls).take ls.length = List.replicate 6 true ++ l := by
  -- the last six cycles are still in the delay line
  have hcut : is ++ js = (is ++ js.take (js.length - 6)) ++ js.drop (js.length - 6) := by
    rw [List.append_assoc, List.take_append_drop]
  have hearly : ∀ j ∈ js.take (js.length - 6), UartTx.plain j = true ∧ j.txStartI = false :=
    fun j hmem => hj j (List.mem_of_mem_take hmem)
  have hlate : ∀ j ∈ js.drop (js.length - 6), UartTx.plain j = true ∧ j.txStartI = false :=
    fun j hmem => hj j (List.mem_of_mem_drop hmem)
  obtain ⟨l, hl, hline, hidle⟩ := UartTx.framesTaken_run h hi hearly hs (by
    rw [List.length_take]
    omega)
  obtain ⟨hhigh, -, -⟩ := UartTx.idle_run (r := r) hlate hidle
  rw [emitted_append, taken_quiet fun j hmem => (hearly j hmem).2, List.append_nil] at hl
  refine ⟨l, hl, _, rfl, ?_⟩
  generalize hL : emitted (UartTx.next r) UartTx.line s (is ++ js.take (js.length - 6)) = L
    at hline
  have hsix : (js.drop (js.length - 6)).length = 6 := by
    rw [List.length_drop]
    omega
  have hshown : shown (UartTx.next r) UartTx.tx0O s (is ++ js) = L ++ List.replicate 6 true := by
    rw [hcut, shown, emitted_append]
    show emitted (UartTx.next r) UartTx.line s _ ++ emitted (UartTx.next r) UartTx.line _ _ = _
    rw [hL, hhigh, hsix]
  rw [hshown]
  calc (List.replicate 4 true ++ (L ++ List.replicate 6 true)).take (L ++ List.replicate 6 true).length
      = ((List.replicate 4 true ++ (L ++ [true, true])) ++ List.replicate 4 true).take
          (List.replicate 4 true ++ (L ++ [true, true])).length := by
        simp [List.replicate]
    _ = List.replicate 4 true ++ (L ++ [true, true]) := List.take_left
    _ = List.replicate 6 true ++ l := by
        rw [hline]
        rfl

/-- What the receiver makes of such a run. -/
theorem receives_run (h : UartTx.Workable r) {is js : List UartTx.Input} (s : State)
    (hi : ∀ i ∈ is, UartTx.plain i = true)
    (hj : ∀ j ∈ js, UartTx.plain j = true ∧ j.txStartI = false)
    (hlen : 10 * UartTx.bitTime r + 7 ≤ js.length) :
    emitted (next r) (fun s _ => received s) (reset r s) (is ++ js)
        = emitted (next r) sent (reset r s) is ∧
      Always (next r) (fun s _ => UartRx.channelO s.2 = false) (reset r s) (is ++ js) := by
  obtain ⟨l, hl, ls, hls, htake⟩ := line_run h (idle_reset r s.1) hi hj hlen
  -- the receiver sees the line four cycles late, and those cycles are idle
  have hrec : UartRx.Receives r (UartRx.reset r).core ((UartRx.pipe (UartRx.reset r) ++ ls).take
      ls.length) (emitted (UartTx.next r) UartTx.taken (UartTx.reset r s.1) is) := by
    have hpipe : UartRx.pipe (UartRx.reset r) = List.replicate 4 true := by
      simp [UartRx.pipe, UartRx.reset, List.replicate]
    rw [hpipe, htake]
    exact UartRx.receives_framed (paced h) h.ratio
      (.idle (.idle (.idle (.idle (.idle (.idle hl)))))) (ready_reset r)
  constructor
  · calc emitted (next r) (fun s _ => received s) (reset r s) (is ++ js)
        = emitted (UartRx.next r) (fun t _ => t.core.received) (UartRx.reset r) ls := by
          rw [← hls]
          exact emitted_cascade_snd _ _ _ _ _ _ (fun t : UartRx.State => t.core.received)
      _ = emitted (UartTx.next r) UartTx.taken (UartTx.reset r s.1) is := by
          rw [UartRx.emitted_core (fun c => c.received), hrec.bytes]
      _ = emitted (next r) sent (reset r s) is :=
          (emitted_cascade_fst _ _ _ _ _ _ UartTx.taken).symm
  · have halways := (UartRx.always_core (fun c => c.channel = false) _ ls).mpr hrec.channel
    rw [← hls] at halways
    exact (always_cascade_snd _ _ _ _ _ _ (fun t => UartRx.channelO t = false)).mpr halways

/-- **Loopback.**  For all rates with at least 24 cycles per bit and every run, whatever bytes are
    started and when: the receiver announces the bytes sent, in order and each once; all of them once
    nothing has been started for eleven bit times; and it never reports the other channel. -/
theorem received_eq_sent (hratio : 24 ≤ r.clkRate / r.baudRate) (hclk : 10 * r.clkRate < 2 ^ 31)
    (s : State) (is : List UartTx.Input)
    (hi : ∀ i ∈ is, i.sendPauseI = false ∧ i.channelI = false) :
    emitted (next r) (fun s _ => received s) (reset r s) is
        <+: emitted (next r) sent (reset r s) is ∧
    (∀ js, (∀ j ∈ js, j.sendPauseI = false ∧ j.channelI = false ∧ j.txStartI = false) →
      11 * (r.clkRate / r.baudRate) ≤ js.length →
      emitted (next r) (fun s _ => received s) (reset r s) (is ++ js)
        = emitted (next r) sent (reset r s) is) ∧
    Always (next r) (fun s _ => UartRx.channelO s.2 = false) (reset r s) is := by
  have h : UartTx.Workable r := ⟨hratio, hclk⟩
  have hplain : ∀ i ∈ is, UartTx.plain i = true := fun i hmem =>
    (UartTx.plain_iff i).mpr (hi i hmem)
  -- a quiet tail as long as a frame, behind any run, gives the prefix at its cut
  have hquiet : ∀ j ∈ List.replicate (10 * UartTx.bitTime r + 7) ({} : UartTx.Input),
      UartTx.plain j = true ∧ j.txStartI = false := by
    intro j hj
    rw [(List.mem_replicate.mp hj).2]
    exact ⟨rfl, rfl⟩
  obtain ⟨hrec, halways⟩ := receives_run h s hplain hquiet (by rw [List.length_replicate])
  refine ⟨?_, ?_, ?_⟩
  · rw [← hrec, emitted_append]
    exact List.prefix_append _ _
  · intro js hj hlen
    refine (receives_run h s hplain (fun j hmem => ?_) ?_).1
    · obtain ⟨hp, hc, hno⟩ := hj j hmem
      exact ⟨(UartTx.plain_iff j).mpr ⟨hp, hc⟩, hno⟩
    · rw [UartTx.bitTime]
      omega
  · rw [always_append] at halways
    exact halways.1

/-- A byte is started, and a second one is offered from the next cycle on for 300 cycles: the transmitter
    is busy for ten bit times of 25 cycles with the first and takes the second right behind it. -/
def backToBack : List UartTx.Input :=
  { txStartI := true, dataI := 0xA5 } :: List.replicate 300 { txStartI := true, dataI := 0x5A }

/-- Both bytes are received. -/
theorem received_eq_sent_back_to_back :
    emitted (next ⟨50, 2⟩) (fun s _ => received s) (reset ⟨50, 2⟩ default)
      (backToBack ++ List.replicate 275 ({} : UartTx.Input)) = [0xA5, 0x5A] := by
  have hi : ∀ i ∈ backToBack, i.sendPauseI = false ∧ i.channelI = false := by
    intro i hi
    rcases List.mem_cons.mp hi with rfl | hi
    · exact ⟨rfl, rfl⟩
    · rw [(List.mem_replicate.mp hi).2]
      exact ⟨rfl, rfl⟩
  have hj : ∀ j ∈ List.replicate 275 ({} : UartTx.Input),
      j.sendPauseI = false ∧ j.channelI = false ∧ j.txStartI = false := by
    intro j hj
    rw [(List.mem_replicate.mp hj).2]
    exact ⟨rfl, rfl, rfl⟩
  have hsent : emitted (next ⟨50, 2⟩) sent (reset ⟨50, 2⟩ default) backToBack = [0xA5, 0x5A] := by
    decide +kernel
  rw [← hsent]
  exact (received_eq_sent (r := ⟨50, 2⟩) (by decide) (by decide) default backToBack hi).2.1 _ hj
    (by rw [List.length_replicate]; decide)

end RiscDbgUart.Loopback
