/-
  What becomes of the command symbols the TAP reads.

  `rx_read` is high for two independent reasons: the head symbol is a command and the decoder is
  free, or the deserializer wants data (`receive_enable`).  The second does not look at what kind of
  symbol is at the head.  While the TAP is in write mode it therefore also removes a command symbol
  that arrives while the decoder is still busy with the one before — for instance a read that waits
  for the serializer — and nothing decodes it.

  `clear` says that the two reasons do not meet in a cycle.  It decides the matter in both
  directions: a cycle keeps faith with the decoder exactly when it is clear, and over a run of clear
  cycles the commands decoded are the command bytes read, in order and each once.

  The decoder has two registers that matter, its state and what it has latched, and the argument is by
  cases on the state: an idle decoder latches what is read (`next_dec_idle`, `popsCommand_idle`), a busy
  one latches nothing, and a symbol that is read meanwhile is lost (`popsCommand_busy`).
-/
import RiscDbgUart.Clocked.Machine
import RiscDbgUart.DmiUartTap

set_option linter.unusedVariables false

namespace RiscDbgUart.DmiUartTap

open Clocked

/-! ## The two event streams -/

/-- The command byte the TAP removes from the receive side in a cycle. -/
def popsCommand (s : State) (i : Input) : List Byte :=
  if readO s i && !i.rxEmptyI && i.cmdRecI then [i.dataRecI] else []

/-- The command the decoder takes up in a cycle: what its registers hold when it has left idle.  Its two
    fields are those of the symbol, so nothing about the address is lost either. -/
def decodes (s : State) (i : Input) : List (Cmd × Addr) :=
  if s.dec.state = .idle ∧ (next s i).dec.state = .handover then
    [((next s i).dec.cmd, (next s i).dec.addr)]
  else []

/-- The command and address fields of a command byte. -/
def fields (b : Byte) : Cmd × Addr := (cmdOf b, addrOf b)

/-- A command symbol removed in this cycle meets an idle decoder, which latches its two fields. -/
def Latched (s : State) (i : Input) : Prop :=
  ∀ b ∈ popsCommand s i, s.dec.state = .idle ∧
    (next s i).dec = { state := .handover, cmd := (fields b).1, addr := (fields b).2 }

instance (s : State) (i : Input) : Decidable (Latched s i) :=
  inferInstanceAs (Decidable (∀ b ∈ popsCommand s i, _))

/-- No command symbol is at the head while the deserializer asks for data and the decoder is busy. -/
def clear (s : State) (i : Input) : Bool :=
  !(s.wr.receiveEnable && s.dec.state != .idle && !i.rxEmptyI && i.cmdRecI)

/-! ## One cycle -/

/-- A command symbol at the head is removed when the decoder is idle or the deserializer asks. -/
theorem popsCommand_eq (s : State) (i : Input) : popsCommand s i
    = if !i.rxEmptyI && i.cmdRecI && (s.dec.state == .idle || s.wr.receiveEnable) then
        [i.dataRecI] else [] := by
  rw [popsCommand, readO, CommandDecoder.out_busy]
  cases i.rxEmptyI <;> cases i.cmdRecI <;> simp

theorem popsCommand_idle {s : State} (i : Input) (h : s.dec.state = .idle) :
    popsCommand s i = if !i.rxEmptyI && i.cmdRecI then [i.dataRecI] else [] := by
  rw [popsCommand_eq, h, beq_self_eq_true, Bool.true_or, Bool.and_true]

theorem popsCommand_busy {s : State} (i : Input) (h : s.dec.state ≠ .idle) :
    popsCommand s i = if clear s i then [] else [i.dataRecI] := by
  have hne : (s.dec.state == CommandDecoder.Fsm.idle) = false := beq_eq_false_iff_ne.mpr h
  rw [popsCommand_eq, clear, bne, hne]
  cases i.rxEmptyI <;> cases i.cmdRecI <;> cases s.wr.receiveEnable <;> rfl

/-- An idle decoder latches the command symbol at the head, and stays idle when there is none. -/
theorem next_dec_idle {s : State} (i : Input) (h : s.dec.state = .idle) : (next s i).dec
    = if !i.rxEmptyI && i.cmdRecI then
        { state := .handover, cmd := cmdOf i.dataRecI, addr := addrOf i.dataRecI }
      else s.dec := by
  have hread : (readO s i && i.cmdRecI) = (!i.rxEmptyI && i.cmdRecI) := by
    rw [readO, CommandDecoder.out_busy, h]
    cases i.rxEmptyI <;> cases i.cmdRecI <;> simp
  rw [next_dec, ← hread]
  cases hr : readO s i && i.cmdRecI
  · exact CommandDecoder.next_idle_stays h hr
  · rw [Bool.and_eq_true] at hr
    exact CommandDecoder.next_latch (i := decIn s i) h hr.1 hr.2

/-- Once busy, the decoder does not take up a command. -/
theorem decodes_busy {s : State} {i : Input} (h : s.dec.state ≠ .idle) : decodes s i = [] := by
  simp [decodes, h]

/-- An idle decoder takes up exactly the command symbol that is removed. -/
theorem decodes_idle {s : State} {i : Input} (h : s.dec.state = .idle) :
    decodes s i = (popsCommand s i).map fields := by
  rw [decodes, popsCommand_idle i h, next_dec_idle i h]
  cases !i.rxEmptyI && i.cmdRecI
  · simp [h]
  · simp [h, fields]

theorem latched_iff_clear (s : State) (i : Input) : Latched s i ↔ clear s i = true := by
  by_cases hs : s.dec.state = .idle
  · have hclear : clear s i = true := by simp [clear, hs]
    refine iff_of_true ?_ hclear
    intro b hb
    rw [popsCommand_idle i hs] at hb
    rw [next_dec_idle i hs]
    split_ifs at hb ⊢
    · rw [List.mem_singleton] at hb
      rw [hb]
      exact ⟨hs, rfl⟩
    · cases hb
  · -- a busy decoder latches nothing, so the cycle is fine exactly when no command is removed
    rw [Latched, popsCommand_busy i hs]
    cases clear s i
    · exact iff_of_false (fun h => hs (h i.dataRecI List.mem_cons_self).1) Bool.false_ne_true
    · exact iff_of_true (fun b hb => absurd hb List.not_mem_nil) rfl

/-! ## Runs -/

/-- **Every command symbol read is decoded — in runs of clear cycles, and only there.**  In every run
    from reset, all command symbols removed are latched by an idle decoder exactly when every cycle
    is clear, and then the commands taken up are the bytes removed, in order and each once. -/
theorem commands_decoded_iff_clear (s₀ : State) (is : List Input) :
    (Always next Latched (reset s₀) is ↔ Always next (fun s i => clear s i = true) (reset s₀) is) ∧
    (Always next (fun s i => clear s i = true) (reset s₀) is →
      emitted next decodes (reset s₀) is
        = (emitted next popsCommand (reset s₀) is).map fields) := by
  constructor
  · simp only [always_iff, latched_iff_clear]
  · intro h
    generalize reset s₀ = s at h ⊢
    induction is generalizing s with
    | nil => rfl
    | cons i is ih =>
      rw [emitted_cons, emitted_cons, List.map_append, ih _ h.2]
      by_cases hs : s.dec.state = .idle
      · rw [decodes_idle hs]
      · rw [decodes_busy hs, popsCommand_busy i hs, if_pos h.1]
        rfl

/-- A cycle with the command symbol `b` at the head of the receive side and a stalled transmitter. -/
def commandCycle (b : Byte) : Input :=
  { dataRecI := b, rxEmptyI := false, cmdRecI := true, txReadyI := false, readValidI := true }

/-- A cycle with nothing received and a stalled transmitter. -/
def stallCycle : Input := { txReadyI := false, readValidI := true }

/-- A write, a read whose response the transmitter does not take, a second read that has to wait for
    it, and a reset. -/
def swallowRun : List Input :=
  commandCycle (symbolOf CMD_WRITE ADDR_DMI) :: List.replicate 5 stallCycle
    ++ commandCycle (symbolOf CMD_READ ADDR_IDCODE) :: List.replicate 7 stallCycle
    ++ commandCycle (symbolOf CMD_READ ADDR_DMI) :: List.replicate 3 stallCycle
    ++ [commandCycle (symbolOf CMD_RESET ADDR_NOP), stallCycle]

/-- The reset is read while the decoder holds the second read, and it is lost. -/
theorem reset_symbol_swallowed :
    ¬ Always next Latched (reset default) swallowRun ∧
    emitted next popsCommand (reset default) swallowRun
      = [symbolOf CMD_WRITE ADDR_DMI, symbolOf CMD_READ ADDR_IDCODE, symbolOf CMD_READ ADDR_DMI,
          symbolOf CMD_RESET ADDR_NOP] ∧
    emitted next decodes (reset default) swallowRun
      = [(CMD_WRITE, ADDR_DMI), (CMD_READ, ADDR_IDCODE), (CMD_READ, ADDR_DMI)] := by
  decide +kernel

end RiscDbgUart.DmiUartTap
