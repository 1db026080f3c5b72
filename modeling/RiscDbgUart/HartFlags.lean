/-
  What a hart reads when it polls its flag byte.

  A parked hart loads the byte at `FLAGS + id`; the load returns the word around it one cycle later, on
  a 32- or 64-bit bus.  Only the selected hart finds a flag set: `go` while the state machine is in
  `Go`, `resume` while it is in `Resume`.  This takes a window of one byte per hart: the flags end where
  the ROM begins, 1024 bytes on, and hart 1024 polls the first instruction of the ROM.

  The flags of all harts are bits of a wide vector that the source writes byte by byte and reads as double
  words.  `flagBytes_byte` reads one byte of it, `rdataO_byte` follows it to the bus, and `flag_loaded` is
  what the hart finds.  Behind the window the same load gets a word of the ROM (`rdataO_rom`), and
  both bits are set in the first one (`not_onlySelected`).
-/
import RiscDbgUart.DmMem

set_option linter.unusedVariables false

namespace RiscDbgUart

/-! ## Hart numbers -/

theorem le_two_pow_clog2 (n : Nat) : n ≤ 2 ^ clog2 n := by
  unfold clog2
  split_ifs with h
  · omega
  · have hlt : n - 1 < 2 ^ (Nat.log2 (n - 1) + 1) := Nat.lt_log2_self
    omega

theorem clog2_le {n k : Nat} (h : n ≤ 2 ^ k) : clog2 n ≤ k := by
  unfold clog2
  split_ifs with h1
  · omega
  · have hlt : Nat.log2 (n - 1) < k := (Nat.log2_lt (by omega)).mpr (by omega)
    omega

/-- The hart select field holds every hart's number, its length being the logarithm rounded up. -/
theorem lt_two_pow_hartSelLen {n h : Nat} (hh : h < n) : h < 2 ^ hartSelLen n := by
  have hle := le_two_pow_clog2 n
  unfold hartSelLen
  split_ifs with h1
  · omega
  · omega

theorem hartSelLen_le {n : Nat} (hn : n ≤ 1024) : hartSelLen n ≤ 10 := by
  unfold hartSelLen
  split_ifs
  · omega
  · exact clog2_le (by omega)

/-- What the field selects is one of 1024 harts, which is as many as there are flag bytes. -/
theorem selectHart_lt {n k : Nat} (hn : n ≤ 1024) (x : BitVec k) : selectHart n x < 1024 := by
  have hlt : selectHart n x < 2 ^ hartSelLen n := Nat.mod_lt _ (Nat.two_pow_pos _)
  have hle : 2 ^ hartSelLen n ≤ 2 ^ 10 := Nat.pow_le_pow_right (by omega) (hartSelLen_le hn)
  omega

/-! ## Bytes of the flag words -/

/-- The address of a double word, `{addr[11:3], 3'b0}`. -/
theorem mask_toNat (a : BitVec 12) : (a &&& 0xFF8).toNat = a.toNat / 8 * 8 := by
  have hshift : a &&& (0xFF8 : BitVec 12) = (a >>> 3) <<< 3 := by
    ext j hj
    simp only [BitVec.getElem_and, BitVec.getElem_shiftLeft, BitVec.getElem_ushiftRight]
    interval_cases j <;> simp
  rw [hshift, BitVec.toNat_shiftLeft, BitVec.toNat_ushiftRight, Nat.shiftRight_eq_div_pow,
    Nat.shiftLeft_eq]
  have := a.isLt
  omega

/-- A byte of a double word with one byte set. -/
theorem extract_setByte (v : BitVec 64) (f : Byte) (k : Nat) {j : Nat} (hj : j < 8) :
    (setByte v (8 * k) f).extractLsb' (8 * j) 8 = if j = k then f else v.extractLsb' (8 * j) 8 := by
  apply BitVec.eq_of_getLsbD_eq
  intro b hb
  rw [BitVec.getLsbD_extractLsb', setByte_bit _ _ _ _ (by omega)]
  by_cases hjk : j = k
  · subst hjk
    have hin : 8 * j ≤ 8 * j + b ∧ 8 * j + b < 8 * j + 8 := by omega
    rw [if_pos hin, if_pos rfl, Nat.add_sub_cancel_left, decide_eq_true hb, Bool.true_and]
  · have hout : ¬ (8 * k ≤ 8 * j + b ∧ 8 * j + b < 8 * k + 8) := by omega
    rw [if_neg hout, if_neg hjk, BitVec.getLsbD_extractLsb']

/-- A byte of one half of a double word. -/
theorem extract_half (x : BitVec 64) (half j : Nat) (hj : 8 * j + 8 ≤ 32) :
    ((x.extractLsb' half 32).setWidth 32).extractLsb' (8 * j) 8
      = x.extractLsb' (half + 8 * j) 8 := by
  apply BitVec.eq_of_getLsbD_eq
  intro b hb
  rw [BitVec.getLsbD_extractLsb', BitVec.getLsbD_setWidth, BitVec.getLsbD_extractLsb',
    BitVec.getLsbD_extractLsb', Nat.add_assoc]
  have hin : 8 * j + b < 32 := by omega
  simp [hin]

namespace DmMem

variable {n w : Nat}

/-- The access loads the word with hart `h`'s flag byte. -/
def loadsFlag (h : Nat) (b : Access w) : Prop :=
  b.reqI = true ∧ b.weI = false ∧ b.addr.toNat / 4 = (FlagsBaseAddr.toNat + h) / 4

instance (h : Nat) (b : Access w) : Decidable (loadsFlag h b) := by
  unfold loadsFlag; infer_instance

/-- The hart's byte of the word on the bus. -/
def flagByte (h : Nat) (r : BitVec w) : Byte := r.extractLsb' (8 * (h % (w / 8))) 8

/-- The double word that answers a flag load: eight flag bytes, of which the hart looks at its own. -/
theorem rdataD_flags (p : Params n) (s : State n) {i : Input n w} {h : Nat} (hh : h < 1024)
    (hl : loadsFlag h i.busI) : rdataD p s i = flagBytes s i := by
  obtain ⟨hreq, hwe, ha⟩ := hl
  have hbase : FlagsBaseAddr.toNat = 1024 := rfl
  have hrange : 1024 ≤ i.busI.addr.toNat ∧ i.busI.addr.toNat < 2048 := by omega
  unfold rdataD
  rw [hreq, hwe]
  have h1 : ¬ i.busI.addr = WhereToAddr := by
    intro heq
    rw [heq] at hrange
    exact absurd hrange (by decide)
  have h2 : ¬ (DataBaseAddr ≤ i.busI.addr ∧ i.busI.addr ≤ DataEndAddr) := by
    rw [BitVec.le_def, BitVec.le_def]
    have : DataEndAddr.toNat = 903 := rfl
    omega
  have h3 : ¬ (ProgBufBaseAddr ≤ i.busI.addr ∧ i.busI.addr ≤ ProgBufEndAddr) := by
    rw [BitVec.le_def, BitVec.le_def]
    have : ProgBufEndAddr.toNat = 895 := rfl
    omega
  have h4 : ¬ (AbstractCmdBaseAddr ≤ i.busI.addr ∧ i.busI.addr ≤ AbstractCmdEndAddr) := by
    rw [BitVec.le_def, BitVec.le_def]
    have : AbstractCmdEndAddr.toNat = 863 := rfl
    omega
  have h5 : FlagsBaseAddr ≤ i.busI.addr ∧ i.busI.addr ≤ FlagsEndAddr := by
    rw [BitVec.le_def, BitVec.le_def]
    have : FlagsEndAddr.toNat = 2047 := rfl
    omega
  simp only [Bool.not_false, Bool.and_self, if_true, h1, h2, h3, h4, h5, and_self, if_false]

/-- Byte `h % 8` of that double word is the flags for the selected hart and zero for the others. -/
theorem flagBytes_byte (s : State n) {i : Input n w} {h : Nat} (hn : n ≤ 1024) (hh : h < 1024)
    (hl : loadsFlag h i.busI) :
    (flagBytes s i).extractLsb' (8 * (h % 8)) 8 = if h = hartsel i then flags s else 0 := by
  have hsel : hartsel i < 1024 := selectHart_lt hn _
  have hseln : (BitVec.ofNat 12 (hartsel i)).toNat = hartsel i := by
    rw [BitVec.toNat_ofNat, Nat.mod_eq_of_lt (by omega)]
  have hlane : (BitVec.ofNat 12 (hartsel i) &&& 7).toNat = hartsel i % 8 := by
    rw [BitVec.toNat_and, hseln]
    exact Nat.and_two_pow_sub_one_eq_mod (hartsel i) 3
  have hbase : FlagsBaseAddr.toNat = 1024 := rfl
  have ha := hl.2.2
  -- the addressed double word is the selected hart's
  have hword : (i.busI.addr &&& 0xFF8) - FlagsBaseAddr = BitVec.ofNat 12 (hartsel i) &&& 0xFF8 ↔
      h / 8 = hartsel i / 8 := by
    rw [BitVec.toNat_inj.symm, BitVec.toNat_sub, mask_toNat, mask_toNat, hseln, hbase]
    omega
  unfold flagBytes
  simp only [hword, hlane]
  by_cases hdw : h / 8 = hartsel i / 8
  · rw [if_pos hdw, extract_setByte 0 _ _ (Nat.mod_lt _ (by omega))]
    by_cases heq : h = hartsel i
    · rw [if_pos (by rw [heq]), if_pos heq]
    · rw [if_neg (by omega), if_neg heq]
      exact BitVec.extractLsb'_zero
  · have hne : ¬ h = hartsel i := by
      intro heq
      exact hdw (by rw [heq])
    rw [if_neg hdw, if_neg hne]
    simp

/-- Below the ROM, a byte of the bus word is one of the double word that answers: on a 32-bit bus bit 2
    of the address tells its halves apart. -/
theorem rdataO_byte (p : Params n) (s : State n) {i : Input n w} {l : Nat} (hw : w = 32 ∨ w = 64)
    (hlow : i.busI.addr.toNat < 2048) (hl : l < w / 8) :
    (rdataO p w (next p s i)).extractLsb' (8 * l) 8
      = (rdataD p s i).extractLsb' (8 * (i.busI.addr.toNat % 8 / (w / 8) * (w / 8) + l)) 8 := by
  have hrom : (next p s i).fwdRom = false := by
    show decide (HaltAddress.setWidth 12 ≤ i.busI.addr) = false
    rw [decide_eq_false_iff_not, BitVec.le_def]
    have hhalt : (HaltAddress.setWidth 12).toNat = 2048 := rfl
    omega
  have hdata : (next p s i).rdata = rdataD p s i := rfl
  -- bit 2 of the address of the cycle before selects the half
  have hbit : (next p s i).wordEnable32 = decide (i.busI.addr.toNat / 4 % 2 = 1) := by
    show i.busI.addrI.getLsbD 2 = _
    have hbit2 : i.busI.addrI.getLsbD 2 = i.busI.addr.getLsbD 2 := by
      rw [Access.addr, BitVec.getLsbD_setWidth]
      simp
    rw [hbit2, BitVec.getLsbD, Nat.testBit_eq_decide_div_mod_eq]
  rw [rdataO, hrom, if_neg Bool.false_ne_true, hdata, hbit]
  rcases hw with rfl | rfl
  · have hlane : 8 * l + 8 ≤ 32 := by omega
    rw [if_neg (by decide)]
    simp only [decide_eq_true_eq]
    -- 32 bits: the upper or the lower half
    split_ifs with hupper
    · rw [extract_half _ 32 _ hlane]
      congr 1
      omega
    · rw [extract_half _ 0 _ hlane]
      congr 1
      omega
  · rw [if_pos rfl, BitVec.setWidth_eq]
    congr 1
    omega

/-- **What a hart polls.**  The byte the hart reads is the flags if it is the selected hart and zero
    if it is not. -/
theorem flag_loaded (p : Params n) (s : State n) {i : Input n w} {h : Nat} (hw : w = 32 ∨ w = 64)
    (hn : n ≤ 1024) (hh : h < n) (hl : loadsFlag h i.busI) :
    flagByte h (rdataO p w (next p s i)) = if h = hartsel i then flags s else 0 := by
  have hh' : h < 1024 := by omega
  have hbase : FlagsBaseAddr.toNat = 1024 := rfl
  have ha := hl.2.2
  have hbyte : i.busI.addr.toNat % 8 / (w / 8) * (w / 8) + h % (w / 8) = h % 8 := by
    rcases hw with rfl | rfl
    · omega
    · omega
  rw [flagByte, rdataO_byte p s hw (by omega) (Nat.mod_lt _ (by omega)), hbyte,
    rdataD_flags p s hh' hl]
  exact flagBytes_byte s hn hh' hl

/-! ## Every number of harts -/

/-- The access loads the word with the byte at `FLAGS + h`, which the debug ROM of hart `h` polls; the
    address is decoded in its low twelve bits. -/
def pollsFlag (h : Nat) (b : Access w) : Prop :=
  b.reqI = true ∧ b.weI = false ∧ b.addr.toNat / 4 = (FlagsBaseAddr.toNat + h) % 2 ^ 12 / 4

instance (h : Nat) (b : Access w) : Decidable (pollsFlag h b) := by
  unfold pollsFlag; infer_instance

/-- With `n` harts only the selected one ever sees `go` or `resume`, and it sees them in `Go` and
    `Resume` only: in every state, and whatever else goes on in the cycle of the load. -/
def OnlySelected (n : Nat) : Prop :=
  ∀ (w : Nat) (p : Params n) (s : State n) (i : Input n w) (h : Nat), w = 32 ∨ w = 64 →
    i.hartselI.toNat < n → h < n → pollsFlag h i.busI →
    ((flagByte h (rdataO p w (next p s i))).getLsbD 0 = true ↔
      h = i.hartselI.toNat ∧ s.state = .Go) ∧
    ((flagByte h (rdataO p w (next p s i))).getLsbD 1 = true ↔
      h = i.hartselI.toNat ∧ s.state = .Resume)

/-- The two flags say which of the two states the module is in, and are both clear in the others. -/
theorem flags_bits (s : State n) :
    ((flags s).getLsbD 0 = true ↔ s.state = .Go) ∧
      ((flags s).getLsbD 1 = true ↔ s.state = .Resume) := by
  rw [flags]
  cases s.state <;> decide

/-- The selected hart is the one that the debugger names. -/
theorem hartsel_eq {i : Input n w} (hsel : i.hartselI.toNat < n) :
    hartsel i = i.hartselI.toNat :=
  Nat.mod_eq_of_lt (lt_two_pow_hartSelLen hsel)

/-- A load from the lower half of a double word of the ROM, on the narrow bus. -/
theorem rdataO_rom (p : Params n) (s : State n) {i : Input n 32} (hreq : i.busI.reqI = true)
    (hrom : HaltAddress.setWidth 12 ≤ i.busI.addr) (hlow : i.busI.addrI.getLsbD 2 = false) :
    rdataO p 32 (next p s i)
      = ((romWords p.hasSndScratch).getD (romIndex p.hasSndScratch i.busI.addrI) 0).setWidth 32 := by
  have hfwd : (next p s i).fwdRom = true := decide_eq_true hrom
  have hen : (next p s i).wordEnable32 = false := hlow
  have hindex : (next p s i).romAddr = romIndex p.hasSndScratch i.busI.addrI := if_pos hreq
  rw [rdataO, if_neg (by decide), hen, if_neg Bool.false_ne_true, hfwd, if_pos rfl, romRdata, hindex]
  rw [BitVec.setWidth_eq, getWord_zero]
  rfl

/-- Hart 1024 loads the first word of the ROM, in which both bits are set.  So it finds both flags, selected
    or not, whatever the state machine does. -/
theorem not_onlySelected (hn : 1024 < n) : ¬ OnlySelected n := by
  intro h
  let p : Params n := { selectableHarts := 0, dmBaseAddress := 0 }
  let load : Access 32 := { reqI := true, addrI := 0x800 }
  let i : Input n 32 :=
    { hartselI := 1024, haltreqI := 0, resumereqI := 0, clearResumeackI := false, progbufI := 0
      dataI := 0, cmdValidI := false, cmdI := { cmdtype := 0, control := 0 }, busI := load }
  have hword : rdataO p 32 (next p (reset 0) i)
      = ((romWords false).getD (romIndex false load.addrI) 0).setWidth 32 :=
    rdataO_rom p (reset 0) rfl (by decide : HaltAddress.setWidth 12 ≤ load.addr)
      (by decide : load.addrI.getLsbD 2 = false)
  have hbit : (flagByte 1024 (rdataO p 32 (next p (reset 0) i))).getLsbD 0 = true := by
    rw [hword]
    decide
  have hgo := (h 32 p (reset 0) i 1024 (Or.inl rfl) hn hn ⟨rfl, rfl, rfl⟩).1.mp hbit
  cases hgo.2

/-- **Only the selected hart sees `go` and `resume`**, for as many harts as the window of the flags has
    bytes, and for no more. -/
theorem onlySelected_iff (n : Nat) : OnlySelected n ↔ n ≤ 1024 := by
  constructor
  · intro h
    by_contra hn
    exact not_onlySelected (by omega) h
  · intro hn w p s i h hw hsel hh hpoll
    obtain ⟨hreq, hwe, ha⟩ := hpoll
    have hbase : FlagsBaseAddr.toNat = 1024 := rfl
    have hl : loadsFlag h i.busI := ⟨hreq, hwe, by omega⟩
    rw [flag_loaded p s hw hn hh hl, hartsel_eq hsel]
    by_cases heq : h = i.hartselI.toNat
    · rw [if_pos heq, and_iff_right heq, and_iff_right heq]
      exact flags_bits s
    · rw [if_neg heq]
      exact ⟨iff_of_false (by decide) (fun hc => heq hc.1),
        iff_of_false (by decide) (fun hc => heq hc.1)⟩

/-- The smallest number of harts that is too large. -/
theorem not_onlySelected_1025 : ¬ OnlySelected 1025 := not_onlySelected (by decide)

end DmMem

end RiscDbgUart
