/-
  `uart_pkg.sv`: the commands and register addresses of the UART test access port, the lengths of
  the registers behind it, and the two bit-slice operations its serializers are made of.

  A host symbol is one byte `{cmd[2:0], addr[4:0]}`.  The command and address registers of the
  design are plain 3- and 5-bit vectors which can hold values that name no command and no register,
  so both stay bit vectors here and the package's enumerations are named constants.
-/
import Mathlib.Tactic

set_option linter.unusedVariables false

namespace RiscDbgUart

/-! ## Commands and addresses -/

/-- `logic [CMDLENGTH-1:0]` -/
abbrev Cmd := BitVec 3
/-- `logic [IRLENGTH-1:0]` -/
abbrev Addr := BitVec 5
abbrev Byte := BitVec 8

/-- `uart_pkg::ESC`, the escape byte `UART_DTM_TOP` hands to both escape modules. -/
def ESC : Byte := 0xA0

abbrev CMD_NOP : Cmd := 0b000
abbrev CMD_READ : Cmd := 0b001
abbrev CMD_CONT_READ : Cmd := 0b010
abbrev CMD_WRITE : Cmd := 0b011
abbrev CMD_RESET : Cmd := 0b111

abbrev ADDR_NOP : Addr := 0b00000
abbrev ADDR_IDCODE : Addr := 0b00001
abbrev ADDR_DTMCS : Addr := 0b10000
abbrev ADDR_DMI : Addr := 0b10001
abbrev ADDR_STB0_CS : Addr := 0b10100
abbrev ADDR_STB0_D : Addr := 0b10101
abbrev ADDR_STB1_CS : Addr := 0b10110
abbrev ADDR_STB1_D : Addr := 0b10111

/-- `DATA_REC_I[7:IRLENGTH]` -/
def cmdOf (b : Byte) : Cmd := b.extractLsb' 5 3
/-- `DATA_REC_I[IRLENGTH-1:0]` -/
def addrOf (b : Byte) : Addr := b.extractLsb' 0 5
/-- `{cmd, addr}`, the byte a host sends for a command. -/
def symbolOf (c : Cmd) (a : Addr) : Byte := c ++ a
/-- `{3'b000, addr}`, the byte the TAP announces a read address with. -/
def headerOf (a : Addr) : Byte := (0 : BitVec 3) ++ a

theorem cmdOf_symbolOf (c : Cmd) (a : Addr) : cmdOf (symbolOf c a) = c := by
  unfold cmdOf symbolOf
  exact BitVec.extractLsb'_append_eq_left

theorem addrOf_symbolOf (c : Cmd) (a : Addr) : addrOf (symbolOf c a) = a := by
  unfold addrOf symbolOf
  exact BitVec.extractLsb'_append_eq_right

/-! ## Register lengths -/

/-- `get_write_length`: how many bits a register has that is written. -/
def getWriteLength (addr : Addr) : Nat :=
  if addr = ADDR_IDCODE then 32
  else if addr = ADDR_DTMCS then 32
  else if addr = ADDR_DMI then 41
  else if addr = ADDR_STB0_CS then 8
  else if addr = ADDR_STB0_D then 32
  else if addr = ADDR_STB1_CS then 8
  else if addr = ADDR_STB1_D then 32
  else 8

/-- `get_read_length`: the same table for reading. -/
def getReadLength (addr : Addr) : Nat :=
  if addr = ADDR_IDCODE then 32
  else if addr = ADDR_DTMCS then 32
  else if addr = ADDR_DMI then 41
  else if addr = ADDR_STB0_CS then 8
  else if addr = ADDR_STB0_D then 32
  else if addr = ADDR_STB1_CS then 8
  else if addr = ADDR_STB1_D then 32
  else 8

/-- Every register is at least one byte long and fits the 41 bits of the TAP. -/
theorem getWriteLength_bounds (a : Addr) : 8 ≤ getWriteLength a ∧ getWriteLength a ≤ 41 := by
  unfold getWriteLength; split_ifs <;> omega

theorem getReadLength_bounds (a : Addr) : 8 ≤ getReadLength a ∧ getReadLength a ≤ 41 := by
  unfold getReadLength; split_ifs <;> omega

/-- `WIDTH = get_write_length(ADDR_DMI)`, the width of the TAP's data ports. -/
abbrev WIDTH : Nat := 41

example : WIDTH = getWriteLength ADDR_DMI := rfl

/-- `MAX_BITS = 8 * ((WIDTH + 7) / 8)`, the size of the serializer and the deserializer. -/
abbrev MAX_BITS : Nat := 48

example : MAX_BITS = 8 * ((WIDTH + 7) / 8) := rfl

/-- `$clog2` -/
def clog2 (n : Nat) : Nat := if n ≤ 1 then 0 else Nat.log2 (n - 1) + 1

/-- The bit and byte counters of the two serializers are six bits wide. -/
@[simp] theorem clog2_maxBits : clog2 MAX_BITS = 6 := by decide

/-- A register length fits the serializers' length ports. -/
@[simp] theorem getWriteLength_mod (a : Addr) : getWriteLength a % 2 ^ 6 = getWriteLength a :=
  Nat.mod_eq_of_lt (by have := getWriteLength_bounds a; omega)

@[simp] theorem getReadLength_mod (a : Addr) : getReadLength a % 2 ^ 6 = getReadLength a :=
  Nat.mod_eq_of_lt (by have := getReadLength_bounds a; omega)

/-! ## Read-only registers -/

def IDCODEVALUE : BitVec 32 := 0x01

/-- `DTMCS_DEFAULT`: `idle = 1`, `abits = 7`, `version = 1`, every other field zero. -/
def DTMCS_DEFAULT : BitVec 32 :=
  (0 : BitVec 14) ++ (0 : BitVec 1) ++ (0 : BitVec 1) ++ (0 : BitVec 1) ++ (1 : BitVec 3)
    ++ (0 : BitVec 2) ++ (7 : BitVec 6) ++ (1 : BitVec 4)

example : DTMCS_DEFAULT = 0x1071 := by decide

/-! ## Slices -/

/-- The byte `j ↦ (count + j < length) ? data[count + j] : 0` of a serialized word. -/
def serialByte {n : Nat} (data : BitVec n) (length count : Nat) : Byte :=
  ((data.setWidth length) >>> count).setWidth 8

/-- `data[count +: 8] = b`; bits beyond the vector are dropped. -/
def setByte {n : Nat} (data : BitVec n) (count : Nat) (b : Byte) : BitVec n :=
  (data &&& ~~~(((255 : Byte).setWidth n) <<< count)) ||| (b.setWidth n <<< count)

/-- The bytes of a word depend on its low bits only, also when it is extended with zeros. -/
theorem serialByte_congr {length : Nat} {w v : BitVec WIDTH} (hlen : length ≤ MAX_BITS)
    (h : w.setWidth length = v.setWidth length) (count : Nat) :
    serialByte (w.setWidth MAX_BITS) length count = serialByte v length count := by
  unfold serialByte
  rw [BitVec.setWidth_setWidth_of_le _ hlen, h]

theorem serialByte_bit {n : Nat} (data : BitVec n) (length count j : Nat) (hj : j < 8) :
    (serialByte data length count).getLsbD j
      = (decide (count + j < length) && data.getLsbD (count + j)) := by
  simp [serialByte, hj]

theorem setByte_bit {n : Nat} (data : BitVec n) (count : Nat) (b : Byte) (j : Nat) (hj : j < n) :
    (setByte data count b).getLsbD j
      = if count ≤ j ∧ j < count + 8 then b.getLsbD (j - count) else data.getLsbD j := by
  have hones : ∀ k, (255#8).getLsbD k = decide (k < 8) := by
    intro k
    rcases Nat.lt_or_ge k 8 with hk | hk
    · interval_cases k <;> rfl
    · rw [BitVec.getLsbD_of_ge _ _ hk]; simp [hk]
  simp only [setByte, BitVec.getLsbD_or, BitVec.getLsbD_and, BitVec.getLsbD_not,
    BitVec.getLsbD_shiftLeft, BitVec.getLsbD_setWidth, hj, decide_true, Bool.true_and]
  rcases Nat.lt_or_ge j count with h | h
  · simp [h, Nat.not_le.mpr h]
  · have hlt : j - count < n := by omega
    rcases Nat.lt_or_ge j (count + 8) with h8 | h8
    · have hk : j - count < 8 := by omega
      simp [Nat.not_lt.mpr h, h, h8, hlt, hones, hk]
    · have hk : ¬ j - count < 8 := by omega
      have hb : b.getLsbD (j - count) = false := BitVec.getLsbD_of_ge _ _ (by omega)
      simp [Nat.not_lt.mpr h, Nat.not_lt.mpr h8, hones, hk, hb]

end RiscDbgUart
