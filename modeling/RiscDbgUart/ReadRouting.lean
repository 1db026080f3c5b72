/-
  The read interconnect as a router.

  What it is for: an access names a device, that device and no other sees a ready, and the TAP sees
  the valid and the data of that device, zero-extended to the width of the word; an address without
  a device shows a constant.  `Routed` says so of one cycle, with `deviceOf`, `channelValid` and
  `channelData` as the routing table.

  The mux departs from the table in two places.  The branch of `ADDR_STB1_D` raises the ready of
  STB0, and a branch whose source is narrower than the word leaves the upper bits of `read_data` at
  what an earlier access left there.  `access_source` says so of every bit; from it the cycles that
  are routed are exactly those of `Fresh`, and so are the runs.
-/
import RiscDbgUart.Clocked.Machine
import RiscDbgUart.ReadInterconnect

set_option linter.unusedVariables false

namespace RiscDbgUart.ReadRouting

open Clocked ReadInterconnect

/-! ## The routing table -/

/-- The five channels a read can go to: the bridge, and two for each `STB` target. -/
inductive Device where
  | dmi
  | stb0Status
  | stb0Data
  | stb1Status
  | stb1Data
deriving DecidableEq, Repr

/-- The channel behind an address; IDCODE, DTMCS and the unassigned addresses have none.  This is the table
    of the interconnect, read off the package and not off the mux. -/
def deviceOf (a : Addr) : Option Device :=
  if a = ADDR_DMI then some .dmi
  else if a = ADDR_STB0_CS then some .stb0Status
  else if a = ADDR_STB0_D then some .stb0Data
  else if a = ADDR_STB1_CS then some .stb1Status
  else if a = ADDR_STB1_D then some .stb1Data
  else none

/-- The ready of one channel, or of none.  There is never one for two of them. -/
def onlyReady : Option Device → Ready
  | some .dmi => { dmiReadReadyO := true }
  | some .stb0Status => { stb0StatusReadyO := true }
  | some .stb0Data => { stb0DataReadyO := true }
  | some .stb1Status => { stb1StatusReadyO := true }
  | some .stb1Data => { stb1DataReadyO := true }
  | none => {}

def channelValid (d : Devices) : Device → Bool
  | .dmi => d.dmiReadValidI
  | .stb0Status => d.stb0StatusValidI
  | .stb0Data => d.stb0DataValidI
  | .stb1Status => d.stb1StatusValidI
  | .stb1Data => d.stb1DataValidI

/-- The data of a channel, zero-extended to the width of the word. -/
def channelData (d : Devices) : Device → BitVec WIDTH
  | .dmi => d.dmiReadDataI
  | .stb0Status => d.stb0StatusI.setWidth WIDTH
  | .stb0Data => d.stb0DataI.setWidth WIDTH
  | .stb1Status => d.stb1StatusI.setWidth WIDTH
  | .stb1Data => d.stb1DataI.setWidth WIDTH

/-- What an address without a device shows: one of the two constants, or zero. -/
def constantAt (a : Addr) : BitVec WIDTH :=
  if a = ADDR_IDCODE then IDCODEVALUE.setWidth WIDTH
  else if a = ADDR_DTMCS then DTMCS_DEFAULT.setWidth WIDTH
  else 0

/-- Valid and data of an access, as the table has them.  A constant is always valid. -/
def shownAt (a : Addr) (d : Devices) : Bool × BitVec WIDTH :=
  match deviceOf a with
  | some dev => (channelValid d dev, channelData d dev)
  | none => (true, constantAt a)

/-! ## The interconnect, cycle by cycle -/

structure Input where
  rstNI : Bool
  readAddressI : Addr
  readReadyI : Bool
  devices : Devices

/-- One cycle, with `RST_NI` as an input. -/
def step (s : State) (i : Input) : State :=
  if i.rstNI then next s i.readAddressI i.readReadyI i.devices else reset i.devices

/-- In this cycle the access is routed: the ready outputs are those of the addressed device alone,
    valid and data are what the table shows.  In a cycle without an access there is nothing to route. -/
def Routed (s : State) (i : Input) : Prop :=
  i.rstNI = true → i.readReadyI = true →
    ready i.readAddressI i.readReadyI = onlyReady (deviceOf i.readAddressI) ∧
    settle s i.readAddressI i.readReadyI i.devices = shownAt i.readAddressI i.devices

/-- How many low bits of `read_data` the branch of an address assigns.  The rest is not assigned and keeps
    what it held. -/
def assigned (a : Addr) : Nat :=
  if a = ADDR_DMI then WIDTH
  else if a = ADDR_STB0_CS then 8
  else if a = ADDR_STB0_D then 32
  else if a = ADDR_STB1_CS then 8
  else if a = ADDR_STB1_D then 32
  else if a = ADDR_IDCODE then 32
  else if a = ADDR_DTMCS then 32
  else WIDTH

/-- The access is not to STB1's data register, and the bits its branch leaves alone hold zero. -/
def Fresh (s : State) (i : Input) : Prop :=
  i.rstNI = true → i.readReadyI = true →
    i.readAddressI ≠ ADDR_STB1_D ∧ s.readData >>> assigned i.readAddressI = 0

instance (s : State) (i : Input) : Decidable (Routed s i) := by unfold Routed; infer_instance

instance (s : State) (i : Input) : Decidable (Fresh s i) := by unfold Fresh; infer_instance

/-! ## The ready side -/

/-- Of all addresses only `ADDR_STB1_D` raises another channel's ready. -/
theorem ready_iff (a : Addr) : ready a true = onlyReady (deviceOf a) ↔ a ≠ ADDR_STB1_D := by
  revert a
  decide

/-! ## The data side -/

/-- A word whose low bits are replaced, bit by bit: above them it is the old one. -/
theorem keepHigh_bit {w n : Nat} (m : Nat) (old : BitVec w) (x : BitVec n) (k : Nat)
    (hw : w = m + n) :
    (old.extractLsb' n m ++ x).getLsbD k = if k < n then x.getLsbD k else old.getLsbD k := by
  rw [BitVec.getLsbD_append]
  split_ifs with h
  · rfl
  · rw [BitVec.getLsbD_extractLsb', Nat.add_sub_cancel' (by omega : n ≤ k)]
    by_cases hk : k < w
    · rw [decide_eq_true (by omega : k - n < m), Bool.true_and]
    · rw [BitVec.getLsbD_of_ge old k (by omega), Bool.and_false]

/-- No bit of a word lies above its width. -/
theorem width_bit {w : Nat} (x old : BitVec w) (k : Nat) :
    x.getLsbD k = if k < w then x.getLsbD k else old.getLsbD k := by
  split_ifs with h
  · rfl
  · rw [BitVec.getLsbD_of_ge x k (Nat.le_of_not_lt h),
      BitVec.getLsbD_of_ge old k (Nat.le_of_not_lt h)]

theorem setLow8_bit (old : BitVec WIDTH) (x : BitVec 8) (k : Nat) :
    (setLow8 old x).getLsbD k = if k < 8 then x.getLsbD k else old.getLsbD k :=
  keepHigh_bit 33 old x k rfl

theorem setLow32_bit (old : BitVec WIDTH) (x : BitVec 32) (k : Nat) :
    (setLow32 old x).getLsbD k = if k < 32 then x.getLsbD k else old.getLsbD k :=
  keepHigh_bit 9 old x k rfl

/-- **What an access does.**  Its source `x` has the width its branch assigns; the table shows `x`
    extended with zeros, the mux shows `x` below what `read_data` held before. -/
theorem access_source (s : State) (a : Addr) (d : Devices) :
    (settle s a true d).1 = (shownAt a d).1 ∧
    ∃ n, ∃ x : BitVec n, assigned a = n ∧ n ≤ WIDTH ∧ (shownAt a d).2 = x.setWidth WIDTH ∧
      ∀ k, (settle s a true d).2.getLsbD k
        = if k < n then x.getLsbD k else s.readData.getLsbD k := by
  by_cases h1 : a = ADDR_DMI
  · simp only [settle, shownAt, deviceOf, assigned, if_true, if_pos h1]
    exact ⟨rfl, 41, d.dmiReadDataI, rfl, le_refl _, (BitVec.setWidth_eq _).symm, width_bit _ _⟩
  by_cases h2 : a = ADDR_STB0_CS
  · simp only [settle, shownAt, deviceOf, assigned, if_true, if_neg h1, if_pos h2]
    exact ⟨rfl, 8, d.stb0StatusI, rfl, by decide, rfl, setLow8_bit _ _⟩
  by_cases h3 : a = ADDR_STB0_D
  · simp only [settle, shownAt, deviceOf, assigned, if_true, if_neg h1, if_neg h2, if_pos h3]
    exact ⟨rfl, 32, d.stb0DataI, rfl, by decide, rfl, setLow32_bit _ _⟩
  by_cases h4 : a = ADDR_STB1_CS
  · simp only [settle, shownAt, deviceOf, assigned, if_true, if_neg h1, if_neg h2, if_neg h3,
      if_pos h4]
    exact ⟨rfl, 8, d.stb1StatusI, rfl, by decide, rfl, setLow8_bit _ _⟩
  by_cases h5 : a = ADDR_STB1_D
  · simp only [settle, shownAt, deviceOf, assigned, if_true, if_neg h1, if_neg h2, if_neg h3,
      if_neg h4, if_pos h5]
    exact ⟨rfl, 32, d.stb1DataI, rfl, by decide, rfl, setLow32_bit _ _⟩
  -- the addresses without a device show a constant
  simp only [settle, shownAt, deviceOf, assigned, constantAt, if_true, if_neg h1, if_neg h2,
    if_neg h3, if_neg h4, if_neg h5]
  by_cases h6 : a = ADDR_IDCODE
  · simp only [if_pos h6]
    exact ⟨trivial, 32, IDCODEVALUE, rfl, by decide, rfl, setLow32_bit _ _⟩
  by_cases h7 : a = ADDR_DTMCS
  · simp only [if_neg h6, if_pos h7]
    exact ⟨trivial, 32, DTMCS_DEFAULT, rfl, by decide, rfl, setLow32_bit _ _⟩
  · simp only [if_neg h6, if_neg h7]
    exact ⟨trivial, WIDTH, 0, rfl, le_refl _, rfl, width_bit _ _⟩

/-- **The data of an access** is the table's exactly when `read_data` is zero above the bits the
    branch assigns. -/
theorem settle_data_iff (s : State) (a : Addr) (d : Devices) :
    (settle s a true d).2 = (shownAt a d).2 ↔ s.readData >>> assigned a = 0 := by
  obtain ⟨-, n, x, rfl, hwidth, hshown, hbit⟩ := access_source s a d
  constructor
  · -- the branch assigns the low bits; what is above them stays from before
    intro h
    apply BitVec.eq_of_getLsbD_eq
    intro k hk
    have hb := hbit (assigned a + k)
    rw [h, hshown, if_neg (by omega), BitVec.getLsbD_setWidth,
      BitVec.getLsbD_of_ge x _ (by omega), Bool.and_false] at hb
    rw [BitVec.getLsbD_ushiftRight, ← hb]
    exact BitVec.getLsbD_zero.symm
  · intro h
    apply BitVec.eq_of_getLsbD_eq
    intro k hk
    rw [hbit, hshown, BitVec.getLsbD_setWidth, decide_eq_true hk, Bool.true_and]
    split_ifs with hlow
    · rfl
    · have hb : (s.readData >>> assigned a).getLsbD (k - assigned a) = false := by
        rw [h]
        exact BitVec.getLsbD_zero
      rw [BitVec.getLsbD_ushiftRight, Nat.add_sub_cancel' (by omega)] at hb
      rw [hb, BitVec.getLsbD_of_ge x k (by omega)]

/-! ## The routed runs -/

/-- **One cycle.**  The ready side goes wrong at one address, the data side through what was left in the
    upper bits; there is no third way. -/
theorem routed_iff_fresh (s : State) (i : Input) : Routed s i ↔ Fresh s i := by
  unfold Routed Fresh
  apply imp_congr Iff.rfl
  apply imp_congr_right
  intro hr
  rw [hr]
  apply and_congr (ready_iff i.readAddressI)
  rw [← settle_data_iff s i.readAddressI i.devices, Prod.ext_iff]
  exact and_iff_right (access_source s i.readAddressI i.devices).1

/-- **The read interconnect routes exactly the runs whose accesses are fresh**, from any state its
    variables may be in.  The condition speaks of the variable before each access, and so of the accesses
    before it. -/
theorem routes_iff_fresh (s : State) (is : List Input) :
    Always step Routed s is ↔ Always step Fresh s is := by
  apply always_congr (fun _ => True)
  · intro s i _
    trivial
  · intro s i _
    exact routed_iff_fresh s i
  · trivial

/-- A read of `a` with the devices showing `d`. -/
def readOf (a : Addr) (d : Devices) : Input :=
  { rstNI := true, readAddressI := a, readReadyI := true, devices := d }

/-- After reset a read of `ADDR_STB1_D` raises STB0's ready, and a read of IDCODE after a DMI read of
    all ones shows the upper nine ones again. -/
theorem not_routed_stb1_and_stale :
    ¬ Always step Routed (reset {}) [readOf ADDR_STB1_D {}] ∧
    ¬ Always step Routed (reset {})
      [readOf ADDR_DMI { dmiReadDataI := 0x1FFFFFFFFFF }, readOf ADDR_IDCODE {}] := by
  decide

end RiscDbgUart.ReadRouting
