/-
  Block transfers in the whole debug module.

  `BusDevice` and `BlockTransfers` are about the registers and the host of the system bus, with the
  harts' side left open.  `dm_top` has these two as a component, and the harts' side is one way to drive
  the pins that were left open.  So what a debugger writes to a memory over the bus is read back
  whatever the harts do meanwhile: they may park and resume, execute commands, store to the data
  registers and report exceptions.

  The device and its checker look at the component only, which makes the component with the device
  behind it a component of the whole with the device behind it (`watched_component`).
-/
import RiscDbgUart.BlockTransfers
import RiscDbgUart.DmTop

set_option linter.unusedVariables false

namespace RiscDbgUart.DmTop

open Clocked
open DmMem (Params Access)
open SystemBus (Device Served Stores writeBlock readBlock wordReadings wordAddress place)

variable {n w : Nat} {σ : Type}

/-! ## The device behind the whole -/

/-- What the device does in a cycle. -/
def serve (p : Params n) (d : Device σ w) (readByteEnable : Bool) (b : Served σ w) (s : State n)
    (i : Input n w) : Served σ w :=
  SystemBus.serve d readByteEnable b (busSide s) (busSideIn p s i)

/-- The debugger is patient and the bus delivers what the device answers. -/
def Orderly (p : Params n) (c : Served σ w × State n) (i : Input n w) : Prop :=
  SystemBus.Orderly (c.1, busSide c.2) (busSideIn p c.2 i)

instance (p : Params n) (c : Served σ w × State n) (i : Input n w) : Decidable (Orderly p c i) := by
  unfold Orderly; infer_instance

/-- The accesses of the cycle, and what the reads of the bus registers get. -/
def accesses (p : Params n) (s : State n) (i : Input n w) : List SystemBus.Access :=
  SystemBus.accesses (busSide s) (busSideIn p s i)

def readings (p : Params n) (s : State n) (i : Input n w) : List (BitVec 32) :=
  SystemBus.readings (busSide s) (busSideIn p s i)

theorem served_component (p : Params n) (d : Device σ w) (readByteEnable : Bool) :
    Component (watched (next p) (serve p d readByteEnable))
      (watched (SystemBus.next p.selectableHarts) (SystemBus.serve d readByteEnable))
      (fun c => (c.1, busSide c.2)) fun c i => busSideIn p c.2 i :=
  watched_component (busSide_component p) (SystemBus.serve d readByteEnable)

/-! ## Blocks -/

/-- **A block written over the system bus is read back, whatever the harts do.**  Behind `dm_top` is a
    memory that is granted and answers whenever it likes, in front of it a debugger that waits for the
    host: it writes any words to consecutive addresses from any address on, not more of them than there
    are addresses, and reads as many back; in between it may do what does not touch the bus registers,
    run commands on the harts for example.  Then it reads the words it wrote, in order, and the memory
    holds them and elsewhere what it held before. -/
theorem block_beside_harts (hw : w = 32 ∨ w = 64) (p : Params n) (romAddr : Nat) (d : Device σ w)
    (contents : σ → Nat → BitVec w) (hmem : Stores d contents) (dev : σ) (readByteEnable : Bool)
    (a : BitVec w) (xs : List (BitVec w)) (hlen : xs.length * (w / 8) ≤ 2 ^ w)
    (pre is : List (Input n w)) (hidle : (run (next p) (reset romAddr) pre).sba = .Idle)
    (hclear : (run (next p) (reset romAddr) pre).csrs.regs.sbcs.sbbusyerror = false)
    (horderly : Always (watched (next p) (serve p d readByteEnable)) (Orderly p)
      (⟨dev, none⟩, run (next p) (reset romAddr) pre) is)
    (haccesses : (emitted (next p) (accesses p) (run (next p) (reset romAddr) pre) is).filter
      SystemBus.Access.waits = writeBlock a xs ++ readBlock a xs.length) :
    emitted (next p) (readings p) (run (next p) (reset romAddr) pre) is = xs.flatMap wordReadings ∧
    contents (SystemBus.view d readByteEnable (Prod.map id busSide
        (run (watched (next p) (serve p d readByteEnable))
          (⟨dev, none⟩, run (next p) (reset romAddr) pre) is))).dev
      = storeBlock (contents dev) (fun k => place (wordAddress a k)) 0 xs := by
  have hpart := busSide_component (w := w) p
  have hserved := served_component p d readByteEnable
  -- the registers and the host, as they see the two parts of the run
  have hpre : busSide (run (next p) (reset romAddr) pre)
      = run (SystemBus.next p.selectableHarts) SystemBus.reset
          (seen (next p) (busSideIn p) (reset romAddr) pre) := run_component hpart pre _
  have hserving : SystemBus.Serving ((⟨dev, none⟩, busSide (run (next p) (reset romAddr) pre)) :
      Served σ w × SystemBus.State n) := by
    rw [hpre]
    refine SystemBus.serving_start _ dev _ ?_ ?_
    · rw [← hpre]
      exact hidle
    · rw [← hpre]
      exact hclear
  have hall := (always_component hserved SystemBus.Orderly is
    (⟨dev, none⟩, run (next p) (reset romAddr) pre)).mpr horderly
  have hend := run_component hserved is (⟨dev, none⟩, run (next p) (reset romAddr) pre)
  rw [seen_watched] at hall hend
  have hasked := emitted_component hpart SystemBus.accesses is (run (next p) (reset romAddr) pre)
  have hread := emitted_component hpart SystemBus.readings is (run (next p) (reset romAddr) pre)
  obtain ⟨hwords, hmemory⟩ := SystemBus.block_run hw hmem hlen hserving hidle hall
    ((congrArg (List.filter SystemBus.Access.waits) hasked).trans haccesses)
  refine ⟨hread.symm.trans hwords, ?_⟩
  rw [← hmemory, ← hend]
  rfl

/-- One hart, in the zero page. -/
abbrev oneHart : Params 1 := { selectableHarts := 1, dmBaseAddress := 0 }

/-- A DMI request, beside a store of the hart. -/
def asks (op : BitVec 2) (addr : BitVec 7) (data : BitVec 32) (hart : Harts 1 32 := {}) : Input 1 32 :=
  { dmi := { reqValidI := true, reqI := ⟨addr, op, data⟩ }, harts := hart }

/-- A store of the hart. -/
def stores (addr data : BitVec 32) : Harts 1 32 :=
  { busI := { reqI := true, weI := true, addrI := addr, wdataI := data, beI := 15 } }

/-- The bus grants, or delivers an answer. -/
def grants (hart : Harts 1 32 := {}) : Input 1 32 := { harts := hart, master := { gntI := true } }
def delivers (x : BitVec 32) : Input 1 32 := { master := { rValidI := true, rRdataI := x } }

/-- Two words go to the memory and come back.  Meanwhile the hart gets a command, starts it, stores to
    the data registers, reports an exception and parks again. -/
def wordsAndCommand : List (Input 1 32) :=
  [asks DTM_WRITE 0x38 SystemBus.writeSetup, asks DTM_WRITE 0x3a 0, asks DTM_WRITE 0x39 0x100,
    asks DTM_WRITE 0x3c 5, asks DTM_WRITE 0x17 0x00221000, grants, {}, delivers 0,
    asks DTM_WRITE 0x3c 6 (stores 0x104 0), grants (stores 0x380 0xABCD), delivers 0,
    asks DTM_READ 0x16 0 (stores 0x10C 0), asks DTM_WRITE 0x38 SystemBus.readSetup,
    asks DTM_WRITE 0x3a 0, asks DTM_WRITE 0x39 0x100 (stores 0x100 0), grants, delivers 5,
    asks DTM_READ 0x3c 0, grants, {}, delivers 6, asks DTM_READ 0x3c 0]

theorem block_beside_harts_twoWords :
    emitted (next oneHart) (readings oneHart)
        (run (next oneHart) (reset 0) [asks DTM_WRITE 0x10 1, asks DTM_READ 0x11 0 (stores 0x100 0)])
        wordsAndCommand
      = [5#32, 6#32].flatMap wordReadings ∧
      id (SystemBus.view SystemBus.memory true (Prod.map id busSide
          (run (watched (next oneHart) (serve oneHart SystemBus.memory true))
            (⟨fun _ => 0, none⟩, run (next oneHart) (reset 0)
              [asks DTM_WRITE 0x10 1, asks DTM_READ 0x11 0 (stores 0x100 0)]) wordsAndCommand))).dev
        = storeBlock (id fun _ => 0) (fun k => place (wordAddress 0x100#32 k)) 0 [5#32, 6#32] :=
  block_beside_harts (Or.inl rfl) oneHart 0 SystemBus.memory id SystemBus.memory_stores (fun _ => 0)
    true 0x100#32 [5#32, 6#32] (by norm_num)
    [asks DTM_WRITE 0x10 1, asks DTM_READ 0x11 0 (stores 0x100 0)] wordsAndCommand (by decide)
    (by decide) (by decide +kernel) (by decide +kernel)

end RiscDbgUart.DmTop
