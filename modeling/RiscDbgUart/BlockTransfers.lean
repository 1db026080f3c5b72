/-
  Blocks of memory over the system bus.

  With `sbautoincrement` every transfer leaves the address of the next word behind, so a block is
  written by one access of the data register a word, and with `sbreadondata` it is read so too: every
  read of the data register takes the word that is there and fetches the next one.  The last read
  fetches a word behind the block, which a memory does not mind.

  All of this is about `View`, on which an access is a transfer; the clock comes in
  at the end.  On a 64-bit bus a word takes two accesses, the upper half
  first, since the lower half starts the transfer.

  Writing comes first: `run_putWord` is one word, `run_putWords` a block, by induction on its length.
  Reading is a pipeline, so its invariant is `Fetched`: the word that the data register holds and the
  address that is one word further.  `block_run` is the round trip on the object, and `block_read_back` the
  same over the clock, by `view_run` of `BusDevice`.
-/
import RiscDbgUart.BusDevice
import RiscDbgUart.Clocked.Lanes

set_option linter.unusedVariables false

namespace RiscDbgUart.SystemBus

open Clocked

variable {n w : Nat} {σ : Type}

/-! ## Memories -/

/-- The place of the word that the bus address points at. -/
def place (a : BitVec w) : Nat := a.toNat / (w / 8)

/-- The device is a memory with these contents: a write of all bytes stores the word, a read answers
    with it.  What a write is answered with is the device's business. -/
structure Stores (d : Device σ w) (contents : σ → Nat → BitVec w) : Prop where
  stored : ∀ dev a x, contents (d dev ⟨a, true, BitVec.allOnes (w / 8), x⟩).1
    = Function.update (contents dev) (place a) x
  kept : ∀ dev a be x, contents (d dev ⟨a, false, be, x⟩).1 = contents dev
  fetched : ∀ dev a be x, (d dev ⟨a, false, be, x⟩).2 = contents dev (place a)

/-- The bus address of word `k` behind `a`. -/
def wordAddress (a : BitVec w) (k : Nat) : BitVec w := a + BitVec.ofNat w (k * (w / 8))

theorem wordAddress_zero (a : BitVec w) : wordAddress a 0 = a := by
  rw [wordAddress, Nat.zero_mul]
  exact BitVec.add_zero a

theorem wordAddress_succ (a : BitVec w) (k : Nat) :
    wordAddress a k + BitVec.ofNat w (w / 8) = wordAddress a (k + 1) := by
  unfold wordAddress
  rw [BitVec.add_assoc, ← BitVec.ofNat_add, Nat.succ_mul]

/-- The words of a block that is no larger than the bus can address have places of their own. -/
theorem place_ne (hw : w = 32 ∨ w = 64) (a : BitVec w) {j k : Nat} (hjk : j < k)
    (hk : k * (w / 8) < 2 ^ w) : place (wordAddress a j) ≠ place (wordAddress a k) := by
  -- the word size divides the address space
  obtain ⟨c, q, hc, hpos, hq⟩ : ∃ c q, w / 8 = c ∧ 0 < c ∧ 2 ^ w = c * q := by
    rcases hw with rfl | rfl
    · exact ⟨4, 2 ^ 30, rfl, by decide, by norm_num⟩
    · exact ⟨8, 2 ^ 61, rfl, by decide, by norm_num⟩
  unfold place wordAddress
  rw [hc] at hk ⊢
  rw [BitVec.toNat_add, BitVec.toNat_add, BitVec.toNat_ofNat, BitVec.toNat_ofNat, Nat.add_mod_mod,
    Nat.add_mod_mod, hq, Nat.mod_mul_right_div_self, Nat.mod_mul_right_div_self,
    Nat.add_mul_div_right _ _ hpos, Nat.add_mul_div_right _ _ hpos]
  rw [hq, Nat.mul_comm c q] at hk
  have hkq : k < q := Nat.lt_of_mul_lt_mul_right hk
  intro heq
  have hmod : j % q = k % q := Nat.ModEq.add_left_cancel' _ heq
  rw [Nat.mod_eq_of_lt (by omega), Nat.mod_eq_of_lt hkq] at hmod
  omega

/-! ## The debugger's accesses -/

/-- `sbautoincrement` -/
def writeSetup : BitVec 32 := 0x00010000

/-- `sbreadonaddr`, `sbautoincrement` and `sbreadondata` -/
def readSetup : BitVec 32 := 0x00118000

/-- The address goes in upper half first. -/
def setAddress (a : BitVec w) : List Access :=
  [.write .sbAddress1 (getWord (a.setWidth 64) 1), .write .sbAddress0 (getWord (a.setWidth 64) 0)]

/-- A word goes out. -/
def putWord (x : BitVec w) : List Access :=
  (if w = 64 then [.write .sbData1 (getWord (x.setWidth 64) 1)] else [])
    ++ [.write .sbData0 (getWord (x.setWidth 64) 0)]

/-- A word is taken. -/
def takeWord (w : Nat) : List Access :=
  (if w = 64 then [.read .sbData1] else []) ++ [.read .sbData0]

/-- What the debugger reads when it takes the word. -/
def wordReadings (x : BitVec w) : List (BitVec 32) :=
  (if w = 64 then [getWord (x.setWidth 64) 1] else []) ++ [getWord (x.setWidth 64) 0]

def writeBlock (a : BitVec w) (xs : List (BitVec w)) : List Access :=
  .write .sbcs writeSetup :: (setAddress a ++ xs.flatMap putWord)

def readBlock (a : BitVec w) (k : Nat) : List Access :=
  .write .sbcs readSetup :: (setAddress a ++ (List.range k).flatMap fun _ => takeWord w)

namespace View

variable {d : Device σ w} {contents : σ → Nat → BitVec w} {b : Bool} {v : View σ w}

/-! ## Words in two halves -/

/-- A register of which the lower half has just been written, the upper half being there already if the
    bus is wide enough for it. -/
theorem word_of_halves (hw : w = 32 ∨ w = 64) (r : BitVec 64) (x : BitVec w)
    (hupper : w = 64 → getWord r 1 = getWord (x.setWidth 64) 1) :
    (setWord r 0 (getWord (x.setWidth 64) 0)).setWidth w = x := by
  have hbit (v : BitVec 64) (j : Nat) (k : Nat) (hk : k < 32) :
      (getWord v j).getLsbD k = v.getLsbD (32 * j + k) := by
    rw [getWord, BitVec.getLsbD_extractLsb', decide_eq_true hk, Bool.true_and]
  have hwide (k : Nat) (hk : k < 64) : (x.setWidth 64).getLsbD k = x.getLsbD k := by
    rw [BitVec.getLsbD_setWidth, decide_eq_true hk, Bool.true_and]
  apply BitVec.eq_of_getLsbD_eq
  intro k hk
  have h64 : k < 64 := by omega
  rw [BitVec.getLsbD_setWidth, setWord_bit _ _ _ _ h64, decide_eq_true hk, Bool.true_and]
  split_ifs with hlow
  · have hsum : 32 * 0 + (k - 32 * 0) = k := by omega
    rw [hbit _ _ _ (by omega), hsum, hwide k h64]
  · have hsum : 32 * 1 + (k - 32) = k := by omega
    have hhigh := hbit r 1 (k - 32) (by omega)
    rw [hupper (by omega), hbit _ _ _ (by omega), hsum, hwide k h64] at hhigh
    exact hhigh.symm

theorem address_of_halves (hw : w = 32 ∨ w = 64) (r a : BitVec w) :
    (setWord (((setWord (r.setWidth 64) 1 (getWord (a.setWidth 64) 1)).setWidth w).setWidth 64) 0
      (getWord (a.setWidth 64) 0)).setWidth w = a := by
  refine word_of_halves hw _ a fun h => ?_
  subst h
  rw [BitVec.setWidth_eq, BitVec.setWidth_eq, getWord_setWord _ _ _ (by omega), if_pos rfl]

/-! ## Writing a block -/

theorem run_setAddress (hw : w = 32 ∨ w = 64) (h : v.sbreadonaddr = false) (a : BitVec w) :
    run (access d b) v (setAddress a) = { v with sbaddress := a } := by
  rw [setAddress, run_cons, run_cons, run_nil]
  unfold access started
  simp only [written, h, Bool.false_eq_true, if_false, address_of_halves hw]

/-- A word is stored at the address, which moves on by one word.  On a wide bus its upper half is written
    first, and the lower half starts the transfer. -/
theorem run_putWord (hw : w = 32 ∨ w = 64) (hmem : Stores d contents)
    (hauto : v.sbautoincrement = true) (x : BitVec w) :
    ∃ y dev, run (access d b) v (putWord x)
        = { v with
            sbdata := y
            sbaddress := v.sbaddress + BitVec.ofNat w (w / 8)
            dev := dev } ∧
      contents dev = Function.update (contents v.dev) (place v.sbaddress) x := by
  -- the register before the access that starts the transfer
  obtain ⟨r, hbefore, hupper⟩ : ∃ r,
      run (access d b) v (if w = 64 then [.write .sbData1 (getWord (x.setWidth 64) 1)] else [])
        = { v with sbdata := r } ∧ (w = 64 → getWord r 1 = getWord (x.setWidth 64) 1) := by
    split_ifs with h64
    · exact ⟨_, rfl, fun _ => by rw [getWord_setWord _ _ _ (by omega), if_pos rfl]⟩
    · exact ⟨v.sbdata, rfl, fun h => absurd h h64⟩
  let p : Port w := ⟨v.sbaddress, true, BitVec.allOnes (w / 8), x⟩
  refine ⟨(d v.dev p).2.setWidth 64, (d v.dev p).1, ?_, hmem.stored v.dev v.sbaddress x⟩
  rw [putWord, run_append, hbefore, run_cons, run_nil]
  unfold access
  show View.transfer d b true { v with sbdata := setWord r 0 (getWord (x.setWidth 64) 0) } = _
  unfold transfer port receive
  simp only [hauto, if_true, Bool.true_or, word_of_halves hw r x hupper, p]

/-- **A block is stored**, from word `k` on, by induction on the words. -/
theorem run_putWords (hw : w = 32 ∨ w = 64) (hmem : Stores d contents) (a : BitVec w)
    (xs : List (BitVec w)) (k : Nat) (hauto : v.sbautoincrement = true)
    (haddr : v.sbaddress = wordAddress a k) :
    ∃ y dev, run (access d b) v (xs.flatMap putWord)
        = { v with sbdata := y, sbaddress := wordAddress a (k + xs.length), dev := dev } ∧
      contents dev = storeBlock (contents v.dev) (fun j => place (wordAddress a j)) k xs := by
  induction xs generalizing v k with
  | nil => exact ⟨v.sbdata, v.dev, by rw [List.length_nil, Nat.add_zero, ← haddr]; rfl, rfl⟩
  | cons x xs ih =>
    obtain ⟨y, dev, hrun, hdev⟩ := run_putWord (b := b) hw hmem hauto x
    obtain ⟨y', dev', hrest, hdev'⟩ := ih (v := run (access d b) v (putWord x)) (k + 1)
      (by rw [hrun]; exact hauto) (by rw [hrun, ← wordAddress_succ, ← haddr])
    refine ⟨y', dev', ?_, ?_⟩
    · rw [List.flatMap_cons, run_append, hrest, hrun, List.length_cons]
      simp only [Nat.add_comm xs.length 1, Nat.add_assoc]
    · rw [hdev', hrun]
      show storeBlock (contents dev) _ _ _ = _
      rw [hdev, haddr]
      rfl

/-! ## Reading a block -/

/-- Word `k` is in the data register and the address is that of the next one. -/
structure Fetched (contents : σ → Nat → BitVec w) (a : BitVec w) (k : Nat) (v : View σ w) : Prop where
  auto : v.sbautoincrement = true
  ondata : v.sbreadondata = true
  address : v.sbaddress = wordAddress a (k + 1)
  word : v.sbdata = (contents v.dev (place (wordAddress a k))).setWidth 64

/-- A read at word `k` fetches it: its value is in the data register, and the address is that of the next
    one. -/
theorem fetched_transfer (hmem : Stores d contents) {a : BitVec w} {k : Nat}
    (hauto : v.sbautoincrement = true) (hdata : v.sbreadondata = true)
    (haddr : v.sbaddress = wordAddress a k) :
    Fetched contents a k (v.transfer d b false) ∧
      contents (v.transfer d b false).dev = contents v.dev := by
  have hkept : contents (v.transfer d b false).dev = contents v.dev := hmem.kept _ _ _ _
  refine ⟨⟨hauto, hdata, ?_, ?_⟩, hkept⟩
  · show v.sbaddress + (if v.sbautoincrement then _ else _) = _
    rw [hauto, if_pos rfl, haddr, wordAddress_succ]
  · rw [hkept, ← haddr]
    exact congrArg (BitVec.setWidth 64) (hmem.fetched v.dev v.sbaddress _ _)

/-- The address is set and its word fetched, which is what `sbreadonaddr` is for.  No word has been read by
    the debugger yet. -/
theorem fetched_setAddress (hw : w = 32 ∨ w = 64) (hmem : Stores d contents)
    (hauto : v.sbautoincrement = true) (hdata : v.sbreadondata = true) (hon : v.sbreadonaddr = true)
    (a : BitVec w) :
    Fetched contents a 0 (run (access d b) v (setAddress a)) ∧
      contents (run (access d b) v (setAddress a)).dev = contents v.dev ∧
      emitted (access d b) answer v (setAddress a) = [] := by
  have hrun : run (access d b) v (setAddress a) = View.transfer d b false { v with sbaddress := a } := by
    rw [setAddress, run_cons, run_cons, run_nil]
    unfold access started
    simp only [written, hon, if_true, address_of_halves hw]
  rw [hrun]
  obtain ⟨hfetched, hkept⟩ := fetched_transfer (b := b) (v := { v with sbaddress := a }) hmem hauto
    hdata (wordAddress_zero a).symm
  exact ⟨hfetched, hkept, rfl⟩

/-- A word is taken and the next one fetched, by reading the data register under `sbreadondata`. -/
theorem fetched_takeWord (hmem : Stores d contents) {a : BitVec w} {k : Nat}
    (h : Fetched contents a k v) :
    emitted (access d b) answer v (takeWord w)
        = wordReadings (contents v.dev (place (wordAddress a k))) ∧
      Fetched contents a (k + 1) (run (access d b) v (takeWord w)) ∧
      contents (run (access d b) v (takeWord w)).dev = contents v.dev := by
  have hread : access d b v (.read .sbData0) = v.transfer d b false := by
    unfold access started
    simp only [h.ondata, if_true, written]
  have hupper : run (access d b) v (if w = 64 then [.read .sbData1] else []) = v := by
    split_ifs <;> rfl
  have hrun : run (access d b) v (takeWord w) = v.transfer d b false := by
    rw [takeWord, run_append, hupper, run_cons, run_nil, hread]
  obtain ⟨hfetched, hkept⟩ := fetched_transfer (b := b) hmem h.auto h.ondata h.address
  refine ⟨?_, hrun ▸ hfetched, hrun ▸ hkept⟩
  rw [takeWord, emitted_append, hupper, wordReadings, ← h.word]
  split_ifs <;> rfl

/-- **A block is read**, from word `k` on.  One word more than the block is fetched, which a memory does
    not mind. -/
theorem fetched_takeWords (hmem : Stores d contents) {a : BitVec w} (m : Nat) {k : Nat}
    (h : Fetched contents a k v) :
    emitted (access d b) answer v ((List.range m).flatMap fun _ => takeWord w)
        = (List.range m).flatMap
            (fun j => wordReadings (contents v.dev (place (wordAddress a (k + j))))) ∧
      contents (run (access d b) v ((List.range m).flatMap fun _ => takeWord w)).dev
        = contents v.dev := by
  induction m generalizing k v with
  | zero => exact ⟨rfl, rfl⟩
  -- the first word is read, and the rest of the block begins one word further
  | succ m ih =>
    obtain ⟨hnow, hnext, hkept⟩ := fetched_takeWord (b := b) hmem h
    obtain ⟨hread, hkept'⟩ := ih hnext
    have hshift (f : Nat → List (BitVec 32)) :
        (List.range (m + 1)).flatMap f = f 0 ++ (List.range m).flatMap fun j => f (j + 1) := by
      rw [List.range_succ_eq_map, List.flatMap_cons, List.flatMap_map]
    have hcalls : ((List.range (m + 1)).flatMap fun _ => takeWord w)
        = takeWord w ++ (List.range m).flatMap fun _ => takeWord w := by
      rw [List.range_succ_eq_map, List.flatMap_cons, List.flatMap_map]
    rw [hcalls, emitted_append, run_append, hnow, hread, hkept', hkept, hshift]
    refine ⟨?_, rfl⟩
    simp only [Nat.add_zero, Nat.add_assoc, Nat.add_comm 1]

/-! ## A block there and back -/

/-- Writes get no words. -/
theorem emitted_writes (as : List Access) (h : ∀ a ∈ as, ∃ r x, a = .write r x) (v : View σ w) :
    emitted (access d b) answer v as = [] := by
  induction as generalizing v with
  | nil => rfl
  | cons a as ih =>
    obtain ⟨r, x, rfl⟩ := h a List.mem_cons_self
    rw [emitted_cons, answer_write, ih fun a ha => h a (List.mem_cons_of_mem _ ha)]
    rfl

theorem writes_writeBlock (a : BitVec w) (xs : List (BitVec w)) :
    ∀ c ∈ writeBlock a xs, ∃ r x, c = Access.write r x := by
  intro c hc
  unfold writeBlock setAddress at hc
  rw [List.mem_cons, List.mem_append, List.mem_cons, List.mem_singleton, List.mem_flatMap] at hc
  rcases hc with rfl | (rfl | rfl) | ⟨x, -, hx⟩
  · exact ⟨_, _, rfl⟩
  · exact ⟨_, _, rfl⟩
  · exact ⟨_, _, rfl⟩
  · unfold putWord at hx
    rw [List.mem_append, List.mem_singleton] at hx
    rcases hx with hx | rfl
    · split_ifs at hx
      · exact ⟨_, _, List.mem_singleton.mp hx⟩
      · cases hx
    · exact ⟨_, _, rfl⟩

/-- **A block that was written is in the memory, and only it.**  The set-up accesses before it transfer
    nothing. -/
theorem run_writeBlock (hw : w = 32 ∨ w = 64) (hmem : Stores d contents) (a : BitVec w)
    (xs : List (BitVec w)) :
    contents (run (access d b) v (writeBlock a xs)).dev
      = storeBlock (contents v.dev) (fun k => place (wordAddress a k)) 0 xs := by
  let u := run (access d b) (v.written (.write .sbcs writeSetup)) (setAddress a)
  have hu : u = { v.written (.write .sbcs writeSetup) with sbaddress := a } := run_setAddress hw rfl a
  obtain ⟨y, dev, hrun, hdev⟩ := run_putWords (b := b) (v := u) hw hmem a xs 0 (by rw [hu]; rfl)
    (by rw [hu, wordAddress_zero])
  have hall : run (access d b) v (writeBlock a xs) = run (access d b) u (xs.flatMap putWord) := by
    rw [writeBlock, run_cons, run_append]
    rfl
  rw [hall, hrun]
  show contents dev = _
  rw [hdev, hu]
  rfl

/-- **A block is read as it is in the memory, which stays as it is.** -/
theorem emitted_readBlock (hw : w = 32 ∨ w = 64) (hmem : Stores d contents) (a : BitVec w) (m : Nat) :
    emitted (access d b) answer v (readBlock a m)
        = (List.range m).flatMap
            (fun k => wordReadings (contents v.dev (place (wordAddress a k)))) ∧
      contents (run (access d b) v (readBlock a m)).dev = contents v.dev := by
  obtain ⟨hfetched, hkept, hnone⟩ := fetched_setAddress (b := b)
    (v := v.written (.write .sbcs readSetup)) hw hmem rfl rfl rfl a
  obtain ⟨hread, hkept'⟩ := fetched_takeWords (b := b) hmem m hfetched
  have hstart : access d b v (.write .sbcs readSetup) = v.written (.write .sbcs readSetup) := rfl
  constructor
  · rw [readBlock, emitted_cons, hstart, emitted_append, hnone, hread, hkept]
    simp only [Nat.zero_add]
    rfl
  · rw [readBlock, run_cons, hstart, run_append, hkept', hkept]
    rfl

theorem emitted_block (hw : w = 32 ∨ w = 64) (hmem : Stores d contents) (a : BitVec w)
    (xs : List (BitVec w)) (hlen : xs.length * (w / 8) ≤ 2 ^ w) :
    emitted (access d b) answer v (writeBlock a xs ++ readBlock a xs.length)
        = xs.flatMap wordReadings ∧
      contents (run (access d b) v (writeBlock a xs ++ readBlock a xs.length)).dev
        = storeBlock (contents v.dev) (fun k => place (wordAddress a k)) 0 xs := by
  have hpos : 0 < w / 8 := by omega
  have hplaces : ∀ j k, j < k → k < xs.length →
      place (wordAddress a j) ≠ place (wordAddress a k) := fun j k hjk hk =>
    place_ne hw a hjk (lt_of_lt_of_le (Nat.mul_lt_mul_of_pos_right hk hpos) hlen)
  have hwritten := run_writeBlock (b := b) (v := v) hw hmem a xs
  obtain ⟨hread, hkept⟩ := emitted_readBlock (b := b)
    (v := run (access d b) v (writeBlock a xs)) hw hmem a xs.length
  constructor
  · rw [emitted_append, emitted_writes _ (writes_writeBlock a xs), hread, hwritten, List.nil_append,
      ← List.flatMap_map, map_storeBlock _ _ hplaces]
  · rw [run_append, hkept, hwritten]

/-- The accesses that need not wait may be left out, as they do nothing to the object. -/
theorem run_filter (as : List Access) (v : View σ w) :
    emitted (access d b) answer v (as.filter Access.waits) = emitted (access d b) answer v as ∧
      run (access d b) v (as.filter Access.waits) = run (access d b) v as := by
  induction as generalizing v with
  | nil => exact ⟨rfl, rfl⟩
  | cons a as ih =>
    obtain ⟨hemit, hrun⟩ := ih (access d b v a)
    cases ha : a.waits
    · obtain ⟨hsame, hnone⟩ := access_free ha d b v
      rw [hsame] at hemit hrun
      rw [List.filter_cons_of_neg (by rw [ha]; exact Bool.false_ne_true), emitted_cons, run_cons, hsame,
        hnone]
      exact ⟨hemit, hrun⟩
    · rw [List.filter_cons_of_pos ha, emitted_cons, run_cons, emitted_cons, run_cons, hemit, hrun]
      exact ⟨rfl, rfl⟩

end View

/-! ## The debug module in front of a memory -/

/-- From an idle host on, with nothing refused: what is read is what was written, and the memory
    holds it. -/
theorem block_run (hw : w = 32 ∨ w = 64) {p : BitVec n} {d : Device σ w}
    {contents : σ → Nat → BitVec w} (hmem : Stores d contents) {readByteEnable : Bool}
    {a : BitVec w} {xs : List (BitVec w)} (hlen : xs.length * (w / 8) ≤ 2 ^ w) {dev : σ}
    {s : State n} (hserving : Serving ((⟨dev, none⟩, s) : Served σ w × State n))
    (hidle : s.sba = .Idle) {is : List (Input n w)}
    (horderly : Always (watched (next p) (serve d readByteEnable)) Orderly (⟨dev, none⟩, s) is)
    (haccesses : (emitted (next p) accesses s is).filter Access.waits
      = writeBlock a xs ++ readBlock a xs.length) :
    emitted (next p) readings s is = xs.flatMap wordReadings ∧
    contents (view d readByteEnable
        (run (watched (next p) (serve d readByteEnable)) (⟨dev, none⟩, s) is)).dev
      = storeBlock (contents dev) (fun k => place (wordAddress a k)) 0 xs := by
  have hview : view d readByteEnable (⟨dev, none⟩, s) = held dev s := view_idle _ hidle
  have hreads := readings_run hw hserving is horderly
  have hrun := view_run hw hserving is horderly
  rw [hview] at hreads hrun
  rw [hreads, hrun, ← (View.run_filter _ _).1, ← (View.run_filter _ _).2, haccesses]
  exact View.emitted_block hw hmem a xs hlen

/-- **A block written over the system bus is read back.**  Behind the bus is a memory that is granted
    and answers whenever it likes, in front of it a debugger that waits for the host: it writes any words
    to consecutive addresses from any address on, not more of them than there are addresses, and reads
    as many back; in between it may do what does not touch the bus registers.  Then it reads the words
    it wrote, in order, and the memory holds them and elsewhere what it held before. -/
theorem block_read_back (hw : w = 32 ∨ w = 64) (p : BitVec n) (d : Device σ w)
    (contents : σ → Nat → BitVec w) (hmem : Stores d contents) (dev : σ) (readByteEnable : Bool)
    (a : BitVec w) (xs : List (BitVec w)) (hlen : xs.length * (w / 8) ≤ 2 ^ w)
    (pre is : List (Input n w))
    (hidle : (run (next p) reset pre).sba = .Idle)
    (hclear : (run (next p) reset pre).csrs.regs.sbcs.sbbusyerror = false)
    (horderly : Always (watched (next p) (serve d readByteEnable)) Orderly
      (⟨dev, none⟩, run (next p) reset pre) is)
    (haccesses : (emitted (next p) accesses (run (next p) reset pre) is).filter Access.waits
      = writeBlock a xs ++ readBlock a xs.length) :
    emitted (next p) readings (run (next p) reset pre) is = xs.flatMap wordReadings ∧
    contents (view d readByteEnable
        (run (watched (next p) (serve d readByteEnable)) (⟨dev, none⟩, run (next p) reset pre) is)).dev
      = storeBlock (contents dev) (fun k => place (wordAddress a k)) 0 xs :=
  block_run hw hmem hlen (serving_start p dev pre hidle hclear) hidle horderly haccesses

/-- A memory that answers a write with the word that it replaces. -/
def memory : Device (Nat → BitVec 32) 32 := fun m r =>
  (if r.we then Function.update m (place r.add) r.wdata else m, m (place r.add))

theorem memory_stores : Stores memory id := ⟨fun _ _ _ => rfl, fun _ _ _ _ => rfl, fun _ _ _ _ => rfl⟩

/-- Two words, with a memory that is not always ready. -/
def twoWords : List (Input 1 32) :=
  [dmiWrite 0x38 writeSetup, dmiWrite 0x3a 0, dmiWrite 0x39 0x100, dmiWrite 0x3c 5, {},
    { masterGntI := true }, {}, { masterRValidI := true }, dmiWrite 0x3c 6, { masterGntI := true },
    { masterRValidI := true }, dmiRead 0x38, dmiWrite 0x38 readSetup, dmiWrite 0x3a 0,
    dmiWrite 0x39 0x100, { masterGntI := true }, { masterRValidI := true, masterRRdataI := 5 },
    dmiRead 0x3c, { masterGntI := true }, {}, { masterRValidI := true, masterRRdataI := 6 },
    dmiRead 0x3c]

theorem block_read_back_twoWords :
    emitted (next 1) readings (run (next 1) reset [dmiWrite 0x10 1]) twoWords
        = [5#32, 6#32].flatMap wordReadings ∧
      id (view memory true
          (run (watched (next 1) (serve memory true))
            (⟨fun _ => 0, none⟩, run (next 1) reset [dmiWrite 0x10 1]) twoWords)).dev
        = storeBlock (id fun _ => 0) (fun k => place (wordAddress 0x100#32 k)) 0 [5#32, 6#32] :=
  block_read_back (Or.inl rfl) 1 memory id memory_stores (fun _ => 0) true 0x100#32 [5#32, 6#32]
    (by norm_num) [dmiWrite 0x10 1] twoWords (by decide) (by decide) (by decide +kernel)
    (by decide +kernel)

end RiscDbgUart.SystemBus
