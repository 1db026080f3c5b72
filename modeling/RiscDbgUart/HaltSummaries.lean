/-
  The halt summaries, for every number of harts up to 2^20.

  The harts are reduced in steps of 32: a bit of `halted_reshaped1` stands for 32 harts, a bit of
  `halted_reshaped2` for 1024, a bit of `haltsum3` for 32768.  `level_step` is the one argument behind
  all of them.  The first three summaries are read out of these vectors word by word, behind a guard
  that compares the word's number with the number of words; that number is cast to the width of the
  field, 15, 10 or 5 bits, and becomes zero where the vector has as many words as the field can name.
  The last summary counts its words by `NrHarts/2^15+1` where the others have `(NrHarts-1)/2^15+1`.

  `summaries_iff` says for which harts this matters.

  `AnyHalted haltedI k g` says that a hart of group `g` of `2^k` is halted, and `Level` that a vector holds
  one such bit for each group.  `level_step` takes a level to the next one, thirty-two groups to a bit.
  `guarded_iff` is the read behind a guard, `reductionLoop_inside` the loop that builds a level; the rest
  is to see for which numbers of harts the guard is right and the loop stays inside.
-/
import RiscDbgUart.DmRegs

set_option linter.unusedVariables false

namespace RiscDbgUart.DmRegs

/-! ## What the summaries are for -/

section Spec

variable {n : Nat} (haltedI : BitVec n) (hartselO : BitVec 20)

/-- A hart of group `g` is halted, the groups being of `2 ^ k` harts. -/
def AnyHalted (k g : Nat) : Prop := ∃ h, h / 2 ^ k = g ∧ haltedI.getLsbD h = true

/-- `(NrHarts-1)/2**k+1`, the words of the vector whose words stand for `2 ^ k` harts. -/
def wordCount (n k : Nat) : Nat := (n - 1) / 2 ^ k + 1

/-- The guarded read of word `idx` of a vector: what is read, and the words that are there. -/
def guardedRead (n b k : Nat) : List (Nat × Nat) :=
  let idx := hartselO.extractLsb' k b
  if idx < BitVec.ofNat b (wordCount n k) then [(idx.toNat, wordCount n k)] else []

/-- A loop that reduces `words` words of a vector of `size` words to the bits of one of `flat` bits. -/
def reductionLoop (words size flat : Nat) : List (Nat × Nat) :=
  (List.range words).flatMap fun k => [(k, size), (k, flat)]

/-- Every index the four blocks use, with the size of the array it goes to. -/
def indices (n : Nat) : List (Nat × Nat) :=
  guardedRead hartselO n 15 5
    ++ reductionLoop (wordCount n 5) (wordCount n 5) (wordCount n 10 * 32)
    ++ guardedRead hartselO n 10 10
    ++ reductionLoop (wordCount n 10) (wordCount n 10) (wordCount n 15 * 32)
    ++ guardedRead hartselO n 5 15
    ++ reductionLoop (n / 2 ^ 15 + 1) (wordCount n 15) 32

/-- The halt summaries summarise, and no index leaves its array. -/
structure Summarises : Prop where
  sum0 : ∀ i < 32, (haltsum0 haltedI hartselO).getLsbD i
    = haltedI.getLsbD (32 * (hartselO.extractLsb' 5 15).toNat + i)
  sum1 : ∀ i < 32, (haltsum1 haltedI hartselO).getLsbD i = true ↔
    AnyHalted haltedI 5 (32 * (hartselO.extractLsb' 10 10).toNat + i)
  sum2 : ∀ i < 32, (haltsum2 haltedI hartselO).getLsbD i = true ↔
    AnyHalted haltedI 10 (32 * (hartselO.extractLsb' 15 5).toNat + i)
  sum3 : ∀ i < 32, (haltsum3 haltedI).getLsbD i = true ↔ AnyHalted haltedI 15 i
  inside : ∀ a ∈ indices hartselO n, a.1 < a.2

end Spec

/-! ## Groups of harts -/

section Group

variable {n : Nat} {haltedI : BitVec n} {k : Nat}

theorem anyHalted_zero (g : Nat) : AnyHalted haltedI 0 g ↔ haltedI.getLsbD g = true := by
  constructor
  · rintro ⟨x, hx, hhalted⟩
    rw [← hx, Nat.pow_zero, Nat.div_one]
    exact hhalted
  · intro h
    exact ⟨g, by rw [Nat.pow_zero, Nat.div_one], h⟩

/-- The harts of a group of `2 ^ (k + 5)`, by the groups of `2 ^ k` that it is made of. -/
theorem anyHalted_group (g : Nat) :
    AnyHalted haltedI (k + 5) g ↔ ∃ i < 32, AnyHalted haltedI k (32 * g + i) := by
  have hdiv : ∀ x, x / 2 ^ (k + 5) = x / 2 ^ k / 32 := by
    intro x
    rw [Nat.pow_add, Nat.div_div_eq_div_mul]
  constructor
  · rintro ⟨x, hx, hhalted⟩
    rw [hdiv] at hx
    exact ⟨x / 2 ^ k % 32, Nat.mod_lt _ (by decide), x, by omega, hhalted⟩
  · rintro ⟨i, hi, x, hx, hhalted⟩
    exact ⟨x, by rw [hdiv, hx]; omega, hhalted⟩

end Group

/-! ## One level -/

theorem getWord_ne_zero_iff {m : Nat} (v : BitVec m) (j : Nat) :
    (getWord v j != 0) = true ↔ ∃ b < 32, v.getLsbD (32 * j + b) = true := by
  have hclear : ∀ b, (0 : BitVec 32).getLsbD b = false := fun b => BitVec.getLsbD_zero
  rw [bne_iff_ne]
  constructor
  · intro hne
    by_contra hno
    apply hne
    apply BitVec.eq_of_getLsbD_eq
    intro b hb
    rw [getWord, BitVec.getLsbD_extractLsb', hclear]
    cases hbit : v.getLsbD (32 * j + b)
    · exact Bool.and_false _
    · exact absurd ⟨b, hb, hbit⟩ hno
  · rintro ⟨b, hb, hbit⟩ hzero
    have hset : (getWord v j).getLsbD b = true := by
      rw [getWord, BitVec.getLsbD_extractLsb', hbit, decide_eq_true hb]
      rfl
    rw [hzero, hclear] at hset
    cases hset

/-- The loop of a reduction, bit by bit. -/
theorem reduceWords_bit {m : Nat} (k words : Nat) (v : BitVec m) {j : Nat} (hj : j < k) :
    (reduceWords k words v).getLsbD j = (decide (j < words) && getWord v j != 0) := by
  rw [reduceWords]
  induction words with
  | zero => simp
  | succ words ih =>
    rw [List.range_succ, List.foldl_append, List.foldl_cons, List.foldl_nil,
      setBit_getLsbD _ _ _ _ hj, ih]
    by_cases hlast : j = words
    · simp [hlast]
    · have hlt : (j < words + 1) = (j < words) := propext (by omega)
      simp only [if_neg hlast, hlt]

section Level

variable {n m : Nat} {haltedI : BitVec n} {v : BitVec m} {k : Nat}

/-- Bit `g` of the vector says whether a hart of group `g` is halted. -/
def Level (haltedI : BitVec n) (k : Nat) (v : BitVec m) : Prop :=
  ∀ g, v.getLsbD g = true ↔ AnyHalted haltedI k g

/-- **One level up**: reducing the words of a vector makes groups of 32 groups, provided that every
    hart's word is reduced and has a place.  The two bounds are stated for harts and not for words, because
    the loops of the source count different numbers of words. -/
theorem level_step {words flat : Nat} (h : Level haltedI k v)
    (hwords : ∀ x < n, x / 2 ^ (k + 5) < words) (hflat : ∀ x < n, x / 2 ^ (k + 5) < flat) :
    Level haltedI (k + 5) (reduceWords flat words v) := by
  intro g
  rw [anyHalted_group]
  constructor
  · intro hbit
    have hg : g < flat := BitVec.lt_of_getLsbD hbit
    rw [reduceWords_bit _ _ _ hg, Bool.and_eq_true, getWord_ne_zero_iff] at hbit
    obtain ⟨-, b, hb, hv⟩ := hbit
    exact ⟨b, hb, (h _).mp hv⟩
  · rintro ⟨b, hb, hany⟩
    obtain ⟨x, hx, hhalted⟩ := (anyHalted_group g).mpr ⟨b, hb, hany⟩
    have hxn : x < n := BitVec.lt_of_getLsbD hhalted
    rw [reduceWords_bit _ _ _ (hx ▸ hflat x hxn), Bool.and_eq_true, getWord_ne_zero_iff]
    exact ⟨decide_eq_true (hx ▸ hwords x hxn), b, hb, (h _).mpr hany⟩

end Level

/-! ## The guarded reads -/

section Read

variable {n m : Nat} {haltedI : BitVec n} {hartselO : BitVec 20} {v : BitVec m} {b k : Nat}

/-- The words of a vector are no more than the field can name, and one more than the field can hold
    only if there are all of them. -/
theorem wordCount_le (hn : 1 ≤ n) (hmax : n ≤ 2 ^ 20) (hb : k + b = 20) : wordCount n k ≤ 2 ^ b := by
  have hlt : (n - 1) / 2 ^ k < 2 ^ b := by
    apply Nat.div_lt_of_lt_mul
    rw [← Nat.pow_add, hb]
    omega
  exact hlt

/-- **One summary**: the word of the selected group is what it should be, unless there are as many
    groups as the field can name and a hart of the selected one is halted. -/
theorem guarded_iff (hn : 1 ≤ n) (hmax : n ≤ 2 ^ 20) (hb : k + 5 + b = 20) (h : Level haltedI k v)
    (idx : BitVec b) :
    (∀ i < 32, (if idx < BitVec.ofNat b (wordCount n (k + 5)) then getWord v idx.toNat
        else 0).getLsbD i = true ↔ AnyHalted haltedI k (32 * idx.toNat + i)) ↔
      (wordCount n (k + 5) = 2 ^ b → ¬ AnyHalted haltedI (k + 5) idx.toNat) := by
  have hclear : ∀ i, (0 : BitVec 32).getLsbD i = false := fun i => BitVec.getLsbD_zero
  rcases Nat.eq_or_lt_of_le (wordCount_le hn hmax hb) with hfull | hless
  · -- the number of words is cast to zero, and nothing is read
    have hguard : ¬ idx < BitVec.ofNat b (wordCount n (k + 5)) := by
      rw [hfull, BitVec.lt_def, BitVec.toNat_ofNat, Nat.mod_self]
      exact Nat.not_lt_zero _
    rw [if_neg hguard, imp_iff_right hfull, anyHalted_group]
    constructor
    · rintro hall ⟨i, hi, hany⟩
      have hbit := (hall i hi).mpr hany
      rw [hclear] at hbit
      cases hbit
    · intro hno i hi
      rw [hclear]
      exact iff_of_false Bool.false_ne_true (fun hany => hno ⟨i, hi, hany⟩)
  · refine iff_of_true ?_ (fun hfull => absurd hfull (Nat.ne_of_lt hless))
    intro i hi
    split_ifs with hguard
    · rw [getWord, BitVec.getLsbD_extractLsb', decide_eq_true hi, Bool.true_and]
      exact h _
    · -- the word is not there, and neither is a hart of the group
      rw [BitVec.lt_def, BitVec.toNat_ofNat, Nat.mod_eq_of_lt hless] at hguard
      rw [hclear]
      refine iff_of_false Bool.false_ne_true (fun hany => hguard ?_)
      obtain ⟨x, hx, hhalted⟩ := (anyHalted_group _).mpr ⟨i, hi, hany⟩
      have hxn : x < n := BitVec.lt_of_getLsbD hhalted
      have hle : x / 2 ^ (k + 5) ≤ (n - 1) / 2 ^ (k + 5) := Nat.div_le_div_right (by omega)
      rw [wordCount]
      omega

end Read

/-! ## The indices -/

theorem guardedRead_inside (n : Nat) (hartselO : BitVec 20) (b k : Nat) :
    ∀ a ∈ guardedRead hartselO n b k, a.1 < a.2 := by
  intro a ha
  rw [guardedRead] at ha
  split_ifs at ha with hguard
  · rw [List.mem_singleton] at ha
    rw [ha]
    rw [BitVec.lt_def, BitVec.toNat_ofNat] at hguard
    exact Nat.lt_of_lt_of_le hguard (Nat.mod_le _ _)
  · cases ha

theorem reductionLoop_inside (words size flat : Nat) :
    (∀ a ∈ reductionLoop words size flat, a.1 < a.2) ↔ words ≤ size ∧ words ≤ flat := by
  simp only [reductionLoop, List.mem_flatMap, List.mem_range]
  constructor
  · intro h
    cases words with
    | zero => exact ⟨Nat.zero_le _, Nat.zero_le _⟩
    | succ words =>
      exact ⟨h _ ⟨words, Nat.lt_succ_self _, List.mem_cons_self⟩,
        h _ ⟨words, Nat.lt_succ_self _, List.mem_cons_of_mem _ List.mem_cons_self⟩⟩
  · rintro ⟨hsize, hflat⟩ a ⟨j, hj, ha⟩
    simp only [List.mem_cons, List.not_mem_nil, or_false] at ha
    rcases ha with rfl | rfl
    · exact Nat.lt_of_lt_of_le hj hsize
    · exact Nat.lt_of_lt_of_le hj hflat

/-- Every index is inside but, where the last loop counts a word too many, those of this loop. -/
theorem indices_inside {n : Nat} (hartselO : BitVec 20) (hn : 1 ≤ n) (hmax : n ≤ 2 ^ 20) :
    (∀ a ∈ indices hartselO n, a.1 < a.2) ↔ ¬ 2 ^ 15 ∣ n := by
  have h5 : wordCount n 5 ≤ wordCount n 10 * 32 := by
    rw [wordCount, wordCount]
    omega
  have h10 : wordCount n 10 ≤ wordCount n 15 * 32 := by
    rw [wordCount, wordCount]
    omega
  have h15 : (n / 2 ^ 15 + 1 ≤ wordCount n 15 ∧ n / 2 ^ 15 + 1 ≤ 32) ↔ ¬ 2 ^ 15 ∣ n := by
    rw [wordCount]
    omega
  -- only the loop over the groups of 2^15 may go one word too far
  rw [← h15, ← reductionLoop_inside, indices]
  simp only [List.mem_append]
  constructor
  · intro h a ha
    exact h a (Or.inr ha)
  · rintro h a (((((ha | ha) | ha) | ha) | ha) | ha)
    · -- each guarded read and each inner loop is inside its array
      exact guardedRead_inside _ _ _ _ a ha
    · exact (reductionLoop_inside _ _ _).mpr ⟨Nat.le_refl _, h5⟩ a ha
    · exact guardedRead_inside _ _ _ _ a ha
    · exact (reductionLoop_inside _ _ _).mpr ⟨Nat.le_refl _, h10⟩ a ha
    · exact guardedRead_inside _ _ _ _ a ha
    · exact h a ha

/-! ## The four summaries -/

section Summaries

variable {n : Nat} {haltedI : BitVec n} {hartselO : BitVec 20}

theorem level_reshaped0 (haltedI : BitVec n) (hn : 1 ≤ n) :
    Level haltedI 0 (haltedReshaped0 haltedI) := by
  intro g
  rw [anyHalted_zero, haltedReshaped0, BitVec.getLsbD_setWidth, Bool.and_eq_true,
    and_iff_right_iff_imp, decide_eq_true_iff]
  intro hhalted
  have hg : g < n := BitVec.lt_of_getLsbD hhalted
  omega

theorem level_reshaped1 (haltedI : BitVec n) (hn : 1 ≤ n) :
    Level haltedI 5 (haltedReshaped1 haltedI) :=
  level_step (level_reshaped0 haltedI hn) (fun x hx => by omega) (fun x hx => by omega)

theorem level_reshaped2 (haltedI : BitVec n) (hn : 1 ≤ n) :
    Level haltedI 10 (haltedReshaped2 haltedI) :=
  level_step (level_reshaped1 haltedI hn) (fun x hx => by omega) (fun x hx => by omega)

theorem level_haltsum3 (haltedI : BitVec n) (hn : 1 ≤ n) (hmax : n ≤ 2 ^ 20) :
    Level haltedI 15 (haltsum3 haltedI) :=
  level_step (level_reshaped2 haltedI hn) (fun x hx => by omega) (fun x hx => by omega)

/-- A field of the hart select. -/
theorem field_toNat {b k : Nat} (hb : k + b = 20) :
    (hartselO.extractLsb' k b).toNat = hartselO.toNat / 2 ^ k := by
  rw [BitVec.extractLsb'_toNat, Nat.shiftRight_eq_div_pow, Nat.mod_eq_of_lt]
  apply Nat.div_lt_of_lt_mul
  rw [← Nat.pow_add, hb]
  exact hartselO.isLt

/-- A hart of the selected group is one of the selected group one level up. -/
theorem anyHalted_selected {j k : Nat} (hjk : j ≤ k)
    (h : AnyHalted haltedI j (hartselO.toNat / 2 ^ j)) :
    AnyHalted haltedI k (hartselO.toNat / 2 ^ k) := by
  obtain ⟨x, hx, hhalted⟩ := h
  refine ⟨x, ?_, hhalted⟩
  obtain ⟨d, rfl⟩ := Nat.exists_eq_add_of_le hjk
  rw [Nat.pow_add, ← Nat.div_div_eq_div_mul, hx, Nat.div_div_eq_div_mul]

end Summaries

/-- **The halt summaries**, for every number of harts in the documented range, every vector of halted
    harts and every hart select: they summarise and use no index outside its array exactly when the
    number of harts is no multiple of 2^15 and, with more than 31 * 2^15 harts, no hart of the selected
    group of 2^15 is halted. -/
theorem summarises_iff {n : Nat} (haltedI : BitVec n) (hartselO : BitVec 20) (hn : 1 ≤ n)
    (hmax : n ≤ 2 ^ 20) :
    Summarises haltedI hartselO ↔
      ¬ 2 ^ 15 ∣ n ∧
        (31 * 2 ^ 15 < n → ¬ AnyHalted haltedI 15 (hartselO.extractLsb' 15 5).toNat) := by
  have h0 := guarded_iff hn hmax rfl (level_reshaped0 haltedI hn)
    (hartselO.extractLsb' 5 15)
  have h1 := guarded_iff hn hmax rfl (level_reshaped1 haltedI hn)
    (hartselO.extractLsb' 10 10)
  have h2 := guarded_iff hn hmax rfl (level_reshaped2 haltedI hn)
    (hartselO.extractLsb' 15 5)
  have hinside := indices_inside hartselO hn hmax
  -- an array is full, and its guard truncated to zero, in the last 2^15 harts only
  have hfull5 : wordCount n 5 = 2 ^ 15 → 31 * 2 ^ 15 < n := by
    rw [wordCount]
    omega
  have hfull10 : wordCount n 10 = 2 ^ 10 → 31 * 2 ^ 15 < n := by
    rw [wordCount]
    omega
  have hfull15 : wordCount n 15 = 2 ^ 5 ↔ 31 * 2 ^ 15 < n := by
    rw [wordCount]
    omega
  constructor
  · intro h
    refine ⟨hinside.mp h.inside, fun hlarge => h2.mp h.sum2 (hfull15.mpr hlarge)⟩
  · rintro ⟨hdvd, hnone⟩
    rw [field_toNat rfl] at hnone
    refine ⟨?_, ?_, ?_, fun i _ => level_haltsum3 haltedI hn hmax i, hinside.mpr hdvd⟩
    · intro i hi
      rw [Bool.eq_iff_iff]
      refine (h0.mpr ?_ i hi).trans (anyHalted_zero _)
      -- a guard at zero gives zero, which is right when nobody of the group is halted
      intro hfull hany
      rw [field_toNat rfl] at hany
      exact hnone (hfull5 hfull) (anyHalted_selected (by decide) hany)
    · refine h1.mpr ?_
      intro hfull hany
      rw [field_toNat rfl] at hany
      exact hnone (hfull10 hfull) (anyHalted_selected (by decide) hany)
    · refine h2.mpr ?_
      intro hfull hany
      rw [field_toNat rfl] at hany
      exact hnone (hfull15.mp hfull) hany

/-- A thousand harts, number 33 halted. -/
theorem summarises_thousand : Summarises ((1 : BitVec 1000) <<< 33) 0 :=
  (summarises_iff ((1 : BitVec 1000) <<< 33) 0 (by decide) (by decide)).mpr
    ⟨by decide, fun h => absurd h (by decide)⟩

/-- With 2^20 harts the first summary is empty, although hart 0 is halted. -/
theorem not_summarises_max : ¬ Summarises (1 : BitVec (2 ^ 20)) 0 := by
  intro h
  have hempty : haltsum0 (1 : BitVec (2 ^ 20)) 0 = 0 := by
    rw [haltsum0]
    exact if_neg (by decide)
  have hbit := h.sum0 0 (by decide)
  have hone : (1 : BitVec (2 ^ 20)).getLsbD 0 = true := by
    show (1#(2 ^ 20)).getLsbD 0 = true
    rw [BitVec.getLsbD_one]
    decide
  rw [hempty] at hbit
  exact absurd (hbit.trans hone) (by decide)

end RiscDbgUart.DmRegs
