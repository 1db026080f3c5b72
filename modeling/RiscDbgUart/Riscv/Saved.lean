/-
  Where the values are that the registers had at some moment.

  Monitor code spills registers into control registers and brings them back.  `Places` says for a point
  of the code which registers may hold something else by now and which control registers hold the value
  of which register; `flow` is what one instruction does to that.  `kept_exec` is its soundness, and a
  check of all points of some code with it is a finite computation.

  Registers in `except` are those nothing is said about.

  An analysis of some code is a list of `Places`, one for each word.  To be right it must be kept by each
  word, up to weakening (`Covers`), and `Along` says so of a list of instructions.  The lemmas under
  "Bounds" are for code that is a parameter, where the places cannot be computed.
-/
import RiscDbgUart.Riscv.Run

set_option linter.unusedVariables false

namespace Riscv

variable {w f : Nat}

/-! ## Places -/

/-- Where the values are that the registers had at the start. -/
structure Places where
  /-- registers that may hold something else -/
  lost : List (BitVec 5)
  /-- control registers that hold the value of a register -/
  saved : List (BitVec 12 × BitVec 5)
deriving DecidableEq, Repr

/-- The hart keeps the values `X` in these places. -/
def Kept (X : BitVec 5 → BitVec w) (except : BitVec 5 → Prop) (a : Places) (s : Hart w f) : Prop :=
  (∀ r, r ∉ a.lost → ¬ except r → s.x r = X r) ∧
  ∀ q ∈ a.saved, ¬ except q.2 → s.csr q.1 = X q.2

/-- One more register may be lost. -/
def Places.lose (a : Places) (r : BitVec 5) : List (BitVec 5) := if r = 0 then a.lost else r :: a.lost

/-- The registers that may be lost behind an instruction. -/
def flowLost (a : Places) : Instr → List (BitVec 5)
  | .csrrs rd c rs1 =>
    if rs1 = 0 ∧ rd ≠ 0 ∧ (c, rd) ∈ a.saved then a.lost.filter (· ≠ rd) else a.lose rd
  | i => a.lose i.dest

/-- The values that are saved behind an instruction. -/
def flowSaved (a : Places) : Instr → List (BitVec 12 × BitVec 5)
  | .csrrw _ c rs1 =>
    (if rs1 ∈ a.lost then [] else [(c, rs1)]) ++ a.saved.filter (fun q => q.1 ≠ c)
  | i => a.saved.filter (fun q => i.csrDest ≠ some q.1)

/-- What an instruction does to the places. -/
def flow (a : Places) (i : Instr) : Places := ⟨flowLost a i, flowSaved a i⟩

/-- The places behind straight-line code. -/
def flows (is : List Instr) (a : Places) : Places := is.foldl flow a

/-- What is known in `a` is known in `b` as well. -/
def Places.Covers (except : BitVec 5 → Prop) (a b : Places) : Prop :=
  (∀ r ∈ a.lost, r ∈ b.lost ∨ except r) ∧ ∀ q ∈ b.saved, q ∈ a.saved ∨ except q.2

section Soundness

variable {X : BitVec 5 → BitVec w} {except : BitVec 5 → Prop} {ext : Extensions f} {a b : Places}
  {s s' : Hart w f} {i : Instr}

theorem kept_mono (h : a.Covers except b) (hs : Kept X except a s) : Kept X except b s := by
  constructor
  · intro r hr hex
    apply hs.1 r _ hex
    intro hlost
    rcases h.1 r hlost with hb | hr'
    · exact hr hb
    · exact hex hr'
  · intro q hq hex
    rcases h.2 q hq with ha | hq'
    · exact hs.2 q ha hex
    · exact absurd hq' hex

theorem not_mem_lose {r rd : BitVec 5} (h : r ∉ a.lose rd) : r ∉ a.lost ∧ (r ≠ rd ∨ rd = 0) := by
  unfold Places.lose at h
  by_cases h0 : rd = 0
  · rw [if_pos h0] at h
    exact ⟨h, Or.inr h0⟩
  · rw [if_neg h0, List.mem_cons, not_or] at h
    exact ⟨h.2, Or.inl h.1⟩

theorem exec_csrrw_csr {rd rs1 : BitVec 5} {c : BitVec 12} (h : exec ext s (.csrrw rd c rs1) = .next s') :
    s'.csr c = s.x rs1 := by
  rw [exec] at h
  split at h
  · cases h
    rw [csr_advance, csr_setX, csr_setCsr, if_pos rfl]
  · cases h

theorem exec_csrrs_x {rd : BitVec 5} {c : BitVec 12} (hrd : rd ≠ 0)
    (h : exec ext s (.csrrs rd c 0) = .next s') : s'.x rd = s.csr c := by
  rw [exec] at h
  split at h
  · cases h
    rw [x_advance, x_setX_of_ne _ _ _ _ hrd, if_pos rfl]
  · cases h

/-- A register outside of `flowLost` has its value: it is no destination, or it has been loaded from where it
    was saved. -/
theorem kept_x (h : exec ext s i = .next s') (hs : Kept X except a s) {r : BitVec 5}
    (hr : r ∉ flowLost a i) (hex : ¬ except r) : s'.x r = X r := by
  have hlose (hl : r ∉ a.lose i.dest) : s'.x r = X r := by
    obtain ⟨hlost, hdest⟩ := not_mem_lose hl
    rw [(exec_effect h).x r hdest, hs.1 r hlost hex]
  cases i with
  | csrrs rd c rs1 =>
    rw [flowLost] at hr
    by_cases hback : rs1 = 0 ∧ rd ≠ 0 ∧ (c, rd) ∈ a.saved
    · rw [if_pos hback] at hr
      obtain ⟨rfl, hrd, hsaved⟩ := hback
      by_cases heq : r = rd
      · subst heq
        rw [exec_csrrs_x hrd h, hs.2 _ hsaved hex]
      · rw [(exec_effect h).x r (Or.inl heq)]
        apply hs.1 r _ hex
        exact fun hlost => hr (List.mem_filter.mpr ⟨hlost, decide_eq_true heq⟩)
    · rw [if_neg hback] at hr
      exact hlose hr
  | _ => exact hlose hr

/-- What `flowSaved` says is saved is saved: the control register was not written, or it was written from
    the register that it is said to hold. -/
theorem kept_csr (h : exec ext s i = .next s') (hs : Kept X except a s) {q : BitVec 12 × BitVec 5}
    (hq : q ∈ flowSaved a i) (hex : ¬ except q.2) : s'.csr q.1 = X q.2 := by
  have hkeep (hf : q ∈ a.saved ∧ i.csrDest ≠ some q.1) : s'.csr q.1 = X q.2 := by
    rw [(exec_effect h).csr _ hf.2, hs.2 q hf.1 hex]
  have hfilter (hf : q ∈ a.saved.filter (fun q => i.csrDest ≠ some q.1)) : s'.csr q.1 = X q.2 := by
    rw [List.mem_filter, decide_eq_true_iff] at hf
    exact hkeep hf
  cases i with
  | csrrw rd c rs1 =>
    rcases List.mem_append.mp hq with hnew | hold
    · by_cases hlost : rs1 ∈ a.lost
      · rw [if_pos hlost] at hnew
        exact absurd hnew List.not_mem_nil
      · rw [if_neg hlost, List.mem_singleton] at hnew
        subst hnew
        rw [exec_csrrw_csr h]
        exact hs.1 rs1 hlost hex
    · rw [List.mem_filter, decide_eq_true_iff] at hold
      exact hkeep ⟨hold.1, fun heq => hold.2 (Option.some.inj heq).symm⟩
  | _ => exact hfilter hq

/-- **One instruction** keeps what `flow` says. -/
theorem kept_exec (h : exec ext s i = .next s') (hs : Kept X except a s) :
    Kept X except (flow a i) s' :=
  ⟨fun _ hr hex => kept_x h hs hr hex, fun _ hq hex => kept_csr h hs hq hex⟩

end Soundness

/-! ## Bounds -/

section Bounds

variable {except : BitVec 5 → Prop} {a b c : Places} {i : Instr}

theorem covers_trans (hab : a.Covers except b) (hbc : b.Covers except c) : a.Covers except c := by
  constructor
  · intro r hr
    rcases hab.1 r hr with hb | hex
    · exact hbc.1 r hb
    · exact Or.inr hex
  · intro q hq
    rcases hbc.2 q hq with hb | hex
    · exact hab.2 q hb
    · exact Or.inr hex

theorem mem_lose {r rd : BitVec 5} (h : r ∈ a.lose rd) : (r = rd ∧ rd ≠ 0) ∨ r ∈ a.lost := by
  unfold Places.lose at h
  by_cases h0 : rd = 0
  · rw [if_pos h0] at h
    exact Or.inr h
  · rw [if_neg h0, List.mem_cons] at h
    exact h.imp_left fun heq => ⟨heq, h0⟩

theorem mem_flow_lost {r : BitVec 5} (h : r ∈ (flow a i).lost) :
    (r = i.dest ∧ i.dest ≠ 0) ∨ r ∈ a.lost := by
  cases i with
  | csrrs rd c rs1 =>
    rw [flow, flowLost] at h
    by_cases hback : rs1 = 0 ∧ rd ≠ 0 ∧ (c, rd) ∈ a.saved
    · rw [if_pos hback] at h
      exact Or.inr (List.mem_filter.mp h).1
    · rw [if_neg hback] at h
      exact mem_lose h
  | _ => exact mem_lose h

/-- What is saved outside of the control register that is written stays saved, as no instruction writes two
    of them. -/
theorem mem_flow_saved {q : BitVec 12 × BitVec 5} (hq : q ∈ a.saved) (hne : i.csrDest ≠ some q.1) :
    q ∈ (flow a i).saved := by
  cases i with
  | csrrw rd c rs1 =>
    apply List.mem_append_right
    rw [List.mem_filter, decide_eq_true_iff]
    exact ⟨hq, fun heq => hne (congrArg some heq.symm)⟩
  | _ =>
    refine List.mem_filter.mpr ⟨hq, ?_⟩
    exact decide_eq_true hne

/-- An instruction that writes only what may be lost, and no control register that something is saved
    in. -/
theorem covers_flow (h : a.Covers except b) (hdest : i.dest = 0 ∨ i.dest ∈ b.lost ∨ except i.dest)
    (hcsr : ∀ q ∈ b.saved, i.csrDest = some q.1 → except q.2) : (flow a i).Covers except b := by
  constructor
  · intro r hr
    rcases mem_flow_lost hr with ⟨rfl, hne⟩ | hold
    · exact hdest.resolve_left hne
    · exact h.1 r hold
  · intro q hq
    by_cases hwritten : i.csrDest = some q.1
    · exact Or.inr (hcsr q hq hwritten)
    · exact (h.2 q hq).imp_left fun ha => mem_flow_saved ha hwritten

/-- A register is saved again where it was.  Nothing is lost by it, and what was saved there before is the
    same value. -/
theorem covers_spill {c : BitVec 12} {rs1 : BitVec 5} (h : a.Covers except b) (hrs1 : rs1 ∉ a.lost)
    (hcsr : ∀ q ∈ b.saved, q.1 = c → q.2 = rs1) : (flow a (.csrrw 0 c rs1)).Covers except b := by
  constructor
  · intro r hr
    rcases mem_flow_lost hr with ⟨-, hne⟩ | hold
    · exact absurd rfl hne
    · exact h.1 r hold
  · intro q hq
    by_cases hc : q.1 = c
    · left
      apply List.mem_append_left
      rw [if_neg hrs1, List.mem_singleton]
      exact Prod.ext hc (hcsr q hq hc)
    · exact (h.2 q hq).imp_left fun ha =>
        mem_flow_saved (i := .csrrw 0 c rs1) ha fun heq => hc (Option.some.inj heq).symm

/-- A register comes back from where it is saved, and is not among the lost ones any more. -/
theorem covers_restore {c : BitVec 12} {rd : BitVec 5} (h : a.Covers except b)
    (hsaved : (c, rd) ∈ b.saved) (hrd : rd ≠ 0) :
    (flow a (.csrrs rd c 0)).Covers except ⟨b.lost.filter (· ≠ rd), b.saved⟩ := by
  constructor
  · intro r hr
    by_cases heq : r = rd
    · subst heq
      rcases h.2 _ hsaved with ha | hex
      · have hr' : r ∈ a.lost.filter (· ≠ r) := by
          rw [flow, flowLost, if_pos ⟨rfl, hrd, ha⟩] at hr
          exact hr
        exact absurd rfl (of_decide_eq_true (List.mem_filter.mp hr').2)
      · exact Or.inr hex
    · rcases mem_flow_lost hr with ⟨heq', -⟩ | hold
      · exact absurd heq' heq
      · exact (h.1 r hold).imp_left fun hb => List.mem_filter.mpr ⟨hb, decide_eq_true heq⟩
  · intro q hq
    exact (h.2 q hq).imp_left fun ha => mem_flow_saved (i := .csrrs rd c 0) ha fun heq => nomatch heq

/-- The bound holds at every point of straight-line code. -/
def Along (except : BitVec 5 → Prop) (b : Places) (is : List Instr) (a : Places) : Prop :=
  ∀ k ≤ is.length, (flows (is.take k) a).Covers except b

theorem along_mono {is : List Instr} (h : Along except b is a) (hbc : b.Covers except c) :
    Along except c is a :=
  fun k hk => covers_trans (h k hk) hbc

theorem along_last {is : List Instr} (h : Along except b is a) : (flows is a).Covers except b := by
  have hlast := h is.length (Nat.le_refl _)
  rw [List.take_length] at hlast
  exact hlast

theorem along_nil (h : a.Covers except b) : Along except b [] a := by
  intro k _
  rw [List.take_nil]
  exact h

theorem along_cons {is : List Instr} (h : a.Covers except b) (hrest : Along except b is (flow a i)) :
    Along except b (i :: is) a := by
  intro k hk
  cases k with
  | zero => exact h
  | succ k => exact hrest k (Nat.le_of_succ_le_succ hk)

theorem along_append {is js : List Instr} (his : Along except b is a)
    (hjs : Along except b js (flows is a)) : Along except b (is ++ js) a := by
  intro k hk
  rw [List.take_append]
  rcases Nat.lt_or_ge is.length k with hlt | hle
  · rw [List.take_of_length_le (Nat.le_of_lt hlt), flows, List.foldl_append]
    exact hjs _ (by rw [List.length_append] at hk; omega)
  · rw [Nat.sub_eq_zero_of_le hle, List.take_zero, List.append_nil]
    exact his k hle

end Bounds

end Riscv
