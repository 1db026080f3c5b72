/-
  Bounded queues, and the ring of cells they are kept in.

  A queue of capacity `cap` takes what is offered unless it is full and drops its oldest element when
  it is read (`queueStep`).  A ring of `2 ^ a` cells is a memory with `a`-bit addresses, so that the
  address arithmetic wraps by itself; `ring ram r n` lists the `n` cells from `r` on.  The two facts
  that carry a queue in a ring: reading moves the first cell off the list, which is the definition,
  and writing the first cell behind the list appends to it (`ring_push`), as long as the list does
  not fill the ring.
-/
import Mathlib.Tactic

set_option linter.unusedVariables false

namespace Clocked

variable {β : Type} {a : Nat}

/-! ## Queues -/

/-- One step of a queue of capacity `cap`: the oldest element goes when it is read, and what is offered
    is appended unless the queue was full. -/
def queueStep (cap : Nat) (q : List β) (reads : Bool) (offered : Option β) : List β :=
  (if reads then q.tail else q) ++ (if q.length = cap then [] else offered.toList)

/-! ## Rings -/

/-- The `n` cells from `r` on. -/
def ring (ram : BitVec a → β) (r : BitVec a) : Nat → List β
  | 0 => []
  | n + 1 => ram r :: ring ram (r + 1) n

/-- The address `n + 1` cells on, by way of the next cell. -/
theorem add_one_add_ofNat (r : BitVec a) (n : Nat) :
    r + 1 + BitVec.ofNat a n = r + BitVec.ofNat a (n + 1) := by
  rw [Nat.add_comm n 1, BitVec.ofNat_add, BitVec.add_assoc]
  rfl

/-- The last of the cells. -/
theorem ring_snoc (ram : BitVec a → β) (n : Nat) (r : BitVec a) :
    ring ram r (n + 1) = ring ram r n ++ [ram (r + BitVec.ofNat a n)] := by
  induction n generalizing r with
  | zero =>
    rw [ring, ring, ring, BitVec.add_zero]
    rfl
  | succ n ih =>
    rw [ring, ih, add_one_add_ofNat]
    rfl

/-- A cell that is not among them may be written. -/
theorem ring_update_outside (ram : BitVec a → β) (p : BitVec a) (x : β) (n : Nat) (r : BitVec a)
    (h : ∀ k < n, r + BitVec.ofNat a k ≠ p) :
    ring (Function.update ram p x) r n = ring ram r n := by
  induction n generalizing r with
  | zero => rfl
  | succ n ih =>
    have hfirst : r ≠ p := by
      have := h 0 (Nat.succ_pos n)
      rwa [BitVec.add_zero] at this
    have hrest : ∀ k < n, r + 1 + BitVec.ofNat a k ≠ p := by
      intro k hk
      rw [add_one_add_ofNat]
      exact h (k + 1) (Nat.succ_lt_succ hk)
    rw [ring, ring, Function.update_of_ne hfirst, ih (r + 1) hrest]

/-- Within one turn of the ring, offsets that differ name different cells. -/
theorem add_ofNat_inj {r : BitVec a} {j k : Nat} (hj : j < 2 ^ a) (hk : k < 2 ^ a) :
    r + BitVec.ofNat a j = r + BitVec.ofNat a k ↔ j = k := by
  rw [BitVec.add_right_inj, ← BitVec.toNat_inj, BitVec.toNat_ofNat, BitVec.toNat_ofNat,
    Nat.mod_eq_of_lt hj, Nat.mod_eq_of_lt hk]

/-- Back at the same cell: after no step, or after a whole turn. -/
theorem add_ofNat_eq_self_iff {r : BitVec a} {n : Nat} (hn : n ≤ 2 ^ a) :
    r + BitVec.ofNat a n = r ↔ n = 0 ∨ n = 2 ^ a := by
  rcases Nat.lt_or_ge n (2 ^ a) with hlt | hge
  · have h := add_ofNat_inj (r := r) hlt (Nat.two_pow_pos a)
    rw [BitVec.add_zero] at h
    rw [h, or_iff_left (Nat.ne_of_lt hlt)]
  · have hturn : BitVec.ofNat a n = 0 := by
      rw [Nat.le_antisymm hn hge, ← BitVec.toNat_inj, BitVec.toNat_ofNat, Nat.mod_self]
      rfl
    rw [hturn]
    exact iff_of_true (BitVec.add_zero r) (Or.inr (Nat.le_antisymm hn hge))

/-- **Writing behind the cells appends to them**, as long as there is a free cell. -/
theorem ring_push (ram : BitVec a → β) (r : BitVec a) (n : Nat) (x : β) (hn : n < 2 ^ a) :
    ring (Function.update ram (r + BitVec.ofNat a n) x) r (n + 1) = ring ram r n ++ [x] := by
  rw [ring_snoc, Function.update_self, ring_update_outside]
  intro k hk
  rw [ne_eq, add_ofNat_inj (by omega) hn]
  omega

end Clocked
