/-
  Memories that are written in lanes, and in blocks.

  A bus writes some cells of a memory at once: the cells from a base on, of which those whose lane is
  enabled take a new value and the others keep theirs.  The memory is a function on places, so that a
  store is described by what it leaves at each place.

  A block is stored one cell after the other, at places that some enumeration gives.  As far as the
  enumeration does not come back to a place, what is stored is what is found there.
-/
import Mathlib.Tactic

set_option linter.unusedVariables false

namespace Clocked

variable {α : Type}

/-- The cells from `base` on take the lanes that are enabled, of `lanes` many. -/
def storeLanes (m : Nat → α) (base lanes : Nat) (enable : Nat → Bool) (x : Nat → α) : Nat → α :=
  fun j => if base ≤ j ∧ j < base + lanes ∧ enable (j - base) = true then x (j - base) else m j

variable (m : Nat → α) (base lanes : Nat) (enable : Nat → Bool) (x : Nat → α)

/-- Outside the lanes nothing changes. -/
theorem storeLanes_outside {j : Nat} (hj : j < base ∨ base + lanes ≤ j) :
    storeLanes m base lanes enable x j = m j :=
  if_neg (by omega)

/-- Inside them the enable decides. -/
theorem storeLanes_lane {l : Nat} (hl : l < lanes) :
    storeLanes m base lanes enable x (base + l) = if enable l then x l else m (base + l) := by
  rw [storeLanes, Nat.add_sub_cancel_left]
  exact if_congr ⟨fun h => h.2.2, fun h => ⟨by omega, by omega, h⟩⟩ rfl rfl

/-- What a store leaves at a place depends on what was there. -/
theorem storeLanes_congr {m' : Nat → α} {j : Nat} (h : m j = m' j) :
    storeLanes m base lanes enable x j = storeLanes m' base lanes enable x j := by
  rw [storeLanes, storeLanes, h]

/-- No lanes, no change. -/
theorem storeLanes_zero : storeLanes m base 0 enable x = m :=
  funext fun j => storeLanes_outside m base 0 enable x (by omega)

/-- One lane after the other. -/
theorem storeLanes_succ (j : Nat) : storeLanes m base (lanes + 1) enable x j
    = if j = base + lanes ∧ enable lanes = true then x lanes
      else storeLanes m base lanes enable x j := by
  by_cases hj : j = base + lanes
  · subst hj
    rw [storeLanes_lane m base (lanes + 1) enable x (Nat.lt_succ_self lanes),
      storeLanes_outside m base lanes enable x (Or.inr (Nat.le_refl _))]
    exact if_congr (and_iff_right rfl).symm rfl rfl
  · have hlast : j < base + (lanes + 1) ↔ j < base + lanes := by omega
    rw [if_neg (fun h => hj h.1), storeLanes, storeLanes]
    exact if_congr (by rw [hlast]) rfl rfl

/-- Storing the lanes at the bottom is storing them at the next place only if both places hold what is
    stored already. -/
theorem storeLanes_shift_iff (k : Nat) :
    (∀ j < k + k, storeLanes m 0 k enable x j = storeLanes m k k enable x j) ↔
      ∀ l < k, enable l = true → m l = x l ∧ m (k + l) = x l := by
  constructor
  · intro h l hl hen
    have hlow := h l (by omega)
    have hhigh := h (k + l) (by omega)
    rw [← Nat.zero_add l, storeLanes_lane m 0 k enable x hl, if_pos hen, Nat.zero_add,
      storeLanes_outside m k k enable x (Or.inl hl)] at hlow
    rw [storeLanes_lane m k k enable x hl, if_pos hen,
      storeLanes_outside m 0 k enable x (Or.inr (by omega))] at hhigh
    exact ⟨hlow.symm, hhigh⟩
  · intro h j hj
    rcases Nat.lt_or_ge j k with hlow | hlow
    · -- the lower place, which only the first store reaches
      rw [storeLanes_outside m k k enable x (Or.inl hlow), ← Nat.zero_add j,
        storeLanes_lane m 0 k enable x hlow, Nat.zero_add]
      split_ifs with hen
      · exact (h j hlow hen).1.symm
      · rfl
    · obtain ⟨l, rfl⟩ := Nat.exists_eq_add_of_le hlow
      have hl : l < k := by omega
      rw [storeLanes_outside m 0 k enable x (Or.inr (by omega)), storeLanes_lane m k k enable x hl]
      split_ifs with hen
      · exact (h l hl hen).2
      · rfl

/-! ## Blocks -/

/-- The cells of a list, stored at `place k`, `place (k + 1)` and so on. -/
def storeBlock (m : Nat → α) (place : Nat → Nat) : Nat → List α → Nat → α
  | _, [] => m
  | k, x :: xs => storeBlock (Function.update m (place k) x) place (k + 1) xs

/-- Elsewhere nothing changes. -/
theorem storeBlock_outside (place : Nat → Nat) {j : Nat} (xs : List α) (m : Nat → α) (k : Nat)
    (hj : ∀ l, k ≤ l → l < k + xs.length → j ≠ place l) : storeBlock m place k xs j = m j := by
  induction xs generalizing m k with
  | nil => rfl
  | cons x xs ih =>
    rw [List.length_cons] at hj
    rw [storeBlock, ih _ _ fun l hl hlen => hj l (by omega) (by omega)]
    exact Function.update_of_ne (hj k le_rfl (by omega)) x m

/-- What is stored is found where it was stored. -/
theorem storeBlock_inside {place : Nat → Nat} (xs : List α) (m : Nat → α) (k : Nat)
    (hinj : ∀ a b, k ≤ a → a < b → b < k + xs.length → place a ≠ place b) (l : Nat)
    (hl : l < xs.length) : storeBlock m place k xs (place (k + l)) = xs[l] := by
  induction xs generalizing m k l with
  | nil => exact absurd hl (Nat.not_lt_zero l)
  | cons x xs ih =>
    rw [List.length_cons] at hinj hl
    rw [storeBlock]
    cases l with
    | zero =>
      have hout : ∀ b, k + 1 ≤ b → b < k + 1 + xs.length → place k ≠ place b :=
        fun b hb hlen => hinj k b le_rfl (by omega) (by omega)
      show storeBlock _ place (k + 1) xs (place k) = x
      rw [storeBlock_outside place xs _ _ hout, Function.update_self]
    | succ l =>
      rw [show k + (l + 1) = k + 1 + l by omega]
      exact ih _ _ (fun a b ha hab hb => hinj a b (by omega) hab (by omega)) l (by omega)

/-- A block that was stored is read back. -/
theorem map_storeBlock {place : Nat → Nat} (m : Nat → α) (xs : List α)
    (hinj : ∀ a b, a < b → b < xs.length → place a ≠ place b) :
    (List.range xs.length).map (fun l => storeBlock m place 0 xs (place l)) = xs := by
  apply List.ext_getElem
  · rw [List.length_map, List.length_range]
  · intro l hl hlen
    have h := storeBlock_inside xs m 0 (fun a b _ hab hb => hinj a b hab (by omega)) l hlen
    rw [Nat.zero_add] at h
    rw [List.getElem_map, List.getElem_range, h]

end Clocked
