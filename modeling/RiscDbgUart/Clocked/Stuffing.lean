/-
  Byte stuffing.

  A link that carries bytes is made to carry two kinds of symbols, data and commands, by an escape
  byte: a command is the escape byte followed by the command byte, a data byte equal to the escape
  byte is doubled, and every other data byte is sent as it is.  The receiver remembers one thing, that
  the byte before was an escape.

  The only fact needed is that the two ends agree: what is decoded from encoded symbols is those
  symbols, as long as no command byte equals the escape byte.
-/
import Mathlib.Tactic

set_option linter.unusedVariables false

namespace Stuffing

variable {β : Type} [DecidableEq β]

inductive Symbol (β : Type)
  | data (b : β)
  | command (c : β)
deriving DecidableEq, Repr

/-- The bytes of one symbol. -/
def stuff (esc : β) : Symbol β → List β
  | .data b => if b = esc then [esc, esc] else [b]
  | .command c => [esc, c]

theorem stuff_length (esc : β) (sym : Symbol β) : (stuff esc sym).length ≤ 2 := by
  cases sym with
  | data b => by_cases hb : b = esc <;> simp [stuff, hb]
  | command c => simp [stuff]

/-- The bytes of a sequence of symbols. -/
def encode (esc : β) (syms : List (Symbol β)) : List β := syms.flatMap (stuff esc)

/-- The receiver: `true` after an escape byte. -/
def decode (esc : β) : Bool → List β → List (Symbol β)
  | _, [] => []
  | false, b :: bs => if b = esc then decode esc true bs else .data b :: decode esc false bs
  | true, b :: bs =>
    (if b = esc then Symbol.data b else Symbol.command b) :: decode esc false bs

/-- Whether the receiver is behind an escape byte after `bs`. -/
def escaped (esc : β) : Bool → List β → Bool
  | m, [] => m
  | false, b :: bs => escaped esc (decide (b = esc)) bs
  | true, _ :: bs => escaped esc false bs

theorem escaped_append (esc : β) (m : Bool) (xs ys : List β) :
    escaped esc m (xs ++ ys) = escaped esc (escaped esc m xs) ys := by
  induction xs generalizing m with
  | nil => rfl
  | cons b bs ih => cases m <;> exact ih _

theorem decode_append (esc : β) (m : Bool) (xs ys : List β) :
    decode esc m (xs ++ ys) = decode esc m xs ++ decode esc (escaped esc m xs) ys := by
  induction xs generalizing m with
  | nil => rfl
  | cons b bs ih =>
    cases m
    · by_cases hb : b = esc
      · simp [decode, escaped, hb, ih]
      · simp [decode, escaped, hb, ih]
    · simp [decode, escaped, ih]

/-- **The two ends agree.** -/
theorem decode_encode (esc : β) (syms : List (Symbol β))
    (h : ∀ c, Symbol.command c ∈ syms → c ≠ esc) : decode esc false (encode esc syms) = syms := by
  induction syms with
  | nil => rfl
  | cons sym syms ih =>
    have hrest := ih fun c hc => h c (List.mem_cons_of_mem _ hc)
    unfold encode at hrest ⊢
    rw [List.flatMap_cons]
    cases sym with
    | data b =>
      by_cases hb : b = esc
      · simp [stuff, decode, hb, hrest]
      · simp [stuff, decode, hb, hrest]
    | command c =>
      have hc : c ≠ esc := h c List.mem_cons_self
      simp [stuff, decode, hc, hrest]

/-- A whole number of symbols leaves the receiver where it was. -/
theorem escaped_encode (esc : β) (syms : List (Symbol β)) :
    escaped esc false (encode esc syms) = false := by
  induction syms with
  | nil => rfl
  | cons sym syms ih =>
    unfold encode at ih ⊢
    rw [List.flatMap_cons]
    cases sym with
    | data b =>
      by_cases hb : b = esc
      · simp [stuff, escaped, hb, ih]
      · simp [stuff, escaped, hb, ih]
    | command c => simp [stuff, escaped, ih]

/-- Part of a symbol decodes to nothing. -/
theorem decode_part (esc : β) {sym : Symbol β} {part rest : List β}
    (h : stuff esc sym = part ++ rest) (hrest : rest ≠ []) : decode esc false part = [] := by
  match part, h with
  | [], _ => rfl
  | [b], h =>
    -- the byte before the last is the escape byte
    have hb : b = esc := by
      cases sym with
      | data x =>
        by_cases hx : x = esc
        · rw [stuff, if_pos hx] at h
          exact (List.cons.inj h).1.symm
        · rw [stuff, if_neg hx] at h
          exact absurd (List.cons.inj h).2.symm hrest
      | command c => exact (List.cons.inj h).1.symm
    simp [decode, hb]
  | b :: c :: bs, h =>
    have hlen := congrArg List.length h
    have hle := stuff_length esc sym
    have hpos := List.length_pos_iff.mpr hrest
    simp only [List.length_append, List.length_cons] at hlen
    omega

end Stuffing
