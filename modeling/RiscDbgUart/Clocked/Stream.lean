/-
  Synchronous machines on an unending stream of inputs.

  `Machine` runs a step function over finite lists, which suits what is said about a run as a whole.
  What is said about single moments, and about stretches of time between them, is easier over a
  stream `w : Nat → ι`: the registers in cycle `t` are a function of `t`, and the events of a stretch
  are known once it is known in which of its cycles there are any.

  * `stateAt`    — the registers in cycle `t`; they depend on the inputs before `t` only;
  * `eventsFrom` — the events of `n` cycles from cycle `a` on.

  The two views agree (`stateAt_eq_run`, `emitted_range`).
-/
import RiscDbgUart.Clocked.Machine

set_option linter.unusedVariables false

namespace Clocked

variable {σ ι β : Type} {step : σ → ι → σ} {out : σ → ι → List β} {s : σ} {w w' : Nat → ι}
variable {a n m t u : Nat}

/-! ## States -/

/-- The registers in cycle `t` of the stream `w`. -/
def stateAt (step : σ → ι → σ) (s : σ) (w : Nat → ι) : Nat → σ
  | 0 => s
  | t + 1 => step (stateAt step s w t) (w t)

theorem stateAt_succ : stateAt step s w (t + 1) = step (stateAt step s w t) (w t) := rfl

/-- The registers depend on the past only. -/
theorem stateAt_congr (h : ∀ u < t, w u = w' u) : stateAt step s w t = stateAt step s w' t := by
  induction t with
  | zero => rfl
  | succ t ih =>
    rw [stateAt_succ, stateAt_succ, ih fun u hu => h u (by omega), h t (by omega)]

theorem stateAt_eq_run (step : σ → ι → σ) (s : σ) (w : Nat → ι) (t : Nat) :
    stateAt step s w t = run step s ((List.range t).map w) := by
  induction t with
  | zero => rfl
  | succ t ih =>
    rw [stateAt_succ, ih, List.range_succ, List.map_append, run_append]
    rfl

/-! ## Events -/

/-- The events of the `n` cycles from cycle `a` on. -/
def eventsFrom (step : σ → ι → σ) (out : σ → ι → List β) (s : σ) (w : Nat → ι) (a : Nat) :
    Nat → List β
  | 0 => []
  | n + 1 => eventsFrom step out s w a n ++ out (stateAt step s w (a + n)) (w (a + n))

theorem eventsFrom_zero : eventsFrom step out s w a 0 = [] := rfl

theorem eventsFrom_succ : eventsFrom step out s w a (n + 1)
    = eventsFrom step out s w a n ++ out (stateAt step s w (a + n)) (w (a + n)) := rfl

/-- A stretch of time cut in two. -/
theorem eventsFrom_add (a n m : Nat) : eventsFrom step out s w a (n + m)
    = eventsFrom step out s w a n ++ eventsFrom step out s w (a + n) m := by
  induction m with
  | zero => rw [Nat.add_zero, eventsFrom_zero, List.append_nil]
  | succ m ih =>
    rw [← Nat.add_assoc, eventsFrom_succ, ih, List.append_assoc, eventsFrom_succ, Nat.add_assoc]

/-- The events of a run over a list are those of the stream that begins with it. -/
theorem emitted_range (step : σ → ι → σ) (out : σ → ι → List β) (s : σ) (w : Nat → ι) (n : Nat) :
    emitted step out s ((List.range n).map w) = eventsFrom step out s w 0 n := by
  induction n with
  | zero => rfl
  | succ n ih =>
    rw [List.range_succ, List.map_append, emitted_append, ih, ← stateAt_eq_run, eventsFrom_succ,
      Nat.zero_add]
    simp

/-- An event of a stretch is an event of one of its cycles. -/
theorem mem_eventsFrom {e : β} (h : e ∈ eventsFrom step out s w a n) :
    ∃ t, a ≤ t ∧ t < a + n ∧ e ∈ out (stateAt step s w t) (w t) := by
  induction n with
  | zero => cases h
  | succ n ih =>
    rw [eventsFrom_succ, List.mem_append] at h
    rcases h with h | h
    · obtain ⟨t, ha, hn, he⟩ := ih h
      exact ⟨t, ha, by omega, he⟩
    · exact ⟨a + n, by omega, by omega, h⟩

/-- Nothing happens in a stretch of quiet cycles. -/
theorem eventsFrom_quiet
    (h : ∀ t, a ≤ t → t < a + n → out (stateAt step s w t) (w t) = []) :
    eventsFrom step out s w a n = [] := by
  induction n with
  | zero => rfl
  | succ n ih =>
    rw [eventsFrom_succ, ih fun t ha hn => h t ha (by omega), h (a + n) (by omega) (by omega)]
    rfl

/-- When only one cycle of a stretch has events, they are the events of the stretch. -/
theorem eventsFrom_single (ha : a ≤ u) (hn : u < a + n)
    (h : ∀ t, a ≤ t → t < a + n → out (stateAt step s w t) (w t) ≠ [] → t = u) :
    eventsFrom step out s w a n = out (stateAt step s w u) (w u) := by
  have hquiet : ∀ t, a ≤ t → t < a + n → t ≠ u → out (stateAt step s w t) (w t) = [] :=
    fun t hat hnt hne => by_contra fun hsome => hne (h t hat hnt hsome)
  have hcut : n = (u - a) + (1 + (a + n - (u + 1))) := by omega
  have hbefore : eventsFrom step out s w a (u - a) = [] :=
    eventsFrom_quiet fun t hat hu => hquiet t hat (by omega) (by omega)
  have hafter : eventsFrom step out s w (u + 1) (a + n - (u + 1)) = [] :=
    eventsFrom_quiet fun t hut hnt => hquiet t (by omega) (by omega) (by omega)
  have hu : a + (u - a) = u := by omega
  rw [hcut, eventsFrom_add, hbefore, List.nil_append, hu, eventsFrom_add, hafter, List.append_nil]
  rfl

/-- When no two cycles of a stretch have events, the stretch has none or those of one cycle. -/
theorem eventsFrom_unique
    (h : ∀ t u, a ≤ t → t < u → u < a + n → out (stateAt step s w t) (w t) ≠ [] →
      out (stateAt step s w u) (w u) = []) :
    eventsFrom step out s w a n = [] ∨
      ∃ u, a ≤ u ∧ u < a + n ∧ out (stateAt step s w u) (w u) ≠ [] ∧
        eventsFrom step out s w a n = out (stateAt step s w u) (w u) := by
  by_cases hsome : ∃ u, a ≤ u ∧ u < a + n ∧ out (stateAt step s w u) (w u) ≠ []
  · obtain ⟨u, ha, hn, hu⟩ := hsome
    refine Or.inr ⟨u, ha, hn, hu, eventsFrom_single ha hn fun t hat hnt ht => ?_⟩
    rcases Nat.lt_trichotomy t u with hlt | heq | hlt
    · exact absurd (h t u hat hlt hn ht) hu
    · exact heq
    · exact absurd (h u t ha hlt hnt hu) ht
  · refine Or.inl (eventsFrom_quiet fun t hat hnt => ?_)
    by_contra ht
    exact hsome ⟨t, hat, hnt, ht⟩

end Clocked
