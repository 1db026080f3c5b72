/-
  Machines made of machines, and two runs side by side.

  A COMPONENT of a machine is a part of its registers that steps as a machine of its own, on inputs
  that it looks up in the whole: its pins are pins of the whole or outputs of the other parts.  `seen`
  is the list of inputs that it gets in the cycles of a run.  Whatever is known about all runs of the
  component then holds of the whole (`run_component`, `always_component`, `emitted_component`): the
  other parts are one way to drive its pins.

  Two runs are COUPLED when they take inputs that match cycle by cycle.  A relation between the
  registers that matching cycles keep holds after both runs (`run_coupled`), and what the cycles emit
  agrees as far as every pair of cycles does (`emitted_coupled`).  With the relation "the same as far
  as one side can see" this is the statement that the rest does not disturb that side.

  A machine SIMULATES another one that takes no step, one or several in a cycle: `view` is the state of
  the other one behind the registers, `calls` the inputs of its steps in the cycle.  Then a run is a run
  of the other machine (`run_simulates`), and what it shows is what that one shows
  (`emitted_simulates`).
-/
import RiscDbgUart.Clocked.Machine

set_option linter.unusedVariables false

namespace Clocked

variable {σ ι σ' ι' β : Type}

/-! ## Components -/

/-- What is looked up in the cycles of a run, one item a cycle. -/
def seen (step : σ → ι → σ) (look : σ → ι → ι') (s : σ) (is : List ι) : List ι' :=
  emitted step (fun s i => [look s i]) s is

@[simp] theorem seen_nil (step : σ → ι → σ) (look : σ → ι → ι') (s : σ) :
    seen step look s [] = [] := rfl

@[simp] theorem seen_cons (step : σ → ι → σ) (look : σ → ι → ι') (s : σ) (i : ι) (is : List ι) :
    seen step look s (i :: is) = look s i :: seen step look (step s i) is := rfl

theorem seen_append (step : σ → ι → σ) (look : σ → ι → ι') (is js : List ι) (s : σ) :
    seen step look s (is ++ js) = seen step look s is ++ seen step look (run step s is) js :=
  emitted_append step _ is js s

theorem seen_length (step : σ → ι → σ) (look : σ → ι → ι') (is : List ι) (s : σ) :
    (seen step look s is).length = is.length := by
  induction is generalizing s with
  | nil => rfl
  | cons i is ih => rw [seen_cons, List.length_cons, List.length_cons, ih]

/-- The part of the registers steps as `step'` does on the inputs it looks up. -/
def Component (step : σ → ι → σ) (step' : σ' → ι' → σ') (part : σ → σ') (look : σ → ι → ι') : Prop :=
  ∀ s i, part (step s i) = step' (part s) (look s i)

section Component

variable {step : σ → ι → σ} {step' : σ' → ι' → σ'} {part : σ → σ'} {look : σ → ι → ι'}

/-- A component of a component. -/
theorem component_trans {σ'' ι'' : Type} {step'' : σ'' → ι'' → σ''} {part' : σ' → σ''}
    {look' : σ' → ι' → ι''} (h : Component step step' part look)
    (h' : Component step' step'' part' look') :
    Component step step'' (fun s => part' (part s)) (fun s i => look' (part s) (look s i)) :=
  fun s i => (congrArg part' (h s i)).trans (h' (part s) (look s i))

theorem run_component (h : Component step step' part look) (is : List ι) (s : σ) :
    part (run step s is) = run step' (part s) (seen step look s is) := by
  induction is generalizing s with
  | nil => rfl
  | cons i is ih => rw [run_cons, seen_cons, run_cons, ih, h]

/-- What the component does in every cycle of its run, the whole does in every cycle of its own.  With it a
    theorem about all runs of a part is a theorem about the whole. -/
theorem always_component (h : Component step step' part look) (P : σ' → ι' → Prop) (is : List ι)
    (s : σ) :
    Always step' P (part s) (seen step look s is) ↔
      Always step (fun s i => P (part s) (look s i)) s is := by
  induction is generalizing s with
  | nil => exact Iff.rfl
  | cons i is ih =>
    rw [seen_cons, Always, Always, ← h, ih]

theorem emitted_component (h : Component step step' part look) (out : σ' → ι' → List β)
    (is : List ι) (s : σ) :
    emitted step' out (part s) (seen step look s is)
      = emitted step (fun s i => out (part s) (look s i)) s is := by
  induction is generalizing s with
  | nil => rfl
  | cons i is ih => rw [seen_cons, emitted_cons, emitted_cons, ← h, ih]

/-- With a checker that looks at the component only, the component with the checker is one of the
    whole. -/
theorem watched_component {γ : Type} (h : Component step step' part look)
    (see : γ → σ' → ι' → γ) :
    Component (watched step fun c s i => see c (part s) (look s i)) (watched step' see)
      (fun c => (c.1, part c.2)) fun c i => look c.2 i :=
  fun c i => Prod.ext rfl (h c.2 i)

theorem seen_watched {γ : Type} (see : γ → σ → ι → γ) (look : σ → ι → ι') (is : List ι)
    (c : γ × σ) :
    seen (watched step see) (fun c i => look c.2 i) c is = seen step look c.2 is :=
  emitted_watched step see (fun s i => [look s i]) is c

end Component

/-! ## Coupled runs -/

section Coupled

variable {step : σ → ι → σ} {step' : σ' → ι' → σ'} {R : σ → σ' → Prop} {Q : ι → ι' → Prop}

/-- **The coupling rule.**  A relation that matching cycles keep holds after matching runs. -/
theorem run_coupled (h : ∀ s s' i i', R s s' → Q i i' → R (step s i) (step' s' i')) {is : List ι}
    {is' : List ι'} (hQ : List.Forall₂ Q is is') {s : σ} {s' : σ'} (hs : R s s') :
    R (run step s is) (run step' s' is') := by
  induction hQ generalizing s s' with
  | nil => exact hs
  | cons hi _ ih => exact ih (h _ _ _ _ hs hi)

/-- What matching cycles emit alike, matching runs emit alike.  The two machines need not have the same
    states, nor the two runs the same inputs. -/
theorem emitted_coupled (h : ∀ s s' i i', R s s' → Q i i' → R (step s i) (step' s' i'))
    {out : σ → ι → List β} {out' : σ' → ι' → List β}
    (hout : ∀ s s' i i', R s s' → Q i i' → out s i = out' s' i') {is : List ι} {is' : List ι'}
    (hQ : List.Forall₂ Q is is') {s : σ} {s' : σ'} (hs : R s s') :
    emitted step out s is = emitted step' out' s' is' := by
  induction hQ generalizing s s' with
  | nil => rfl
  | cons hi _ ih => rw [emitted_cons, emitted_cons, hout _ _ _ _ hs hi, ih (h _ _ _ _ hs hi)]

/-- Inputs that agree in two of their parts match cycle by cycle. -/
theorem matching_of_map {α γ : Type} (f : ι → α) (g : ι → γ) (is js : List ι)
    (hf : is.map f = js.map f) (hg : is.map g = js.map g) :
    List.Forall₂ (fun i j => f i = f j ∧ g i = g j) is js := by
  have hpairs : is.map (fun i => (f i, g i)) = js.map (fun i => (f i, g i)) := by
    rw [← List.zip_map', ← List.zip_map', hf, hg]
  rw [← List.forall₂_eq_eq_eq, List.forall₂_map_left_iff, List.forall₂_map_right_iff] at hpairs
  exact hpairs.imp fun i j h => Prod.mk.inj h

end Coupled

/-! ## One run in the steps of another -/

section Simulates

variable {step : σ → ι → σ} {step' : σ' → ι' → σ'} {view : σ → σ'} {calls : σ → ι → List ι'}
  {Inv : σ → Prop} {C : σ → ι → Prop}

theorem run_simulates (hstep : ∀ s i, Inv s → C s i → Inv (step s i))
    (hview : ∀ s i, Inv s → C s i → view (step s i) = run step' (view s) (calls s i)) (is : List ι)
    (s : σ) (hs : Inv s) (hC : Always step C s is) :
    view (run step s is) = run step' (view s) (emitted step calls s is) := by
  induction is generalizing s with
  | nil => rfl
  | cons i is ih =>
    rw [run_cons, emitted_cons, run_append, ih _ (hstep s i hs hC.1) hC.2, hview s i hs hC.1]

/-- **The simulation rule.**  What every cycle shows by the steps it takes, a run shows by the steps
    it takes. -/
theorem emitted_simulates {out : σ → ι → List β} {out' : σ' → ι' → List β}
    (hstep : ∀ s i, Inv s → C s i → Inv (step s i))
    (hview : ∀ s i, Inv s → C s i → view (step s i) = run step' (view s) (calls s i))
    (hout : ∀ s i, Inv s → C s i → out s i = emitted step' out' (view s) (calls s i)) (is : List ι)
    (s : σ) (hs : Inv s) (hC : Always step C s is) :
    emitted step out s is = emitted step' out' (view s) (emitted step calls s is) := by
  induction is generalizing s with
  | nil => rfl
  | cons i is ih =>
    rw [emitted_cons, emitted_cons, emitted_append, ← hview s i hs hC.1, hout s i hs hC.1,
      ih _ (hstep s i hs hC.1) hC.2]

end Simulates

/-! ## The cycles of the events -/

section Events

variable {step : σ → ι → σ} {out : σ → ι → List β} {s : σ} {is : List ι}

/-- A run shows nothing just when none of its cycles does. -/
theorem emitted_eq_nil : emitted step out s is = [] ↔ Always step (fun s i => out s i = []) s is := by
  induction is generalizing s with
  | nil => exact iff_of_true rfl trivial
  | cons i is ih =>
    rw [emitted_cons, List.append_eq_nil_iff, ih]
    rfl

/-- The cycle of the last event, when no cycle shows more than one.  It splits a run of a device at the
    event that a protocol waits for. -/
theorem emitted_last {xs : List β} {x : β} (hone : ∀ s i, (out s i).length ≤ 1)
    (h : emitted step out s is = xs ++ [x]) :
    ∃ pre i post, is = pre ++ i :: post ∧ emitted step out s pre = xs ∧
      out (run step s pre) i = [x] ∧ emitted step out (run step s (pre ++ [i])) post = [] := by
  induction is generalizing s xs with
  | nil => exact absurd h.symm (List.append_ne_nil_of_right_ne_nil xs (List.cons_ne_nil x []))
  | cons i is ih =>
    rw [emitted_cons] at h
    match hout : out s i, hone s i with
    -- no event in this cycle: the last one is later
    | [], _ =>
      rw [hout, List.nil_append] at h
      obtain ⟨pre, j, post, rfl, hpre, hj, hpost⟩ := ih h
      refine ⟨i :: pre, j, post, rfl, ?_, hj, hpost⟩
      rw [emitted_cons, hout, hpre]
      rfl
    -- one event: it is the last one, or the first of several
    | [y], _ =>
      rw [hout, List.singleton_append] at h
      cases xs with
      | nil =>
        obtain ⟨rfl, hrest⟩ := List.cons.inj h
        exact ⟨[], i, is, rfl, rfl, hout, hrest⟩
      | cons z zs =>
        obtain ⟨rfl, hrest⟩ := List.cons.inj h
        obtain ⟨pre, j, post, rfl, hpre, hj, hpost⟩ := ih hrest
        refine ⟨i :: pre, j, post, rfl, ?_, hj, hpost⟩
        rw [emitted_cons, hout, hpre]
        rfl
    | _ :: _ :: _, hlen => exact absurd hlen (by simp)

end Events

end Clocked
