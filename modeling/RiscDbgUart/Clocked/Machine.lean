/-
  Synchronous machines, run over finite lists of inputs.

  A clocked circuit is a step function `σ → ι → σ`: the registers before a clock edge and the inputs
  settled in that cycle give the registers after it.  Everything the development says about the
  circuits is said about a RUN of such a step function, so the vocabulary is fixed here once, over
  arbitrary state and input types:

  * `run`      — the registers after a list of cycles;
  * `Always`   — a condition on (registers, inputs) that holds in every cycle of a run;
  * `Throughout` — a condition on the registers that holds in every state of a run;
  * `Followed` — a condition on every two consecutive cycles of a run;
  * `emitted`  — the events of a run: each cycle contributes a list, in order;
  * `cascade`  — a machine that drives a second one;
  * `watched`  — the same machine with a checker attached.  The checker reads the machine and keeps
                 its own memory; the machine does not see it.

  The rules are the usual ones, each proved by one induction on the list of inputs: a step-preserved
  invariant holds along every run whose cycles meet the side condition (`always_of_step`), and a
  per-cycle conservation law between two event streams and a buffer sums up to the equation between
  the two streams and the buffers at both ends (`emitted_conserved`).
-/
import Mathlib.Tactic

set_option linter.unusedVariables false

namespace Clocked

variable {σ ι β γ : Type}

/-! ## Runs -/

/-- The registers after the cycles `is`, starting from `s`. -/
def run (step : σ → ι → σ) : σ → List ι → σ
  | s, [] => s
  | s, i :: is => run step (step s i) is

@[simp] theorem run_nil (step : σ → ι → σ) (s : σ) : run step s [] = s := rfl

@[simp] theorem run_cons (step : σ → ι → σ) (s : σ) (i : ι) (is : List ι) :
    run step s (i :: is) = run step (step s i) is := rfl

theorem run_append (step : σ → ι → σ) (is js : List ι) (s : σ) :
    run step s (is ++ js) = run step (run step s is) js := by
  induction is generalizing s with
  | nil => rfl
  | cons i is ih => rw [List.cons_append, run_cons, run_cons, ih]

/-- `P` holds in every cycle of the run. -/
def Always (step : σ → ι → σ) (P : σ → ι → Prop) : σ → List ι → Prop
  | _, [] => True
  | s, i :: is => P s i ∧ Always step P (step s i) is

instance decidableAlways (step : σ → ι → σ) (P : σ → ι → Prop) [∀ s i, Decidable (P s i)] :
    ∀ (is : List ι) (s : σ), Decidable (Always step P s is)
  | [], _ => isTrue trivial
  | i :: is, s => @instDecidableAnd _ _ _ (decidableAlways step P is (step s i))

instance (step : σ → ι → σ) (P : σ → ι → Prop) [∀ s i, Decidable (P s i)] (s : σ) (is : List ι) :
    Decidable (Always step P s is) := decidableAlways step P is s

theorem always_append (step : σ → ι → σ) (P : σ → ι → Prop) (is js : List ι) (s : σ) :
    Always step P s (is ++ js) ↔ Always step P s is ∧ Always step P (run step s is) js := by
  induction is generalizing s with
  | nil => simp [Always]
  | cons i is ih => rw [List.cons_append, Always, Always, ih, run_cons, and_assoc]

/-- A run meets `P` in every cycle exactly when `P` holds at every way of cutting the run into what
    came before a cycle, the cycle, and what came after. -/
theorem always_iff (step : σ → ι → σ) (P : σ → ι → Prop) (s : σ) (is : List ι) :
    Always step P s is ↔ ∀ pre i post, is = pre ++ i :: post → P (run step s pre) i := by
  constructor
  · intro h pre i post hcut
    rw [hcut, always_append] at h
    exact h.2.1
  · intro h
    induction is generalizing s with
    | nil => trivial
    | cons i is ih =>
      refine ⟨h [] i is rfl, ih (step s i) ?_⟩
      intro pre j post hcut
      exact h (i :: pre) j post (by rw [hcut, List.cons_append])

/-- Two conditions, each of which holds in every cycle. -/
theorem always_and {step : σ → ι → σ} {P Q : σ → ι → Prop} (is : List ι) (s : σ)
    (hP : Always step P s is) (hQ : Always step Q s is) :
    Always step (fun s i => P s i ∧ Q s i) s is := by
  induction is generalizing s with
  | nil => trivial
  | cons i is ih => exact ⟨⟨hP.1, hQ.1⟩, ih (step s i) hP.2 hQ.2⟩

/-- A weaker condition. -/
theorem always_imp {step : σ → ι → σ} {P Q : σ → ι → Prop} (h : ∀ s i, P s i → Q s i) (is : List ι)
    (s : σ) (hP : Always step P s is) : Always step Q s is := by
  induction is generalizing s with
  | nil => trivial
  | cons i is ih => exact ⟨h s i hP.1, ih (step s i) hP.2⟩

/-- No condition at all. -/
theorem always_true (step : σ → ι → σ) (s : σ) (is : List ι) :
    Always step (fun _ _ => True) s is := by
  induction is generalizing s with
  | nil => trivial
  | cons i is ih => exact ⟨trivial, ih (step s i)⟩

/-- `P` holds in every state the run passes through, the first and the last included. -/
def Throughout (step : σ → ι → σ) (P : σ → Prop) : σ → List ι → Prop
  | s, [] => P s
  | s, i :: is => P s ∧ Throughout step P (step s i) is

instance decidableThroughout (step : σ → ι → σ) (P : σ → Prop) [DecidablePred P] :
    ∀ (is : List ι) (s : σ), Decidable (Throughout step P s is)
  | [], s => inferInstanceAs (Decidable (P s))
  | i :: is, s => @instDecidableAnd _ _ _ (decidableThroughout step P is (step s i))

instance (step : σ → ι → σ) (P : σ → Prop) [DecidablePred P] (s : σ) (is : List ι) :
    Decidable (Throughout step P s is) := decidableThroughout step P is s

theorem throughout_imp {step : σ → ι → σ} {P Q : σ → Prop} (h : ∀ s, P s → Q s) (is : List ι)
    (s : σ) (hP : Throughout step P s is) : Throughout step Q s is := by
  induction is generalizing s with
  | nil => exact h s hP
  | cons i is ih => exact ⟨h s hP.1, ih (step s i) hP.2⟩

/-! ## Invariants -/

/-- **The invariant rule.**  Whatever an invariant that every admissible cycle preserves implies of a
    cycle, together with the side condition of that cycle, holds in every cycle of every run of
    admissible cycles. -/
theorem always_of_step {step : σ → ι → σ} (Inv : σ → Prop) (C P : σ → ι → Prop)
    (hstep : ∀ s i, Inv s → C s i → Inv (step s i)) (hP : ∀ s i, Inv s → C s i → P s i)
    (is : List ι) (s : σ) (h : Inv s) (hC : Always step C s is) : Always step P s is := by
  induction is generalizing s with
  | nil => trivial
  | cons i is ih =>
    obtain ⟨hc, hrest⟩ := hC
    constructor
    · exact hP s i h hc
    · exact ih (step s i) (hstep s i h hc) hrest

/-- The same invariant, seen from every state of the run, the first and the last one included. -/
theorem throughout_of_step {step : σ → ι → σ} (Inv P : σ → Prop) (C : σ → ι → Prop)
    (hstep : ∀ s i, Inv s → C s i → Inv (step s i)) (hP : ∀ s, Inv s → P s)
    (is : List ι) (s : σ) (h : Inv s) (hC : Always step C s is) : Throughout step P s is := by
  induction is generalizing s with
  | nil => exact hP s h
  | cons i is ih =>
    obtain ⟨hc, hrest⟩ := hC
    constructor
    · exact hP s h
    · exact ih (step s i) (hstep s i h hc) hrest

/-- The invariant itself, after an admissible run. -/
theorem run_of_step {step : σ → ι → σ} {Inv : σ → Prop} {C : σ → ι → Prop}
    (hstep : ∀ s i, Inv s → C s i → Inv (step s i)) (is : List ι) (s : σ) (h : Inv s)
    (hC : Always step C s is) : Inv (run step s is) := by
  induction is generalizing s with
  | nil => exact h
  | cons i is ih => exact ih (step s i) (hstep s i h hC.1) hC.2

/-- The rule with no side condition: the invariant holds after every run. -/
theorem run_of_step_free {step : σ → ι → σ} {Inv : σ → Prop}
    (hstep : ∀ s i, Inv s → Inv (step s i)) (is : List ι) (s : σ) (h : Inv s) :
    Inv (run step s is) :=
  run_of_step (fun s i hs _ => hstep s i hs) is s h (always_true step s is)

/-- Two conditions that agree under an invariant agree throughout every admissible run.  This turns an exact
    condition on states into an exact condition on runs. -/
theorem throughout_congr {step : σ → ι → σ} (Inv : σ → Prop) (D : σ → ι → Prop) {P C : σ → Prop}
    (hstep : ∀ s i, Inv s → D s i → Inv (step s i)) (hPC : ∀ s, Inv s → (P s ↔ C s)) (is : List ι)
    (s : σ) (h : Inv s) (hD : Always step D s is) :
    Throughout step P s is ↔ Throughout step C s is := by
  induction is generalizing s with
  | nil => exact hPC s h
  | cons i is ih =>
    obtain ⟨hd, hD⟩ := hD
    exact and_congr (hPC s h) (ih (step s i) (hstep s i h hd) hD)

/-- **The exact condition, under an invariant.**  When the admissible cycles that keep `P` are exactly
    those that meet `C`, the admissible runs that satisfy `P` throughout are exactly those that meet `C`
    in every cycle. -/
theorem throughout_iff_of_step {step : σ → ι → σ} (Inv P : σ → Prop) (D C : σ → ι → Prop)
    (hinv : ∀ s i, Inv s → D s i → Inv (step s i))
    (hstep : ∀ s i, Inv s → P s → D s i → (P (step s i) ↔ C s i)) (is : List ι) (s : σ)
    (hs : Inv s) (h : P s) (hD : Always step D s is) :
    Throughout step P s is ↔ Always step C s is := by
  induction is generalizing s with
  | nil => exact iff_of_true h trivial
  | cons i is ih =>
    obtain ⟨hd, hD⟩ := hD
    constructor
    · rintro ⟨-, hrest⟩
      -- `P` of the next state is what the rest of the run begins with
      have hi : P (step s i) := by
        cases is with
        | nil => exact hrest
        | cons j js => exact hrest.1
      exact ⟨(hstep s i hs h hd).mp hi, (ih (step s i) (hinv s i hs hd) hi hD).mp hrest⟩
    · rintro ⟨hc, hrest⟩
      have hi : P (step s i) := (hstep s i hs h hd).mpr hc
      exact ⟨h, (ih (step s i) (hinv s i hs hd) hi hD).mpr hrest⟩

/-- **The exact condition.**  The same with every cycle admissible and no invariant but `P`. -/
theorem throughout_iff_always (step : σ → ι → σ) (P : σ → Prop) (C : σ → ι → Prop)
    (hstep : ∀ s i, P s → (P (step s i) ↔ C s i)) (is : List ι) (s : σ) (h : P s) :
    Throughout step P s is ↔ Always step C s is :=
  throughout_iff_of_step (fun _ => True) P (fun _ _ => True) C (fun _ _ _ _ => trivial)
    (fun s i _ hs _ => hstep s i hs) is s trivial h (always_true step s is)

/-- **The exact condition, cycle by cycle.**  Two conditions that agree in every admissible cycle under
    an invariant agree on every admissible run, also when only the cycles that meet the condition keep
    the invariant: up to the first cycle that violates it the runs are the same. -/
theorem always_iff_of_step {step : σ → ι → σ} (Inv : σ → Prop) (D : σ → ι → Prop)
    {P C : σ → ι → Prop} (hstep : ∀ s i, Inv s → D s i → C s i → Inv (step s i))
    (hPC : ∀ s i, Inv s → D s i → (P s i ↔ C s i)) (is : List ι) (s : σ) (h : Inv s)
    (hD : Always step D s is) : Always step P s is ↔ Always step C s is := by
  induction is generalizing s with
  | nil => exact Iff.rfl
  | cons i is ih =>
    obtain ⟨hd, hD⟩ := hD
    constructor
    · rintro ⟨hp, hrest⟩
      have hc := (hPC s i h hd).mp hp
      exact ⟨hc, (ih (step s i) (hstep s i h hd hc) hD).mp hrest⟩
    · rintro ⟨hc, hrest⟩
      exact ⟨(hPC s i h hd).mpr hc, (ih (step s i) (hstep s i h hd hc) hD).mpr hrest⟩

/-- The same with every cycle admissible. -/
theorem always_iff_always {step : σ → ι → σ} (Inv : σ → Prop) {P C : σ → ι → Prop}
    (hstep : ∀ s i, Inv s → C s i → Inv (step s i)) (hPC : ∀ s i, Inv s → (P s i ↔ C s i))
    (is : List ι) (s : σ) (h : Inv s) : Always step P s is ↔ Always step C s is :=
  always_iff_of_step Inv (fun _ _ => True) (fun s i hs _ => hstep s i hs) (fun s i hs _ => hPC s i hs)
    is s h (always_true step s is)

/-- The same with every cycle admissible and keeping the invariant. -/
theorem always_congr {step : σ → ι → σ} (Inv : σ → Prop) {P C : σ → ι → Prop}
    (hstep : ∀ s i, Inv s → Inv (step s i)) (hPC : ∀ s i, Inv s → (P s i ↔ C s i))
    (is : List ι) (s : σ) (h : Inv s) : Always step P s is ↔ Always step C s is :=
  always_iff_always Inv (fun s i hs _ => hstep s i hs) hPC is s h

/-! ## Two cycles in a row -/

/-- `Q` holds of every two consecutive cycles of the run. -/
def Followed (step : σ → ι → σ) (Q : σ → ι → ι → Prop) : σ → List ι → Prop
  | _, [] => True
  | _, [_] => True
  | s, i :: j :: is => Q s i j ∧ Followed step Q (step s i) (j :: is)

instance decidableFollowed (step : σ → ι → σ) (Q : σ → ι → ι → Prop)
    [∀ s i j, Decidable (Q s i j)] : ∀ (is : List ι) (s : σ), Decidable (Followed step Q s is)
  | [], _ => isTrue trivial
  | [_], _ => isTrue trivial
  | i :: j :: is, s =>
    @instDecidableAnd _ _ _ (decidableFollowed step Q (j :: is) (step s i))

theorem followed_congr {step : σ → ι → σ} {Q R : σ → ι → ι → Prop}
    (h : ∀ s i j, Q s i j ↔ R s i j) (is : List ι) (s : σ) :
    Followed step Q s is ↔ Followed step R s is := by
  induction is generalizing s with
  | nil => exact Iff.rfl
  | cons i is ih =>
    cases is with
    | nil => exact Iff.rfl
    | cons j is => exact and_congr (h s i j) (ih (step s i))

/-! ## Event streams -/

/-- The events of a run, cycle after cycle. -/
def emitted (step : σ → ι → σ) (out : σ → ι → List β) : σ → List ι → List β
  | _, [] => []
  | s, i :: is => out s i ++ emitted step out (step s i) is

@[simp] theorem emitted_nil (step : σ → ι → σ) (out : σ → ι → List β) (s : σ) :
    emitted step out s [] = [] := rfl

@[simp] theorem emitted_cons (step : σ → ι → σ) (out : σ → ι → List β) (s : σ) (i : ι)
    (is : List ι) : emitted step out s (i :: is) = out s i ++ emitted step out (step s i) is := rfl

theorem emitted_append (step : σ → ι → σ) (out : σ → ι → List β) (is js : List ι) (s : σ) :
    emitted step out s (is ++ js)
      = emitted step out s is ++ emitted step out (run step s is) js := by
  induction is generalizing s with
  | nil => rfl
  | cons i is ih =>
    rw [List.cons_append, emitted_cons, emitted_cons, ih, run_cons, List.append_assoc]

/-- What holds of the events of every cycle holds of the events of the run, in whichever cycle they fall. -/
theorem forall_emitted (step : σ → ι → σ) (out : σ → ι → List β) (P : β → Prop) (s : σ)
    (is : List ι) (h : Always step (fun s i => ∀ e ∈ out s i, P e) s is) :
    ∀ e ∈ emitted step out s is, P e := by
  induction is generalizing s with
  | nil => exact fun e he => nomatch he
  | cons i is ih =>
    intro e he
    rw [emitted_cons, List.mem_append] at he
    rcases he with he | he
    · exact h.1 e he
    · exact ih (step s i) h.2 e he

/-- And the other way round. -/
theorem always_of_emitted (step : σ → ι → σ) (out : σ → ι → List β) (P : β → Prop) (s : σ)
    (is : List ι) (h : ∀ e ∈ emitted step out s is, P e) :
    Always step (fun s i => ∀ e ∈ out s i, P e) s is := by
  induction is generalizing s with
  | nil => trivial
  | cons i is ih =>
    rw [emitted_cons] at h
    exact ⟨fun e he => h e (List.mem_append_left _ he),
      ih _ fun e he => h e (List.mem_append_right _ he)⟩

theorem emitted_flatMap {δ : Type} (step : σ → ι → σ) (out : σ → ι → List β) (f : β → List δ)
    (s : σ) (is : List ι) :
    emitted step (fun s i => (out s i).flatMap f) s is = (emitted step out s is).flatMap f := by
  induction is generalizing s with
  | nil => rfl
  | cons i is ih => rw [emitted_cons, emitted_cons, ih, List.flatMap_append]

theorem emitted_map {δ : Type} (step : σ → ι → σ) (out : σ → ι → List β) (f : β → δ) (s : σ)
    (is : List ι) :
    emitted step (fun s i => (out s i).map f) s is = (emitted step out s is).map f := by
  simp only [List.map_eq_flatMap]
  exact emitted_flatMap step out (fun b => [f b]) s is

/-- **The history rule.**  An invariant between the events so far and the registers, which every
    admissible cycle preserves, holds between the events of an admissible run and the registers after
    it. -/
theorem history_of_step {step : σ → ι → σ} {out : σ → ι → List β} (J : List β → σ → Prop)
    (C : σ → ι → Prop) (hstep : ∀ h s i, J h s → C s i → J (h ++ out s i) (step s i)) (is : List ι)
    (h : List β) (s : σ) (hs : J h s) (hC : Always step C s is) :
    J (h ++ emitted step out s is) (run step s is) := by
  induction is generalizing h s with
  | nil =>
    rw [emitted_nil, List.append_nil]
    exact hs
  | cons i is ih =>
    rw [emitted_cons, ← List.append_assoc]
    exact ih (h ++ out s i) (step s i) (hstep h s i hs hC.1) hC.2

/-- **Conservation.**  When every admissible cycle moves events from `ins` through the buffer `buf`
    to `outs` without losing, inventing or reordering one, so does every admissible run. -/
theorem emitted_conserved {step : σ → ι → σ} (Inv : σ → Prop) {C : σ → ι → Prop}
    (ins outs : σ → ι → List β) (buf : σ → List β)
    (hstep : ∀ s i, Inv s → C s i → Inv (step s i))
    (hlaw : ∀ s i, Inv s → C s i → buf s ++ ins s i = outs s i ++ buf (step s i))
    (is : List ι) (s : σ) (h : Inv s) (hC : Always step C s is) :
    buf s ++ emitted step ins s is = emitted step outs s is ++ buf (run step s is) := by
  induction is generalizing s with
  | nil => simp
  | cons i is ih =>
    have hrest := ih (step s i) (hstep s i h hC.1) hC.2
    calc buf s ++ emitted step ins s (i :: is)
        = (buf s ++ ins s i) ++ emitted step ins (step s i) is := by
          rw [emitted_cons, List.append_assoc]
      _ = outs s i ++ (buf (step s i) ++ emitted step ins (step s i) is) := by
          rw [hlaw s i h hC.1, List.append_assoc]
      _ = emitted step outs s (i :: is) ++ buf (run step s (i :: is)) := by
          rw [hrest, emitted_cons, run_cons, List.append_assoc]

/-- **Conservation, exactly.**  When the cycles that conserve the events are those that meet `C`, the
    runs that conserve them at every point are exactly those that meet `C` in every cycle: the
    equations before and after a cycle cancel to the law of that cycle. -/
theorem emitted_conserved_iff {step : σ → ι → σ} {Inv : σ → Prop} (C : σ → ι → Prop)
    (ins outs : σ → ι → List β) (buf : σ → List β)
    (hstep : ∀ s i, Inv s → Inv (step s i))
    (hlaw : ∀ s i, Inv s → (buf s ++ ins s i = outs s i ++ buf (step s i) ↔ C s i))
    (is : List ι) (s : σ) (h : Inv s) :
    (∀ pre, pre <+: is →
      buf s ++ emitted step ins s pre = emitted step outs s pre ++ buf (run step s pre)) ↔
    Always step C s is := by
  constructor
  · intro heq
    rw [always_iff]
    intro pre i post hcut
    rw [← hlaw _ i (run_of_step_free hstep pre s h)]
    -- the equations at the cut before the cycle and behind it
    have h1 := heq pre ⟨i :: post, hcut.symm⟩
    have h2 := heq (pre ++ [i]) ⟨post, by rw [hcut, List.append_assoc]; rfl⟩
    rw [emitted_append, emitted_append, run_append, ← List.append_assoc, h1, List.append_assoc,
      List.append_assoc, List.append_cancel_left_eq] at h2
    simpa using h2
  · rintro hC pre ⟨post, rfl⟩
    exact emitted_conserved Inv ins outs buf (fun s i hs _ => hstep s i hs)
      (fun s i hs hc => (hlaw s i hs).mpr hc) pre s h ((always_append step C pre post s).mp hC).1

/-! ## Two machines in a row -/

section Cascade

variable {τ δ : Type}

/-- A machine whose output is the input of a second one, in the same cycle. -/
def cascade (step : σ → ι → σ) (out : σ → ι → δ) (step₂ : τ → δ → τ) : σ × τ → ι → σ × τ :=
  fun p i => (step p.1 i, step₂ p.2 (out p.1 i))

variable (step : σ → ι → σ) (out : σ → ι → δ) (step₂ : τ → δ → τ) (s : σ) (t : τ) (is : List ι)

/-- What the first machine shows the second. -/
def shown (step : σ → ι → σ) (out : σ → ι → δ) : σ → List ι → List δ :=
  emitted step fun s i => [out s i]

theorem emitted_cascade_fst (f : σ → ι → List β) :
    emitted (cascade step out step₂) (fun p i => f p.1 i) (s, t) is = emitted step f s is := by
  induction is generalizing s t with
  | nil => rfl
  | cons i is ih => exact congrArg (f s i ++ ·) (ih _ _)

/-- The second machine does what it does on its own on what it is shown. -/
theorem emitted_cascade_snd (f : τ → List β) :
    emitted (cascade step out step₂) (fun p _ => f p.2) (s, t) is
      = emitted step₂ (fun t _ => f t) t (shown step out s is) := by
  induction is generalizing s t with
  | nil => rfl
  | cons i is ih => exact congrArg (f t ++ ·) (ih _ _)

theorem always_cascade_snd (P : τ → Prop) :
    Always (cascade step out step₂) (fun p _ => P p.2) (s, t) is
      ↔ Always step₂ (fun t _ => P t) t (shown step out s is) := by
  induction is generalizing s t with
  | nil => exact Iff.rfl
  | cons i is ih => exact and_congr Iff.rfl (ih _ _)

end Cascade

/-! ## Checkers -/

/-- The machine with a checker attached: the checker's memory moves on what it sees of the cycle,
    the machine moves as before. -/
def watched (step : σ → ι → σ) (see : γ → σ → ι → γ) : γ × σ → ι → γ × σ :=
  fun p i => (see p.1 p.2 i, step p.2 i)

@[simp] theorem watched_snd (step : σ → ι → σ) (see : γ → σ → ι → γ) (p : γ × σ) (i : ι) :
    (watched step see p i).2 = step p.2 i := rfl

/-- A checker does not change the machine's run. -/
theorem run_watched (step : σ → ι → σ) (see : γ → σ → ι → γ) (is : List ι) (p : γ × σ) :
    (run (watched step see) p is).2 = run step p.2 is := by
  induction is generalizing p with
  | nil => rfl
  | cons i is ih => exact ih (watched step see p i)

/-- A checker does not change the machine's events. -/
theorem emitted_watched (step : σ → ι → σ) (see : γ → σ → ι → γ) (out : σ → ι → List β)
    (is : List ι) (p : γ × σ) :
    emitted (watched step see) (fun p i => out p.2 i) p is = emitted step out p.2 is := by
  induction is generalizing p with
  | nil => rfl
  | cons i is ih => rw [emitted_cons, emitted_cons, ih, watched_snd]

/-- A condition on the machine alone can be read with or without the checker. -/
theorem always_watched (step : σ → ι → σ) (see : γ → σ → ι → γ) (P : σ → ι → Prop)
    (is : List ι) (p : γ × σ) :
    Always (watched step see) (fun p i => P p.2 i) p is ↔ Always step P p.2 is := by
  induction is generalizing p with
  | nil => exact Iff.rfl
  | cons i is ih => exact and_congr_right fun _ => ih (watched step see p i)

theorem throughout_watched (step : σ → ι → σ) (see : γ → σ → ι → γ) (P : σ → Prop)
    (is : List ι) (p : γ × σ) :
    Throughout (watched step see) (fun p => P p.2) p is ↔ Throughout step P p.2 is := by
  induction is generalizing p with
  | nil => exact Iff.rfl
  | cons i is ih => exact and_congr_right fun _ => ih (watched step see p i)

/-- Two checkers side by side. -/
def both {δ : Type} (see : γ → σ → ι → γ) (see₂ : δ → σ → ι → δ) : γ × δ → σ → ι → γ × δ :=
  fun q s i => (see q.1 s i, see₂ q.2 s i)

/-- Neither of two checkers sees the other. -/
theorem always_both_fst {δ : Type} (step : σ → ι → σ) (see : γ → σ → ι → γ) (see₂ : δ → σ → ι → δ)
    (P : γ × σ → ι → Prop) (is : List ι) (g : γ) (d : δ) (s : σ) :
    Always (watched step (both see see₂)) (fun c i => P (c.1.1, c.2) i) ((g, d), s) is
      ↔ Always (watched step see) P (g, s) is := by
  induction is generalizing g d s with
  | nil => exact Iff.rfl
  | cons i is ih => exact and_congr_right fun _ => ih _ _ _

theorem always_both_snd {δ : Type} (step : σ → ι → σ) (see : γ → σ → ι → γ) (see₂ : δ → σ → ι → δ)
    (P : δ × σ → ι → Prop) (is : List ι) (g : γ) (d : δ) (s : σ) :
    Always (watched step (both see see₂)) (fun c i => P (c.1.2, c.2) i) ((g, d), s) is
      ↔ Always (watched step see₂) P (d, s) is := by
  induction is generalizing g d s with
  | nil => exact Iff.rfl
  | cons i is ih => exact and_congr_right fun _ => ih _ _ _

end Clocked
