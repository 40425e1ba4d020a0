import Mathlib.Data.List.Infix

/-!
# Runs of a step function

A component is a step function `step : σ → ι → σ`: the input of a step carries every choice the
component does not make itself. A run is a list of inputs, so a property proved for all runs from
a state holds in every state reached. A guard is a condition on the steps of a run, each read in
the state the step starts from.
-/

namespace StepRun

variable {σ ι : Type*} (step : σ → ι → σ)

def run (s : σ) (inputs : List ι) : σ := inputs.foldl step s

@[simp] theorem run_nil (s : σ) : run step s [] = s := rfl

@[simp] theorem run_cons (s : σ) (i : ι) (inputs : List ι) :
    run step s (i :: inputs) = run step (step s i) inputs := rfl

theorem run_append (s : σ) (first second : List ι) :
    run step s (first ++ second) = run step (run step s first) second :=
  List.foldl_append

theorem run_concat (s : σ) (inputs : List ι) (i : ι) :
    run step s (inputs ++ [i]) = step (run step s inputs) i := by
  rw [run_append, run_cons, run_nil]

/-- Every step of the run meets the guard in the state it starts from. -/
def Guarded (guard : σ → ι → Prop) : σ → List ι → Prop
  | _, [] => True
  | s, i :: inputs => guard s i ∧ Guarded guard (step s i) inputs

variable {step} {guard : σ → ι → Prop}

@[simp] theorem guarded_nil (s : σ) : Guarded step guard s [] := trivial

@[simp] theorem guarded_cons (s : σ) (i : ι) (inputs : List ι) :
    Guarded step guard s (i :: inputs) ↔ guard s i ∧ Guarded step guard (step s i) inputs :=
  Iff.rfl

instance guarded_decidable [∀ s i, Decidable (guard s i)] (s : σ) (inputs : List ι) :
    Decidable (Guarded step guard s inputs) :=
  match inputs with
  | [] => isTrue trivial
  | i :: rest =>
      have := guarded_decidable (step s i) rest
      inferInstanceAs (Decidable (guard s i ∧ Guarded step guard (step s i) rest))

theorem guarded_append (s : σ) (first second : List ι) :
    Guarded step guard s (first ++ second) ↔
      Guarded step guard s first ∧ Guarded step guard (run step s first) second := by
  induction first generalizing s with
  | nil => simp
  | cons i first ih => simp [ih, and_assoc]

theorem guarded_and {other : σ → ι → Prop} (s : σ) (inputs : List ι) :
    Guarded step (fun s i => guard s i ∧ other s i) s inputs ↔
      Guarded step guard s inputs ∧ Guarded step other s inputs := by
  induction inputs generalizing s with
  | nil => simp
  | cons i inputs ih => simp [ih, and_assoc, and_left_comm]

theorem guarded_of_forall (hall : ∀ s i, guard s i) (s : σ) (inputs : List ι) :
    Guarded step guard s inputs := by
  induction inputs generalizing s with
  | nil => trivial
  | cons i inputs ih => exact ⟨hall s i, ih (step s i)⟩

/-- What every guarded step preserves holds in every state a guarded run reaches. -/
theorem Guarded.invariant {P : σ → Prop} (hstep : ∀ s i, P s → guard s i → P (step s i))
    {s : σ} {inputs : List ι} (h : Guarded step guard s inputs) (hs : P s) :
    P (run step s inputs) := by
  induction inputs generalizing s with
  | nil => exact hs
  | cons i inputs ih => exact ih h.2 (hstep s i hs h.1)

/-- Progress under interleaving: the steps of `own` bring a task nearer to its end and the other
steps never put it back, so a run with enough of them passes through a state where the task is
done. -/
theorem Guarded.reaches {done : σ → Prop} {own : ι → Bool} (remaining : σ → ℕ)
    (hdone : ∀ s, remaining s = 0 → done s)
    (hstep : ∀ s i, ¬ done s → guard s i →
      remaining (step s i) + (if own i then 1 else 0) ≤ remaining s)
    {s : σ} {inputs : List ι} (h : Guarded step guard s inputs)
    (hlong : remaining s ≤ inputs.countP own) :
    ∃ first, first <+: inputs ∧ done (run step s first) := by
  induction inputs generalizing s with
  | nil =>
      have hzero : remaining s = 0 := Nat.le_zero.mp hlong
      exact ⟨[], List.prefix_rfl, hdone s hzero⟩
  | cons i inputs ih =>
      by_cases hs : done s
      · exact ⟨[], List.nil_prefix, hs⟩
      · have hnearer := hstep s i hs h.1
        rw [List.countP_cons] at hlong
        obtain ⟨first, hfirst, hthere⟩ := ih h.2 (by omega)
        exact ⟨i :: first, (List.prefix_cons_inj i).mpr hfirst, hthere⟩

/-- When guarded steps keep an invariant and the first unguarded step breaks the property, the
property holds all along a run exactly when the run is guarded. -/
theorem forall_prefix_iff_guarded {Inv P : σ → Prop} (hP : ∀ s, Inv s → P s)
    (hstep : ∀ s i, Inv s → guard s i → Inv (step s i))
    (hbreak : ∀ s i, Inv s → ¬ guard s i → ¬ P (step s i)) {s : σ} (hs : Inv s)
    (inputs : List ι) :
    (∀ first, first <+: inputs → P (run step s first)) ↔ Guarded step guard s inputs := by
  induction inputs generalizing s with
  | nil => simpa using hP s hs
  | cons i inputs ih =>
      constructor
      · intro hall
        have hguard : guard s i := by
          by_contra hnot
          exact hbreak s i hs hnot (hall [i] (List.prefix_append [i] inputs))
        refine ⟨hguard, (ih (hstep s i hs hguard)).mp fun first hfirst => ?_⟩
        exact hall (i :: first) ((List.prefix_cons_inj i).mpr hfirst)
      · rintro ⟨hguard, hrest⟩ first hfirst
        cases first with
        | nil => exact hP s hs
        | cons j first =>
            obtain ⟨rfl, hshort⟩ := List.cons_prefix_cons.mp hfirst
            exact (ih (hstep s j hs hguard)).mpr hrest first hshort

/-- Two guards that agree wherever an invariant holds are met by the same runs, when the steps that
meet one of them keep the invariant. -/
theorem guarded_iff_of_invariant {other : σ → ι → Prop} (Inv : σ → Prop)
    (hsame : ∀ s i, Inv s → (guard s i ↔ other s i))
    (hstep : ∀ s i, Inv s → other s i → Inv (step s i)) {s : σ} (hs : Inv s) (inputs : List ι) :
    Guarded step guard s inputs ↔ Guarded step other s inputs := by
  induction inputs generalizing s with
  | nil => simp
  | cons i inputs ih =>
      simp only [guarded_cons]
      constructor
      · intro h
        have hother := (hsame s i hs).mp h.1
        exact ⟨hother, (ih (hstep s i hs hother)).mp h.2⟩
      · intro h
        exact ⟨(hsame s i hs).mpr h.1, (ih (hstep s i hs h.1)).mpr h.2⟩

/-- When guarded steps keep a property, the first unguarded step leads to a state that is broken for
good, the run shows at its end whether it was guarded. -/
theorem guarded_or_broken (step : σ → ι → σ) (guard : σ → ι → Prop) {Inv P B : σ → Prop}
    (hinv : ∀ s i, Inv s → Inv (step s i))
    (hgood : ∀ s i, Inv s → P s → guard s i → P (step s i))
    (hbad : ∀ s i, Inv s → P s → ¬ guard s i → B (step s i))
    (hkeep : ∀ s i, Inv s → B s → B (step s i)) {s : σ} (hs : Inv s) (inputs : List ι) :
    (B s → B (run step s inputs)) ∧
      (P s → (Guarded step guard s inputs → P (run step s inputs)) ∧
        (¬ Guarded step guard s inputs → B (run step s inputs))) := by
  induction inputs generalizing s with
  | nil => exact ⟨id, fun hP => ⟨fun _ => hP, fun hnot => absurd trivial hnot⟩⟩
  | cons i inputs ih =>
      obtain ⟨hbroken, hsplit⟩ := ih (hinv s i hs)
      refine ⟨fun hB => hbroken (hkeep s i hs hB), fun hP => ⟨?_, ?_⟩⟩
      · rintro ⟨hguard, hrest⟩
        exact (hsplit (hgood s i hs hP hguard)).1 hrest
      · intro hnot
        by_cases hguard : guard s i
        · exact (hsplit (hgood s i hs hP hguard)).2 fun hrest => hnot ⟨hguard, hrest⟩
        · exact hbroken (hbad s i hs hP hguard)

theorem run_invariant {P : σ → Prop} (hstep : ∀ s i, P s → P (step s i)) {s : σ}
    (inputs : List ι) (hs : P s) : P (run step s inputs) :=
  have hall : Guarded step (fun _ _ => True) s inputs :=
    guarded_of_forall (fun _ _ => trivial) s inputs
  hall.invariant (fun s i hs _ => hstep s i hs) hs

/-- A relation that steps with the same input keep holds after runs with the same inputs. -/
theorem run_related {τ : Type*} {step : σ → ι → σ} {ref : τ → ι → τ} (R : σ → τ → Prop)
    (hstep : ∀ s t i, R s t → R (step s i) (ref t i)) {s : σ} {t : τ} (inputs : List ι)
    (hR : R s t) : R (run step s inputs) (run ref t inputs) := by
  induction inputs generalizing s t with
  | nil => exact hR
  | cons i inputs ih =>
      apply ih
      exact hstep s t i hR

end StepRun
