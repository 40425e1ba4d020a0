import Mathlib.Data.List.Basic

/-!
# Machines that answer

A machine takes an input and gives an answer, or stops working. It does what a reference machine
does when a relation between their states is kept by every input and the answers agree.
-/

namespace Machine

variable {σ τ ι α : Type*}

/-- The answers to a list of inputs; `none` when the machine stops working on the way. -/
def answers (step : σ → ι → Option (σ × α)) : σ → List ι → Option (List α)
  | _, [] => some []
  | s, i :: inputs => (step s i).bind fun r => (answers step r.1 inputs).map (r.2 :: ·)

/-- A machine that always works: its state and answers after a list of inputs. -/
def respond (step : τ → ι → τ × α) : τ → List ι → τ × List α
  | t, [] => (t, [])
  | t, i :: inputs =>
      let first := step t i
      let rest := respond step first.1 inputs
      (rest.1, first.2 :: rest.2)

@[simp] theorem respond_nil (step : τ → ι → τ × α) (t : τ) : respond step t [] = (t, []) := rfl

theorem respond_cons (step : τ → ι → τ × α) (t : τ) (i : ι) (inputs : List ι) :
    respond step t (i :: inputs) = ((respond step (step t i).1 inputs).1,
      (step t i).2 :: (respond step (step t i).1 inputs).2) := rfl

theorem respond_map {κ : Type*} (step : τ → ι → τ × α) (f : κ → ι) (t : τ) (inputs : List κ) :
    respond (fun t i => step t (f i)) t inputs = respond step t (inputs.map f) := by
  induction inputs generalizing t with
  | nil => rfl
  | cons i inputs ih => rw [List.map_cons, respond_cons, respond_cons, ih]

theorem respond_invariant {step : τ → ι → τ × α} {P : τ → Prop}
    (hstep : ∀ t i, P t → P (step t i).1) {t : τ} (inputs : List ι) (ht : P t) :
    P (respond step t inputs).1 := by
  induction inputs generalizing t with
  | nil => exact ht
  | cons i inputs ih =>
      apply ih
      exact hstep t i ht

/-- Two machines with a relation that every input keeps, and with the same answers. -/
theorem respond_related {υ : Type*} {step : υ → ι → υ × α} {ref : τ → ι → τ × α}
    {R : υ → τ → Prop}
    (h : ∀ u t i, R u t → (step u i).2 = (ref t i).2 ∧ R (step u i).1 (ref t i).1) {u : υ} {t : τ}
    (hR : R u t) (inputs : List ι) :
    (respond step u inputs).2 = (respond ref t inputs).2 ∧
      R (respond step u inputs).1 (respond ref t inputs).1 := by
  induction inputs generalizing u t with
  | nil => exact ⟨rfl, hR⟩
  | cons i inputs ih =>
      obtain ⟨hanswer, hR'⟩ := h u t i hR
      obtain ⟨hanswers, hend⟩ := ih hR'
      rw [respond_cons, respond_cons, hanswer, hanswers]
      exact ⟨rfl, hend⟩

theorem respond_congr {step step' : τ → ι → τ × α} {inputs : List ι}
    (h : ∀ i ∈ inputs, ∀ t, step t i = step' t i) (t : τ) :
    respond step t inputs = respond step' t inputs := by
  induction inputs generalizing t with
  | nil => rfl
  | cons i inputs ih =>
      have hrest : ∀ j ∈ inputs, ∀ t, step t j = step' t j :=
        fun j hj => h j (List.mem_cons_of_mem i hj)
      rw [respond_cons, respond_cons, h i List.mem_cons_self, ih hrest]

/-- One input of a machine against the reference. -/
def Simulates (R : σ → τ → Prop) (step : σ → ι → Option (σ × α)) (ref : τ → ι → τ × α) : Prop :=
  ∀ s t i, R s t → ∃ s', step s i = some (s', (ref t i).2) ∧ R s' (ref t i).1

theorem Simulates.answers_eq {R : σ → τ → Prop} {step : σ → ι → Option (σ × α)}
    {ref : τ → ι → τ × α} (h : Simulates R step ref) {s : σ} {t : τ} (hR : R s t)
    (inputs : List ι) : answers step s inputs = some (respond ref t inputs).2 := by
  induction inputs generalizing s t with
  | nil => rfl
  | cons i inputs ih =>
      obtain ⟨s', hstep, hR'⟩ := h s t i hR
      rw [answers, hstep, Option.bind_some, ih hR', respond_cons]
      rfl

end Machine
