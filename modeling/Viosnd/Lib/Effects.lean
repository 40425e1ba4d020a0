import Mathlib.Data.Finset.Basic
import Mathlib.Logic.Relation
import Viosnd.Lib.Runs

/-!
# Effects by kind

The routines of a component make small changes of a few kinds. A routine is described by the set
of kinds it is made of; what every change of these kinds preserves, the routine preserves.
-/

namespace EffectSystem

variable {κ σ : Type*}

/-- `t` is reached from `s` by changes of the kinds `K`. -/
def Within (R : κ → σ → σ → Prop) (K : Finset κ) : σ → σ → Prop :=
  Relation.ReflTransGen fun s t => ∃ k ∈ K, R k s t

variable {R : κ → σ → σ → Prop} {K L : Finset κ} {s t u : σ}

theorem Within.refl (s : σ) : Within R K s s := Relation.ReflTransGen.refl

theorem Within.single {k : κ} (hk : k ∈ K) (h : R k s t) : Within R K s t :=
  Relation.ReflTransGen.single ⟨k, hk, h⟩

theorem Within.trans (first : Within R K s t) (second : Within R K t u) : Within R K s u :=
  Relation.ReflTransGen.trans first second

theorem Within.mono (hKL : K ⊆ L) (h : Within R K s t) : Within R L s t :=
  Relation.ReflTransGen.mono (fun _ _ ⟨k, hk, hR⟩ => ⟨k, hKL hk, hR⟩) _ _ h

/-- A routine preserves what each kind of change it is made of preserves. -/
theorem Within.invariant {P : σ → Prop} (h : Within R K s t)
    (hstep : ∀ k ∈ K, ∀ a b, R k a b → P a → P b) (hs : P s) : P t := by
  induction h with
  | refl => exact hs
  | tail _ hlast ih =>
      obtain ⟨k, hk, hR⟩ := hlast
      exact hstep k hk _ _ hR ih

/-- A routine leaves alone what each kind of change it is made of leaves alone. -/
theorem Within.keeps {α : Type*} (f : σ → α) (h : Within R K s t)
    (hstep : ∀ k ∈ K, ∀ a b, R k a b → f b = f a) : f t = f s := by
  have hinv : ∀ k ∈ K, ∀ a b, R k a b → f a = f s → f b = f s := by
    intro k hk a b hR ha
    rw [hstep k hk a b hR, ha]
  exact h.invariant hinv rfl

theorem Within.run {ι : Type*} {step : σ → ι → σ} {inputs : List ι}
    (hstep : ∀ i ∈ inputs, ∀ s, Within R K s (step s i)) (s : σ) :
    Within R K s (StepRun.run step s inputs) := by
  induction inputs generalizing s with
  | nil => exact Within.refl s
  | cons i inputs ih =>
      have hfirst := hstep i List.mem_cons_self s
      have hrest := ih (fun j hj => hstep j (List.mem_cons_of_mem i hj)) (step s i)
      exact hfirst.trans hrest

end EffectSystem
