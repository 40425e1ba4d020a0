import Mathlib.Data.Fintype.Pigeonhole
import Mathlib.Logic.Function.Iterate

/-!
# While loops

A loop is a test and a body. It is run with fuel, and halts when some fuel is enough. A loop that
follows the links of a finite set of nodes halts exactly when it meets no node twice.
-/

namespace Loops

variable {σ τ : Type*}

/-- `while (cond s) s = body s`; `none` when the test still holds after `fuel` turns. -/
def whileLoop (cond : σ → Bool) (body : σ → σ) : ℕ → σ → Option σ
  | fuel, s =>
      if cond s then
        match fuel with
        | 0 => none
        | fuel + 1 => whileLoop cond body fuel (body s)
      else some s

def Halts (cond : σ → Bool) (body : σ → σ) (s : σ) : Prop :=
  ∃ fuel, (whileLoop cond body fuel s).isSome = true

variable {cond : σ → Bool} {body : σ → σ} {s t : σ} {fuel : ℕ}

theorem whileLoop_stop (h : cond s = false) : whileLoop cond body fuel s = some s := by
  unfold whileLoop
  simp [h]

theorem whileLoop_go (h : cond s = true) :
    whileLoop cond body (fuel + 1) s = whileLoop cond body fuel (body s) := by
  rw [whileLoop]
  simp [h]

theorem whileLoop_invariant {P : σ → Prop} (hbody : ∀ s, cond s = true → P s → P (body s))
    (hs : P s) (h : whileLoop cond body fuel s = some t) : P t ∧ cond t = false := by
  induction fuel generalizing s with
  | zero =>
      cases hcond : cond s with
      | true => simp [whileLoop, hcond] at h
      | false =>
          rw [whileLoop_stop hcond] at h
          rw [← Option.some.inj h]
          exact ⟨hs, hcond⟩
  | succ fuel ih =>
      cases hcond : cond s with
      | true =>
          rw [whileLoop_go hcond] at h
          exact ih (hbody s hcond hs) h
      | false =>
          rw [whileLoop_stop hcond] at h
          rw [← Option.some.inj h]
          exact ⟨hs, hcond⟩

theorem whileLoop_mono {more : ℕ} (h : whileLoop cond body fuel s = some t) (hmore : fuel ≤ more) :
    whileLoop cond body more s = some t := by
  induction fuel generalizing s more with
  | zero =>
      cases hcond : cond s with
      | true => simp [whileLoop, hcond] at h
      | false =>
          rw [whileLoop_stop hcond] at h
          rw [whileLoop_stop hcond, h]
  | succ fuel ih =>
      cases hcond : cond s with
      | true =>
          obtain ⟨more, rfl⟩ : ∃ m, more = m + 1 := ⟨more - 1, by omega⟩
          rw [whileLoop_go hcond] at h
          rw [whileLoop_go hcond]
          exact ih h (by omega)
      | false =>
          rw [whileLoop_stop hcond] at h
          rw [whileLoop_stop hcond, h]

/-- A loop halts when its test fails after some number of turns. -/
theorem halts_iff : Halts cond body s ↔ ∃ k, cond (body^[k] s) = false := by
  constructor
  · intro h
    obtain ⟨fuel, hfuel⟩ := h
    induction fuel generalizing s with
    | zero =>
        cases hcond : cond s with
        | true => simp [whileLoop, hcond] at hfuel
        | false => exact ⟨0, hcond⟩
    | succ fuel ih =>
        cases hcond : cond s with
        | true =>
            rw [whileLoop_go hcond] at hfuel
            obtain ⟨k, hk⟩ := ih hfuel
            exact ⟨k + 1, hk⟩
        | false => exact ⟨0, hcond⟩
  · intro h
    obtain ⟨k, hk⟩ := h
    refine ⟨k, ?_⟩
    induction k generalizing s with
    | zero => simp [whileLoop_stop (show cond s = false from hk)]
    | succ k ih =>
        cases hcond : cond s with
        | true =>
            rw [whileLoop_go hcond]
            exact ih hk
        | false => simp [whileLoop_stop hcond]

/-- A loop halts when the body never lets it go on past a bound. -/
theorem halts_of_measure (count : σ → ℕ) (bound : ℕ)
    (hbody : ∀ s, cond s = true → count s < count (body s))
    (hbound : ∀ k, (∀ j ≤ k, cond (body^[j] s) = true) → count (body^[k] s) ≤ bound) :
    Halts cond body s := by
  rw [halts_iff]
  by_contra hnever
  have hgo : ∀ k, cond (body^[k] s) = true := by
    intro k
    by_contra hstop
    exact hnever ⟨k, by simpa using hstop⟩
  have hcount : ∀ k, k ≤ count (body^[k] s) := by
    intro k
    induction k with
    | zero => exact Nat.zero_le _
    | succ k ih =>
        have hnext := hbody _ (hgo k)
        rw [Function.iterate_succ_apply']
        omega
  have hlate := hcount (bound + 1)
  have hearly := hbound (bound + 1) fun j _ => hgo j
  omega

/-! ## Links in a finite set -/

section

variable {go : τ → Bool} {next : τ → τ} {a : τ}

/-- The nodes from `a` on come to one where the walk stops. -/
def Leaves (go : τ → Bool) (next : τ → τ) (a : τ) : Prop := ∃ k, go (next^[k] a) = false

def Repeats (go : τ → Bool) (next : τ → τ) (a : τ) : Prop :=
  ∃ i j, i < j ∧ (∀ k ≤ j, go (next^[k] a) = true) ∧ next^[i] a = next^[j] a

theorem Repeats.goes_on (h : Repeats go next a) (k : ℕ) : go (next^[k] a) = true := by
  obtain ⟨i, j, hij, hgo, hsame⟩ := h
  induction k using Nat.strong_induction_on with
  | _ k ih =>
      by_cases hk : k ≤ j
      · exact hgo k hk
      · have hback : next^[k] a = next^[k - j + i] a := by
          rw [Function.iterate_add_apply, hsame, ← Function.iterate_add_apply]
          congr 2
          omega
        rw [hback]
        exact ih (k - j + i) (by omega)

theorem leaves_iff [Finite τ] : Leaves go next a ↔ ¬ Repeats go next a := by
  constructor
  · intro h hrepeats
    obtain ⟨k, hk⟩ := h
    rw [hrepeats.goes_on k] at hk
    exact Bool.noConfusion hk
  · intro hnot
    by_contra hnever
    apply hnot
    have hgo : ∀ k, go (next^[k] a) = true := by
      intro k
      by_contra hstop
      exact hnever ⟨k, by simpa using hstop⟩
    obtain ⟨i, j, hne, hsame⟩ := Finite.exists_ne_map_eq_of_infinite fun k => next^[k] a
    rcases Nat.lt_or_gt_of_ne hne with hlt | hgt
    · exact ⟨i, j, hlt, fun k _ => hgo k, hsame⟩
    · exact ⟨j, i, hgt, fun k _ => hgo k, hsame.symm⟩

/-- A loop that follows links halts when the links leave the set of nodes where it goes on. -/
theorem halts_iff_leaves (node : σ → τ) (hcond : ∀ s, cond s = go (node s))
    (hbody : ∀ s, node (body s) = next (node s)) : Halts cond body s ↔ Leaves go next (node s) := by
  have hnode : ∀ k, node (body^[k] s) = next^[k] (node s) := by
    intro k
    induction k with
    | zero => rfl
    | succ k ih => rw [Function.iterate_succ_apply', Function.iterate_succ_apply', hbody, ih]
  rw [halts_iff]
  constructor
  · intro h
    obtain ⟨k, hk⟩ := h
    rw [hcond, hnode] at hk
    exact ⟨k, hk⟩
  · intro h
    obtain ⟨k, hk⟩ := h
    refine ⟨k, ?_⟩
    rw [hcond, hnode, hk]

end

end Loops
