import Mathlib

/-!
# Clocks that run from a base

A clock is at rest at its base, or has run since some time and shows the base and what the time
since then amounts to. A clock that is started anew shows its new base, so it steps back exactly
when the new base is below the old reading.
-/

namespace RunningClock

/-- What `ticks` amount to at `rate` units for every `frequency` ticks, in whole grains. -/
def elapsed (rate frequency grain ticks : ℕ) : ℕ :=
  ticks * rate / frequency - ticks * rate / frequency % grain

theorem elapsed_mono (rate frequency grain : ℕ) : Monotone (elapsed rate frequency grain) := by
  intro s t hst
  have hunits : s * rate / frequency ≤ t * rate / frequency :=
    Nat.div_le_div_right (Nat.mul_le_mul_right rate hst)
  unfold elapsed
  rw [← Nat.mul_div_self_eq_mod_sub_self, ← Nat.mul_div_self_eq_mod_sub_self]
  exact Nat.mul_le_mul_left grain (Nat.div_le_div_right hunits)

structure Clock where
  base : ℕ
  /-- The time the clock was started at, when it runs. -/
  started : Option ℤ

/-- What the clock shows at time `t`. -/
def Clock.read (advance : ℕ → ℕ) (c : Clock) (t : ℤ) : ℕ :=
  match c.started with
  | none => c.base
  | some start => c.base + advance (t - start).toNat

variable {advance : ℕ → ℕ} {c : Clock}

theorem Clock.read_mono (hadvance : Monotone advance) : Monotone (c.read advance) := by
  intro s t hst
  unfold Clock.read
  split
  · exact le_rfl
  · exact Nat.add_le_add_left (hadvance (Int.toNat_le_toNat (by omega))) _

end RunningClock
