import Mathlib.Data.Nat.ModEq

/-!
# Quotients of residues

A product that does not fit a word leaves its residue. The quotient of the residue is that of the
product only when nothing was cut off, or when both quotients are zero.
-/

namespace Residues

variable {p m g : ℕ}

theorem mod_div_lt (hg : 0 < g) (hm : m ≤ p) (hgp : g ≤ p) (hpos : 0 < m) :
    p % m / g < p / g := by
  rcases Nat.lt_or_ge m g with hlt | hge
  · have hsmall : p % m < g := Nat.lt_trans (Nat.mod_lt p hpos) hlt
    rw [Nat.div_eq_of_lt hsmall]
    exact Nat.div_pos hgp hg
  · have hcut : p % m + m ≤ p := by
      have hsplit := Nat.mod_add_div p m
      have hone : 1 ≤ p / m := Nat.div_pos hm hpos
      have hmul : m * 1 ≤ m * (p / m) := Nat.mul_le_mul_left m hone
      omega
    calc p % m / g < p % m / g + 1 := Nat.lt_succ_self _
      _ = (p % m + g) / g := (Nat.add_div_right _ hg).symm
      _ ≤ p / g := Nat.div_le_div_right (by omega)

theorem mod_div_eq_iff (hg : 0 < g) (hpos : 0 < m) : p % m / g = p / g ↔ p < m ∨ p < g := by
  constructor
  · intro heq
    by_contra hnot
    rw [not_or, Nat.not_lt, Nat.not_lt] at hnot
    exact Nat.ne_of_lt (mod_div_lt hg hnot.1 hnot.2 hpos) heq
  · intro hsmall
    rcases hsmall with hfits | hzero
    · rw [Nat.mod_eq_of_lt hfits]
    · rw [Nat.div_eq_of_lt hzero, Nat.div_eq_of_lt (Nat.lt_of_le_of_lt (Nat.mod_le p m) hzero)]

theorem div_sub_mod_eq (p f grain : ℕ) : p / f - p / f % grain = grain * (p / (f * grain)) := by
  rw [← Nat.mul_div_self_eq_mod_sub_self, Nat.div_div_eq_div_mul]

end Residues
