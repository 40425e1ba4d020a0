import Mathlib.Data.Nat.ModEq
import Mathlib.Logic.Function.Basic

/-!
# Laps of a ring

A ring of `size` slots that is gone round again and again is a sequence of positions without end:
position `p` is slot `p % size`, and its phase tells odd laps from even ones. Rings whose slots are
marked with the phase of the lap they were written in need no counters that both sides share.
-/

namespace Laps

variable {size p q n : ℕ}

def slot (size p : ℕ) : ℕ := p % size

/-- `true` on the first lap, and on every other one. -/
def phase (size p : ℕ) : Bool := decide (p / size % 2 = 0)

theorem slot_lt (hsize : 0 < size) (p : ℕ) : slot size p < size := Nat.mod_lt p hsize

@[simp] theorem slot_add_size (size p : ℕ) : slot size (p + size) = slot size p :=
  Nat.add_mod_right p size

theorem phase_add_size (hsize : 0 < size) (p : ℕ) : phase size (p + size) = !phase size p := by
  unfold phase
  rw [Nat.add_div_right p hsize, Bool.eq_iff_iff]
  simp only [decide_eq_true_eq, Bool.not_eq_true', decide_eq_false_iff_not]
  omega

@[simp] theorem slot_zero (size : ℕ) : slot size 0 = 0 := Nat.zero_mod size

@[simp] theorem phase_zero (size : ℕ) : phase size 0 = true := by
  simp [phase]

/-- Positions less than one lap apart are different slots. -/
theorem slot_ne (hlt : p < q) (hlap : q < p + size) : slot size q ≠ slot size p := by
  intro heq
  have hmod : p ≡ q [MOD size] := heq.symm
  have hdvd := (Nat.modEq_iff_dvd' (Nat.le_of_lt hlt)).mp hmod
  have hle := Nat.le_of_dvd (by omega) hdvd
  omega

/-- A side of the ring is at a position when it stands at its slot and knows its phase. -/
structure At (size p : ℕ) (index : ℕ) (wrap : Bool) : Prop where
  index_eq : index = slot size p
  wrap_eq : wrap = phase size p

/-- Going on by at most a lap, with one test for the end of the ring. -/
def advance (size index : ℕ) (wrap : Bool) (n : ℕ) : ℕ × Bool :=
  if size ≤ index + n then (index + n - size, !wrap) else (index + n, wrap)

theorem At.advance {index : ℕ} {wrap : Bool} (h : At size p index wrap) (hsize : 0 < size)
    (hn : n ≤ size) :
    At size (p + n) (advance size index wrap n).1 (advance size index wrap n).2 := by
  obtain ⟨rfl, rfl⟩ := h
  have hlt := slot_lt hsize p
  have hsplit : slot size p + size * (p / size) = p := Nat.mod_add_div p size
  unfold Laps.advance
  split_ifs with hwrap
  · have hp : p + n = (slot size p + n - size) + size * (p / size + 1) := by
      rw [Nat.mul_add, Nat.mul_one]
      omega
    have hrest : slot size p + n - size < size := by omega
    constructor
    · show _ = (p + n) % size
      rw [hp, Nat.add_mul_mod_self_left, Nat.mod_eq_of_lt hrest]
    · unfold phase
      rw [hp, Nat.add_mul_div_left _ _ hsize, Nat.div_eq_of_lt hrest, Bool.eq_iff_iff]
      simp only [Bool.not_eq_true', decide_eq_false_iff_not, decide_eq_true_eq]
      omega
  · have hp : p + n = (slot size p + n) + size * (p / size) := by omega
    have hrest : slot size p + n < size := by omega
    constructor
    · show _ = (p + n) % size
      rw [hp, Nat.add_mul_mod_self_left, Nat.mod_eq_of_lt hrest]
    · unfold phase
      rw [hp, Nat.add_mul_div_left _ _ hsize, Nat.div_eq_of_lt hrest, Nat.zero_add]

/-- Going on by one slot: the slot behind the last one is the first. -/
theorem At.succ {index : ℕ} {wrap : Bool} (h : At size p index wrap) (hsize : 0 < size) :
    At size (p + 1) (if size ≤ index + 1 then 0 else index + 1)
      (if size ≤ index + 1 then !wrap else wrap) := by
  have hnext := h.advance hsize (n := 1) hsize
  have hlt := slot_lt hsize p
  rw [← h.index_eq] at hlt
  unfold Laps.advance at hnext
  split_ifs at hnext ⊢ with hwrap
  · rwa [show index + 1 - size = 0 by omega] at hnext
  · exact hnext

theorem at_zero (size : ℕ) : At size 0 0 true := ⟨(slot_zero size).symm, (phase_zero size).symm⟩

theorem update_slot_of_ne {β : Type*} (slots : ℕ → β) (b : β) (hne : p ≠ q)
    (hnear : p < q + size) (hnear' : q < p + size) :
    Function.update slots (slot size p) b (slot size q) = slots (slot size q) := by
  apply Function.update_of_ne
  rcases Nat.lt_or_gt_of_ne hne with hlt | hgt
  · exact slot_ne hlt hnear'
  · exact (slot_ne hgt hnear).symm

/-! ## Looking back -/

/-- The position `n` back, over `laps` ends of the ring. -/
theorem slot_div_back {laps s : ℕ} (hp : p + n = q) (hs : s + n = slot size q + size * laps)
    (hlt : s < size) : slot size p = s ∧ p / size + laps = q / size := by
  have hsize : 0 < size := by omega
  have hq : slot size q + size * (q / size) = q := Nat.mod_add_div q size
  have hsum : p + size * laps = s + size * (q / size) := by omega
  constructor
  · have hmod : (p + size * laps) % size = (s + size * (q / size)) % size := by rw [hsum]
    rwa [Nat.add_mul_mod_self_left, Nat.add_mul_mod_self_left, Nat.mod_eq_of_lt hlt] at hmod
  · have hdiv : (p + size * laps) / size = (s + size * (q / size)) / size := by rw [hsum]
    rwa [Nat.add_mul_div_left _ _ hsize, Nat.add_mul_div_left _ _ hsize, Nat.div_eq_of_lt hlt,
      Nat.zero_add] at hdiv

theorem back_zero (hp : p + n = q) (hsize : 0 < size) (hn : n ≤ slot size q) :
    slot size p + n = slot size q ∧ phase size p = phase size q := by
  have hlt := slot_lt hsize q
  have hs : slot size q - n + n = slot size q + size * 0 := by omega
  obtain ⟨hslot, hlap⟩ := slot_div_back hp hs (by omega)
  refine ⟨by omega, ?_⟩
  unfold phase
  rw [← hlap, Nat.add_zero]

theorem back_one (hp : p + n = q) (hn : slot size q < n)
    (hn' : n ≤ slot size q + size) :
    slot size p + n = slot size q + size ∧ phase size p = !phase size q := by
  have hs : slot size q + size - n + n = slot size q + size * 1 := by omega
  obtain ⟨hslot, hlap⟩ := slot_div_back hp hs (by omega)
  refine ⟨by omega, ?_⟩
  unfold phase
  rw [← hlap, Bool.eq_iff_iff]
  simp only [decide_eq_true_eq, Bool.not_eq_true', decide_eq_false_iff_not]
  omega

theorem back_two (hp : p + n = q) (hn : slot size q + size < n)
    (hn' : n ≤ slot size q + 2 * size) :
    slot size p + n = slot size q + 2 * size ∧ phase size p = phase size q := by
  have hs : slot size q + 2 * size - n + n = slot size q + size * 2 := by omega
  obtain ⟨hslot, hlap⟩ := slot_div_back hp hs (by omega)
  refine ⟨by omega, ?_⟩
  unfold phase
  rw [← hlap, Bool.eq_iff_iff]
  simp only [decide_eq_true_eq]
  omega

end Laps
