import Mathlib.Data.Nat.Basic

/-!
# Slots of a buffer

A buffer of `count` slots of one size is written round and round: item `p` is in slot `p % count`.
Every part of a slot is a range of the buffer, and two layouts put all items in the same places
only when they are one.
-/

namespace SlotRanges

/-- The positions `[start, start + length)`. -/
structure Range where
  start : ℕ
  length : ℕ
  deriving DecidableEq

/-- The range lies in a buffer of `size` positions. -/
def Range.Inside (r : Range) (size : ℕ) : Prop := r.start + r.length ≤ size

instance (r : Range) (size : ℕ) : Decidable (r.Inside size) := inferInstanceAs (Decidable (_ ≤ _))

def slot (count size p : ℕ) : Range := ⟨p % count * size, size⟩

variable {α : Type*} {count size other m p : ℕ} {r : Range}

theorem slot_inside (hcount : 0 < count) (size p : ℕ) :
    (slot count size p).Inside (count * size) := by
  have hlt : p % count + 1 ≤ count := Nat.mod_lt p hcount
  calc p % count * size + size = (p % count + 1) * size := (Nat.succ_mul _ _).symm
    _ ≤ count * size := Nat.mul_le_mul_right size hlt

theorem Range.Inside.part (h : r.Inside m) {first n : ℕ} (hpart : first + n ≤ r.length) :
    Range.Inside ⟨r.start + first, n⟩ m := by
  unfold Range.Inside at h ⊢
  dsimp only
  omega

theorem slot_ne (hsize : 0 < size) (hpos : 0 < count) (hless : count < other) :
    slot count size count ≠ slot other size count := by
  intro heq
  have hstart := congrArg Range.start heq
  simp only [slot, Nat.mod_self, Nat.mod_eq_of_lt hless, Nat.zero_mul] at hstart
  exact Nat.ne_of_lt (Nat.mul_pos hpos hsize) hstart

/-- The layouts agree on the items below `m` only when they are one. -/
theorem slots_eq_iff {size' : ℕ} (hsize : 0 < size) (hpos : 0 < count) (hpos' : 0 < other)
    (hcount : count < m) (hother : other < m) :
    (∀ p < m, slot count size p = slot other size' p) ↔ count = other ∧ size = size' := by
  constructor
  · intro hall
    have hlength : size = size' := congrArg Range.length (hall count hcount)
    subst hlength
    refine ⟨?_, rfl⟩
    rcases Nat.lt_trichotomy count other with hless | heq | hgreater
    · exact absurd (hall count hcount) (slot_ne hsize hpos hless)
    · exact heq
    · exact absurd (hall other hother).symm (slot_ne hsize hpos' hgreater)
  · intro heq p _
    rw [heq.1, heq.2]

def AgreeOn (r : Range) (f g : ℕ → α) : Prop :=
  ∀ i, r.start ≤ i → i < r.start + r.length → f i = g i

end SlotRanges
