import Mathlib.Data.Int.Basic
import Mathlib.Tactic.Ring

/-!
# Objects with shared ownership

An object is kept by counted references. A party takes a reference while another one is held, and
the party that drops the last one owes the deletion of the object.
-/

namespace SharedObject

/-- The count is the number of references held; when there are none the object is deleted or one
party owes its deletion. -/
structure Counted (count : ℤ) (holders owing deletions : ℕ) : Prop where
  count_eq : count = holders
  owed : owing + deletions = if holders = 0 then 1 else 0

variable {count : ℤ} {holders owing deletions : ℕ}

theorem counted_new : Counted 1 1 0 0 := ⟨rfl, rfl⟩

theorem Counted.take (h : Counted count holders owing deletions) (hheld : holders ≠ 0) :
    Counted (count + 1) (holders + 1) owing deletions := by
  obtain ⟨hcount, howed⟩ := h
  rw [if_neg hheld] at howed
  refine ⟨?_, ?_⟩
  · rw [hcount]
    exact (Nat.cast_succ holders).symm
  · rw [howed, if_neg (Nat.succ_ne_zero holders)]

theorem Counted.drop (h : Counted count (holders + 1) owing deletions) :
    Counted (count - 1) holders (owing + if count - 1 = 0 then 1 else 0) deletions := by
  obtain ⟨hcount, howed⟩ := h
  rw [if_neg (Nat.succ_ne_zero holders)] at howed
  have hless : count - 1 = holders := by
    rw [hcount, Nat.cast_succ]
    ring
  refine ⟨hless, ?_⟩
  rw [hless]
  by_cases hnone : holders = 0
  · rw [if_pos (by simp [hnone]), if_pos hnone]
    omega
  · rw [if_neg (by simpa using hnone), if_neg hnone]
    omega

theorem Counted.delete (h : Counted count holders (owing + 1) deletions) :
    Counted count holders owing (deletions + 1) := by
  obtain ⟨hcount, howed⟩ := h
  refine ⟨hcount, ?_⟩
  rw [← howed]
  omega

/-- The object is there while someone holds it or owes its deletion. -/
theorem Counted.alive (h : Counted count holders owing deletions)
    (hneeded : holders ≠ 0 ∨ owing ≠ 0) : deletions = 0 := by
  have howed := h.owed
  rcases hneeded with hheld | howing
  · rw [if_neg hheld] at howed
    omega
  · split_ifs at howed <;> omega

theorem Counted.once (h : Counted count holders owing deletions) : deletions ≤ 1 := by
  have howed := h.owed
  split_ifs at howed <;> omega

theorem Counted.over (h : Counted count 0 0 deletions) : deletions = 1 := by
  have howed := h.owed
  rw [if_pos rfl] at howed
  omega

end SharedObject
