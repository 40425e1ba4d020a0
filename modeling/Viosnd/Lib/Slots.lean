import Mathlib.Data.List.Basic
import Mathlib.Logic.Function.Basic

/-!
# Stacks in an array of slots

An array of optional values and a count hold a list when the first `count` slots are its elements
and the later slots are empty.
-/

namespace Slots

variable {β : Type*}

/-- The first `count` slots are the list, the others are empty. -/
def Holds (slots : ℕ → Option β) (count : ℕ) (l : List β) : Prop :=
  l.length = count ∧ ∀ i, slots i = l[i]?

variable {slots : ℕ → Option β} {count : ℕ} {l : List β} {b : β}

theorem holds_nil : Holds (fun _ => (none : Option β)) 0 [] := ⟨rfl, fun i => by simp⟩

theorem Holds.filled (h : Holds slots count l) {i : ℕ} (hi : i < count) :
    ∃ b ∈ l, slots i = some b := by
  obtain ⟨hlength, hslots⟩ := h
  have hi' : i < l.length := by omega
  exact ⟨l[i], List.getElem_mem hi', by rw [hslots, List.getElem?_eq_getElem hi']⟩

theorem Holds.vacant (h : Holds slots count l) {i : ℕ} (hi : count ≤ i) : slots i = none := by
  obtain ⟨hlength, hslots⟩ := h
  rw [hslots, List.getElem?_eq_none (by omega)]

theorem Holds.top (h : Holds slots count l) (hcount : count ≠ 0)
    (htop : slots (count - 1) = some b) : l = l.dropLast ++ [b] := by
  obtain ⟨hlength, hslots⟩ := h
  have hne : l ≠ [] := by
    rintro rfl
    exact hcount hlength.symm
  have hlast : l.getLast hne = b := by
    rw [List.getLast_eq_getElem]
    have hindex : l[count - 1]? = some b := by rw [← hslots, htop]
    rw [List.getElem?_eq_some_iff] at hindex
    obtain ⟨hlt, hget⟩ := hindex
    simpa only [hlength] using hget
  rw [← hlast, List.dropLast_append_getLast]

theorem Holds.push (h : Holds slots count l) (b : β) :
    Holds (Function.update slots count (some b)) (count + 1) (l ++ [b]) := by
  obtain ⟨hlength, hslots⟩ := h
  refine ⟨by simp [hlength], fun i => ?_⟩
  rcases Nat.lt_trichotomy i count with hi | hi | hi
  · rw [Function.update_of_ne (by omega), hslots, List.getElem?_append_left (by omega)]
  · subst hi
    rw [Function.update_self, List.getElem?_append_right (by omega), hlength]
    simp
  · rw [Function.update_of_ne (by omega), hslots, List.getElem?_eq_none (by omega),
      List.getElem?_eq_none (by simp; omega)]

theorem Holds.pop (h : Holds slots count l) :
    Holds (Function.update slots (count - 1) none) (count - 1) l.dropLast := by
  obtain ⟨hlength, hslots⟩ := h
  refine ⟨by simp [hlength], fun i => ?_⟩
  rcases Nat.lt_trichotomy i (count - 1) with hi | hi | hi
  · rw [Function.update_of_ne (by omega), hslots, List.getElem?_dropLast, if_pos (by omega)]
  · subst hi
    rw [Function.update_self, List.getElem?_eq_none (by simp [hlength])]
  · rw [Function.update_of_ne (by omega), hslots, List.getElem?_eq_none (by omega),
      List.getElem?_eq_none (by simp; omega)]

end Slots
