import Mathlib.Data.List.Basic
import Mathlib.Data.Nat.ModEq
import Mathlib.Logic.Function.Basic

/-!
# Queues in a ring of slots

A ring of `capacity` slots with a head, a tail and a count holds a list: its elements stand in the
slots from the head on, and the tail is the slot after the last one.
-/

namespace RingQueue

variable {β : Type*}

/-- The ring holds the elements of the list, in this order. -/
structure Holds (slots : ℕ → β) (capacity head tail count : ℕ) (l : List β) : Prop where
  head_lt : head < capacity
  fits : count ≤ capacity
  length : l.length = count
  tail_eq : tail = (head + count) % capacity
  slot : ∀ i < count, l[i]? = some (slots ((head + i) % capacity))

variable {slots : ℕ → β} {capacity head tail count : ℕ} {l : List β}

theorem holds_nil (slots : ℕ → β) (h : 0 < capacity) : Holds slots capacity 0 0 0 [] :=
  ⟨h, Nat.zero_le _, rfl, (Nat.zero_mod _).symm, fun _ hi => absurd hi (Nat.not_lt_zero _)⟩

theorem slot_ne {i j : ℕ} (hij : i < j) (hj : j < i + capacity) :
    (head + i) % capacity ≠ (head + j) % capacity := by
  intro heq
  have hdvd : capacity ∣ j - i := by
    have hsub := (Nat.modEq_iff_dvd' (by omega)).mp (show Nat.ModEq _ _ _ from heq)
    rwa [Nat.add_sub_add_left] at hsub
  have hle := Nat.le_of_dvd (by omega) hdvd
  omega

def contents (slots : ℕ → β) (capacity head count : ℕ) : List β :=
  (List.range count).map fun i => slots ((head + i) % capacity)

variable (h : Holds slots capacity head tail count l)
include h

theorem Holds.eq_contents : l = contents slots capacity head count := by
  apply List.ext_getElem?
  intro i
  unfold contents
  rw [List.getElem?_map]
  rcases Nat.lt_or_ge i count with hlt | hge
  · rw [h.slot i hlt, List.getElem?_range hlt]
    rfl
  · rw [List.getElem?_eq_none (by rw [h.length]; exact hge), List.getElem?_eq_none (by simpa)]
    rfl

theorem Holds.eq_nil (hcount : count = 0) : l = [] :=
  List.eq_nil_of_length_eq_zero (h.length.trans hcount)

theorem Holds.front (hcount : count ≠ 0) : ∃ rest, l = slots head :: rest := by
  have hfirst := h.slot 0 (by omega)
  rw [Nat.add_zero, Nat.mod_eq_of_lt h.head_lt] at hfirst
  cases l with
  | nil => simp at hfirst
  | cons b rest =>
      obtain rfl : b = slots head := by simpa using hfirst
      exact ⟨rest, rfl⟩

theorem Holds.push (hroom : count < capacity) (b : β) :
    Holds (Function.update slots tail b) capacity head ((tail + 1) % capacity) (count + 1)
      (l ++ [b]) := by
  obtain ⟨hhead, hfits, hlength, rfl, hslot⟩ := h
  refine ⟨hhead, hroom, by simp [hlength], ?_, fun i hi => ?_⟩
  · rw [Nat.mod_add_mod, Nat.add_assoc]
  · rcases Nat.lt_or_eq_of_le (Nat.le_of_lt_succ hi) with hlt | rfl
    · rw [Function.update_of_ne (slot_ne hlt (by omega)), List.getElem?_append_left (by omega),
        hslot i hlt]
    · rw [Function.update_self, List.getElem?_append_right (by omega), hlength]
      simp

theorem Holds.pop (hcount : count ≠ 0) :
    Holds slots capacity ((head + 1) % capacity) tail (count - 1) l.tail := by
  obtain ⟨hhead, hfits, hlength, rfl, hslot⟩ := h
  refine ⟨Nat.mod_lt _ (by omega), by omega, by simp [hlength], ?_, fun i hi => ?_⟩
  · rw [Nat.mod_add_mod]
    congr 1
    omega
  · rw [List.getElem?_tail, hslot (i + 1) (by omega), Nat.mod_add_mod]
    congr 3
    omega

end RingQueue
