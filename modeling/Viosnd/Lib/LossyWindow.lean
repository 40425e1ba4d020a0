import Mathlib.Data.List.Nodup
import Mathlib.Data.List.Range

/-!
# Windows that lose their oldest items

A writer numbers its items upwards and a reader takes them oldest first. The window holds
`capacity` items: when a write makes it longer, its oldest items are lost.
-/

namespace LossyWindow

structure Window where
  /-- The number after the last item written. -/
  written : ℕ
  /-- The oldest item in the window. -/
  read : ℕ
  /-- The items the reader took, newest first. -/
  taken : List ℕ
  lost : List ℕ

def Window.empty : Window := ⟨0, 0, [], []⟩

/-- How many items a window that ends before `written` has to lose. -/
def Window.excess (capacity written : ℕ) (s : Window) : ℕ := written - s.read - capacity

/-- Item `n` is written; the items before it that were not written are in the window as well. -/
def Window.write (capacity n : ℕ) (s : Window) : Window where
  written := n + 1
  read := s.read + s.excess capacity (n + 1)
  taken := s.taken
  lost := List.range' s.read (s.excess capacity (n + 1)) ++ s.lost

def Window.take (s : Window) : Window where
  written := s.written
  read := s.read + 1
  taken := s.read :: s.taken
  lost := s.lost

/-- Every item up to the oldest in the window was taken or lost, once, and taken in order. -/
structure Window.Sound (capacity : ℕ) (s : Window) : Prop where
  ready : s.read ≤ s.written
  fits : s.written ≤ s.read + capacity
  increasing : s.taken.Pairwise (· > ·)
  once : (s.taken ++ s.lost).Perm (List.range s.read)

variable {capacity n : ℕ} {s : Window}

theorem Window.empty_sound (capacity : ℕ) : Window.empty.Sound capacity :=
  ⟨le_rfl, Nat.zero_le _, List.Pairwise.nil, List.Perm.refl _⟩

theorem Window.Sound.taken_lt (h : s.Sound capacity) {m : ℕ} (hm : m ∈ s.taken) : m < s.read := by
  have hmem : m ∈ s.taken ++ s.lost := List.mem_append_left _ hm
  exact List.mem_range.mp (h.once.mem_iff.mp hmem)

theorem Window.Sound.write (h : s.Sound capacity) (hn : s.written ≤ n) :
    (s.write capacity n).Sound capacity := by
  have hready := h.ready
  refine ⟨?_, ?_, h.increasing, ?_⟩
  · simp only [Window.write, Window.excess]
    omega
  · simp only [Window.write, Window.excess]
    omega
  · generalize hlost : s.excess capacity (n + 1) = k
    have hrange : List.range (s.read + k) = List.range s.read ++ List.range' s.read k := by
      rw [List.range_eq_range', List.range_eq_range', ← List.range'_append_1, Nat.zero_add]
    simp only [Window.write, hlost]
    rw [hrange]
    have hswap : (s.taken ++ (List.range' s.read k ++ s.lost)).Perm
        (s.taken ++ s.lost ++ List.range' s.read k) := by
      rw [List.append_assoc]
      exact List.perm_append_comm.append_left _
    exact hswap.trans (h.once.append_right _)

theorem Window.Sound.take (h : s.Sound capacity) (hready : s.read < s.written) :
    s.take.Sound capacity := by
  have hfits := h.fits
  refine ⟨hready, ?_, ?_, ?_⟩
  · simp only [Window.take]
    omega
  · apply List.pairwise_cons.mpr
    exact ⟨fun m hm => h.taken_lt hm, h.increasing⟩
  · simp only [Window.take, List.cons_append]
    rw [List.range_succ]
    exact (h.once.cons _).trans (List.perm_append_singleton _ _).symm

end LossyWindow
