import Mathlib.Data.List.Nodup
import Mathlib.Data.List.Perm.Basic

/-!
# Tokens of marked slots

A party hands out tokens, each for a slot of its own, and marks the slot until the token is back.
The marks and the tokens match when each marked slot has exactly one token.
-/

namespace Tokens

variable {τ : Type*}

/-- The marked slots are those of the tokens, and each has one token. -/
structure Matched (slot : τ → ℕ) (tokens : List τ) (marked : ℕ → Prop) : Prop where
  distinct : (tokens.map slot).Nodup
  marks : ∀ i, i ∈ tokens.map slot ↔ marked i

variable {slot : τ → ℕ} {tokens tokens' : List τ} {marked marked' : ℕ → Prop} {t : τ}

theorem matched_nil (h : ∀ i, ¬ marked i) : Matched slot [] marked :=
  ⟨List.nodup_nil, fun i => iff_of_false List.not_mem_nil (h i)⟩

theorem Matched.of_perm (h : Matched slot tokens marked) (hperm : tokens'.Perm tokens)
    (hmarks : ∀ i, marked' i ↔ marked i) : Matched slot tokens' marked' := by
  have hslots := hperm.map slot
  refine ⟨hslots.nodup_iff.mpr h.distinct, fun i => ?_⟩
  rw [hslots.mem_iff, h.marks, hmarks]

theorem Matched.mem (h : Matched slot tokens marked) (ht : t ∈ tokens) : marked (slot t) :=
  (h.marks _).mp (List.mem_map_of_mem ht)

theorem Matched.add (h : Matched slot tokens marked) (hperm : tokens'.Perm (t :: tokens))
    (hfree : ¬ marked (slot t)) (hmarks : ∀ i, marked' i ↔ i = slot t ∨ marked i) :
    Matched slot tokens' marked' := by
  have hslots := hperm.map slot
  have hnew : slot t ∉ tokens.map slot := fun hmem => hfree ((h.marks _).mp hmem)
  refine ⟨hslots.nodup_iff.mpr (List.nodup_cons.mpr ⟨hnew, h.distinct⟩), fun i => ?_⟩
  rw [hslots.mem_iff, List.map_cons, List.mem_cons, h.marks, hmarks]

theorem Matched.remove (h : Matched slot tokens marked) (hperm : tokens.Perm (t :: tokens'))
    (hmarks : ∀ i, marked' i ↔ i ≠ slot t ∧ marked i) : Matched slot tokens' marked' := by
  have hslots := hperm.map slot
  rw [List.map_cons] at hslots
  obtain ⟨hgone, hdistinct⟩ := List.nodup_cons.mp (hslots.nodup_iff.mp h.distinct)
  refine ⟨hdistinct, fun i => ?_⟩
  rw [hmarks, ← h.marks, hslots.mem_iff, List.mem_cons]
  constructor
  · intro hmem
    exact ⟨fun heq => hgone (heq ▸ hmem), Or.inr hmem⟩
  · rintro ⟨hne, heq | hmem⟩
    · exact absurd heq hne
    · exact hmem

theorem Matched.filter (h : Matched slot tokens marked) {i : ℕ} {keep : τ → Bool}
    (hkeep : ∀ t ∈ tokens, keep t = true ↔ slot t ≠ i)
    (hmarks : ∀ j, marked' j ↔ j ≠ i ∧ marked j) : Matched slot (tokens.filter keep) marked' := by
  refine ⟨h.distinct.sublist (List.filter_sublist.map slot), fun j => ?_⟩
  rw [hmarks, ← h.marks]
  simp only [List.mem_map, List.mem_filter]
  constructor
  · intro ⟨t, ht, hslot⟩
    exact ⟨hslot ▸ (hkeep t ht.1).mp ht.2, t, ht.1, hslot⟩
  · intro ⟨hne, t, ht, hslot⟩
    exact ⟨t, ⟨ht, (hkeep t ht).mpr (hslot ▸ hne)⟩, hslot⟩

theorem Matched.subperm_range (h : Matched slot tokens marked) {n : ℕ}
    (hbound : ∀ i, marked i → i < n) : (tokens.map slot).Subperm (List.range n) := by
  apply List.subperm_of_subset h.distinct
  intro i hi
  exact List.mem_range.mpr (hbound i ((h.marks i).mp hi))

theorem Matched.length_le (h : Matched slot tokens marked) {n : ℕ}
    (hbound : ∀ i, marked i → i < n) : tokens.length ≤ n := by
  have hle := (h.subperm_range hbound).length_le
  rwa [List.length_map, List.length_range] at hle

/-- A slot is left as long as there are fewer tokens than slots. -/
theorem Matched.exists_unmarked_iff (h : Matched slot tokens marked) {n : ℕ}
    (hbound : ∀ i, marked i → i < n) : (∃ i < n, ¬ marked i) ↔ tokens.length < n := by
  have hperm := h.subperm_range hbound
  have hle := h.length_le hbound
  constructor
  · intro ⟨i, hi, hfree⟩
    apply Nat.lt_of_le_of_ne hle
    intro hfull
    have hall := hperm.perm_of_length_le (by simp [hfull])
    exact hfree ((h.marks i).mp (hall.mem_iff.mpr (List.mem_range.mpr hi)))
  · intro hless
    by_contra hnone
    push Not at hnone
    have hrange : List.range n ⊆ tokens.map slot := by
      intro i hi
      exact (h.marks i).mpr (hnone i (List.mem_range.mp hi))
    have hge := (List.subperm_of_subset List.nodup_range hrange).length_le
    rw [List.length_map, List.length_range] at hge
    omega

theorem Matched.slot_ne (h : Matched slot tokens marked) (hperm : tokens.Perm (t :: tokens'))
    {other : τ} (hother : other ∈ tokens') : slot other ≠ slot t := by
  have hslots := hperm.map slot
  rw [List.map_cons] at hslots
  obtain ⟨hgone, -⟩ := List.nodup_cons.mp (hslots.nodup_iff.mp h.distinct)
  exact fun heq => hgone (heq ▸ List.mem_map_of_mem hother)

end Tokens
