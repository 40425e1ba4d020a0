import Mathlib.Data.List.Nodup
import Mathlib.Data.List.Perm.Basic

/-!
# Queues whose items are taken or dropped

Items wait in a queue until they are taken or dropped. What happens to the front item may be decided
before it is removed: it is taken or dropped first and leaves the queue later. The ledger is
balanced when every item that left was taken or dropped, once and in the order of queueing.
-/

namespace QueueLedger

variable {β : Type*}

structure Balanced (queued taken dropped waiting decided : List β) : Prop where
  split : ∃ gone, queued = gone ++ waiting ∧ (taken ++ dropped).Perm (gone ++ decided) ∧
    taken.Sublist (gone ++ decided) ∧ dropped.Sublist (gone ++ decided)
  front : decided <+: waiting

variable {queued taken dropped waiting decided : List β} {b : β}

theorem balanced_nil : Balanced ([] : List β) [] [] [] [] :=
  ⟨⟨[], rfl, List.Perm.refl _, List.nil_sublist _, List.nil_sublist _⟩, List.nil_prefix⟩

section

variable (h : Balanced queued taken dropped waiting decided)
include h

theorem Balanced.queue (b : β) :
    Balanced (queued ++ [b]) taken dropped (waiting ++ [b]) decided := by
  obtain ⟨⟨gone, rfl, hperm, htaken, hdropped⟩, hfront⟩ := h
  refine ⟨⟨gone, List.append_assoc .., hperm, htaken, hdropped⟩, ?_⟩
  exact hfront.trans (List.prefix_append _ _)

/-- The decided part lies at the beginning of the queue. -/
theorem Balanced.gone_prefix {gone : List β} (hqueued : queued = gone ++ waiting) :
    gone ++ decided <+: queued := by
  rw [hqueued]
  exact (List.prefix_append_right_inj gone).mpr h.front

theorem Balanced.taken_sublist : taken.Sublist queued := by
  obtain ⟨gone, hqueued, -, htaken, -⟩ := h.split
  exact htaken.trans (h.gone_prefix hqueued).sublist

theorem Balanced.nodup (hqueued : queued.Nodup) : (taken ++ dropped).Nodup := by
  obtain ⟨gone, hsplit, hperm, -, -⟩ := h.split
  rw [hperm.nodup_iff]
  exact hqueued.sublist (h.gone_prefix hsplit).sublist

theorem Balanced.complete (hb : b ∈ queued) : b ∈ taken ∨ b ∈ dropped ∨ b ∈ waiting := by
  obtain ⟨gone, rfl, hperm, -, -⟩ := h.split
  rcases List.mem_append.mp hb with hgone | hwaiting
  · have hmem := hperm.mem_iff.mpr (List.mem_append_left _ hgone)
    rcases List.mem_append.mp hmem with htaken | hdropped
    · exact Or.inl htaken
    · exact Or.inr (Or.inl hdropped)
  · exact Or.inr (Or.inr hwaiting)

theorem Balanced.decided_mem (hb : b ∈ decided) : b ∈ taken ++ dropped := by
  obtain ⟨gone, -, hperm, -, -⟩ := h.split
  exact hperm.mem_iff.mpr (List.mem_append_right _ hb)

end

section

variable {rest : List β}

theorem Balanced.take (h : Balanced queued taken dropped (b :: rest) []) :
    Balanced queued (taken ++ [b]) dropped (b :: rest) [b] := by
  obtain ⟨⟨gone, hqueued, hperm, htaken, hdropped⟩, -⟩ := h
  rw [List.append_nil] at hperm htaken hdropped
  refine ⟨⟨gone, hqueued, ?_, htaken.append_right _, ?_⟩, List.prefix_append [b] rest⟩
  · calc (taken ++ [b]) ++ dropped
        = taken ++ b :: dropped := by simp
      _ |>.Perm (b :: (taken ++ dropped)) := List.perm_middle
      _ |>.Perm (b :: gone) := hperm.cons b
      _ |>.Perm (gone ++ [b]) := (List.perm_append_singleton b gone).symm
  · exact hdropped.trans (List.sublist_append_left _ _)

theorem Balanced.drop (h : Balanced queued taken dropped (b :: rest) []) :
    Balanced queued taken (dropped ++ [b]) (b :: rest) [b] := by
  obtain ⟨⟨gone, hqueued, hperm, htaken, hdropped⟩, -⟩ := h
  rw [List.append_nil] at hperm htaken hdropped
  refine ⟨⟨gone, hqueued, ?_, ?_, hdropped.append_right _⟩, List.prefix_append [b] rest⟩
  · rw [← List.append_assoc]
    exact hperm.append_right [b]
  · exact htaken.trans (List.sublist_append_left _ _)

theorem Balanced.remove (h : Balanced queued taken dropped (b :: rest) [b]) :
    Balanced queued taken dropped rest [] := by
  obtain ⟨⟨gone, hqueued, hperm, htaken, hdropped⟩, -⟩ := h
  refine ⟨⟨gone ++ [b], by simp [hqueued], ?_, ?_, ?_⟩, List.nil_prefix⟩
  · rwa [List.append_nil]
  · rwa [List.append_nil]
  · rwa [List.append_nil]

end

end QueueLedger
