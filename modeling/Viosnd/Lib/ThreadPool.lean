import Mathlib.Data.List.Nodup
import Mathlib.Data.List.Perm.Basic

/-!
# Pools of threads

A pool is a list of places in the code, one for each thread. A step moves one thread from the place
`a` to the place `b`; what the other threads do does not change.
-/

namespace ThreadPool

variable {π γ : Type*} {threads : List π} {t : ℕ} {a b c : π}

theorem mem_of_mem_move (h : c ∈ threads.set t b) : c ∈ threads ∨ c = b :=
  List.mem_or_eq_of_mem_set h

theorem countP_le_one {threads : List π} {p : π → Bool}
    (hone : ∀ (t u : ℕ) (a b : π), threads[t]? = some a → threads[u]? = some b →
      p a = true → p b = true → t = u) : threads.countP p ≤ 1 := by
  induction threads with
  | nil => exact Nat.zero_le 1
  | cons c threads ih =>
      rw [List.countP_cons]
      by_cases hc : p c = true
      · have hrest : threads.countP p = 0 := by
          rw [List.countP_eq_zero]
          intro b hb hpb
          obtain ⟨u, hu⟩ := List.getElem?_of_mem hb
          exact absurd (hone 0 (u + 1) c b rfl hu hc hpb) (Nat.succ_ne_zero u).symm
        rw [if_pos hc]
        omega
      · rw [if_neg hc]
        exact ih fun t u a b ha hb hpa hpb => Nat.succ.inj (hone (t + 1) (u + 1) a b ha hb hpa hpb)

section

variable (h : threads[t]? = some a)
include h

theorem moved_mem (b : π) : b ∈ threads.set t b :=
  List.mem_set (List.getElem?_eq_some_iff.mp h).1 b

theorem split_move (b : π) : ∃ before after, threads = before ++ a :: after ∧
    threads.set t b = before ++ b :: after := by
  obtain ⟨hlt, rfl⟩ := List.getElem?_eq_some_iff.mp h
  refine ⟨threads.take t, threads.drop (t + 1), ?_, List.set_eq_take_append_cons_drop ..|>.trans ?_⟩
  · rw [List.getElem_cons_drop, List.take_append_drop]
  · rw [if_pos hlt]

theorem mem_move_of_mem (hc : c ∈ threads) : c = a ∨ c ∈ threads.set t b := by
  obtain ⟨before, after, hbefore, hafter⟩ := split_move h b
  rw [hbefore] at hc
  rw [hafter]
  simp only [List.mem_append, List.mem_cons] at hc ⊢
  tauto

theorem countP_move (p : π → Bool) (b : π) :
    (threads.set t b).countP p + (p a).toNat = threads.countP p + (p b).toNat := by
  obtain ⟨before, after, hbefore, hafter⟩ := split_move h b
  rw [hafter, hbefore]
  simp only [List.countP_append, List.countP_cons]
  cases p a <;> cases p b <;> simp <;> omega

theorem filterMap_move (f : π → Option γ) (b : π) :
    ((f a).toList ++ (threads.set t b).filterMap f).Perm
      ((f b).toList ++ threads.filterMap f) := by
  obtain ⟨before, after, hbefore, hafter⟩ := split_move h b
  rw [hafter, hbefore]
  simp only [List.filterMap_append, List.filterMap_cons]
  cases f a with
  | none =>
      cases f b with
      | none => exact List.Perm.refl _
      | some y => exact List.perm_middle
  | some x =>
      cases f b with
      | none =>
          have hmiddle : (before.filterMap f ++ x :: after.filterMap f).Perm
              (x :: (before.filterMap f ++ after.filterMap f)) := List.perm_middle
          exact hmiddle.symm
      | some y =>
          have hswap := List.Perm.swap y x (before.filterMap f ++ after.filterMap f)
          exact (List.perm_middle.cons x).trans (hswap.trans (List.perm_middle.symm.cons y))

theorem filterMap_move_eq (f : π → Option γ) {b : π} (hf : f b = f a) :
    (threads.set t b).filterMap f = threads.filterMap f := by
  obtain ⟨before, after, hbefore, hafter⟩ := split_move h b
  rw [hafter, hbefore]
  simp only [List.filterMap_append, List.filterMap_cons, hf]

/-- When only one thread is at places of a kind, it alone holds what these places hold. -/
theorem filterMap_alone {p : π → Bool} (ha : p a = true) (hcount : threads.countP p ≤ 1)
    (f : π → Option γ) (hf : ∀ c, p c = false → f c = none) (b : π) :
    (threads.set t b).filterMap f = (f b).toList := by
  obtain ⟨before, after, hbefore, hafter⟩ := split_move h b
  rw [hbefore, List.countP_append, List.countP_cons_of_pos ha] at hcount
  have hnone : ∀ l : List π, l.countP p = 0 → l.filterMap f = [] := by
    intro l hl
    rw [List.filterMap_eq_nil_iff]
    intro c hc
    apply hf
    simpa using List.countP_eq_zero.mp hl c hc
  rw [hafter, List.filterMap_append, List.filterMap_cons, hnone before (by omega),
    hnone after (by omega)]
  cases f b <;> rfl

theorem mem_alone {p : π → Bool} (ha : p a = true) (hcount : threads.countP p ≤ 1)
    (hc : c ∈ threads.set t b) (hp : p c = true) : c = b := by
  obtain ⟨before, after, hbefore, hafter⟩ := split_move h b
  rw [hbefore, List.countP_append, List.countP_cons_of_pos ha] at hcount
  have hnone : ∀ l : List π, l.countP p = 0 → c ∉ l := fun l hl hmem =>
    List.countP_eq_zero.mp hl c hmem hp
  rw [hafter, List.mem_append, List.mem_cons] at hc
  rcases hc with hc | hc | hc
  · exact absurd hc (hnone before (by omega))
  · exact hc
  · exact absurd hc (hnone after (by omega))

/-- When the threads hold different things, what one thread holds no other does. -/
theorem mem_move_nodup {f : π → Option γ} {x : γ} (hnodup : (threads.filterMap f).Nodup)
    (hf : f a = some x) (hc : c ∈ threads.set t b) : c = b ∨ c ∈ threads ∧ f c ≠ some x := by
  obtain ⟨before, after, hbefore, hafter⟩ := split_move h b
  rw [hbefore, List.filterMap_append, List.filterMap_cons_some hf, List.nodup_middle,
    List.nodup_cons] at hnodup
  rw [hafter, List.mem_append, List.mem_cons] at hc
  have hother : c ∈ before ++ after → c ∈ threads ∧ f c ≠ some x := by
    intro hmem
    refine ⟨?_, fun heq => hnodup.1 ?_⟩
    · rw [hbefore]
      simp only [List.mem_append, List.mem_cons] at hmem ⊢
      tauto
    · rw [← List.filterMap_append]
      exact List.mem_filterMap.mpr ⟨c, hmem, heq⟩
  rcases hc with hc | hc | hc
  · exact Or.inr (hother (List.mem_append_left _ hc))
  · exact Or.inl hc
  · exact Or.inr (hother (List.mem_append_right _ hc))

theorem nodup_move_none {f : π → Option γ} (hnodup : (threads.filterMap f).Nodup)
    (hb : f b = none) : ((threads.set t b).filterMap f).Nodup := by
  obtain ⟨before, after, hbefore, hafter⟩ := split_move h b
  rw [hbefore, List.filterMap_append] at hnodup
  rw [hafter, List.filterMap_append, List.filterMap_cons_none hb]
  refine hnodup.sublist ((List.Sublist.refl _).append ?_)
  rw [List.filterMap_cons]
  cases f a with
  | none => exact List.Sublist.refl _
  | some y => exact List.sublist_cons_self _ _

end

end ThreadPool
