import Mathlib

/-!
# Bounded queues between two parties

One party adds items, each at a cost, as long as all costs fit the capacity. The other completes
them in any order, and the first gets them back in the order of completion.
-/

variable {β γ : Type*}

/-- Items added and not got back yet: those in flight, and the completed ones with the result. -/
structure BoundedQueue (β γ : Type*) where
  capacity : ℕ
  inFlight : List (β × ℕ)
  completed : List ((β × ℕ) × γ)

namespace BoundedQueue

def new (capacity : ℕ) : BoundedQueue β γ := ⟨capacity, [], []⟩

def load (q : BoundedQueue β γ) : ℕ :=
  (q.inFlight.map Prod.snd).sum + (q.completed.map fun c => c.1.2).sum

/-- `none` when the item does not fit. -/
def add (q : BoundedQueue β γ) (b : β) (cost : ℕ) : Option (BoundedQueue β γ) :=
  if q.load + cost ≤ q.capacity then some { q with
    inFlight := q.inFlight ++ [(b, cost)] }
  else none

/-- The `k`-th item in flight is completed. -/
def complete (q : BoundedQueue β γ) (k : ℕ) (result : γ) : BoundedQueue β γ :=
  match q.inFlight[k]? with
  | none => q
  | some entry => { q with
      inFlight := q.inFlight.eraseIdx k
      completed := q.completed ++ [(entry, result)] }

def get (q : BoundedQueue β γ) : Option ((β × γ) × BoundedQueue β γ) :=
  match q.completed with
  | [] => none
  | (entry, result) :: rest => some ((entry.1, result), { q with
      completed := rest })

def items (q : BoundedQueue β γ) : List β :=
  q.inFlight.map Prod.fst ++ q.completed.map fun c => c.1.1

@[simp] theorem items_new (capacity : ℕ) : (new capacity : BoundedQueue β γ).items = [] := rfl

variable {q q' : BoundedQueue β γ} {b : β} {cost k : ℕ} {result : γ}

theorem add_eq_some (h : q.add b cost = some q') :
    q' = { q with inFlight := q.inFlight ++ [(b, cost)] } := by
  unfold add at h
  split at h
  · exact (Option.some.inj h).symm
  · cases h

theorem add_items (h : q.add b cost = some q') : q'.items.Perm (b :: q.items) := by
  rw [add_eq_some h]
  unfold items
  rw [List.map_append, List.append_assoc]
  exact List.perm_middle

theorem complete_items (q : BoundedQueue β γ) (k : ℕ) (result : γ) :
    (q.complete k result).items.Perm q.items := by
  unfold complete
  cases hk : q.inFlight[k]? with
  | none => exact List.Perm.refl _
  | some entry =>
      obtain ⟨hlt, hget⟩ := List.getElem?_eq_some_iff.mp hk
      have hflight := (List.getElem_cons_eraseIdx_perm hlt).map Prod.fst
      rw [hget, List.map_cons] at hflight
      unfold items
      rw [List.map_append, ← List.append_assoc]
      exact (List.perm_append_singleton _ _).trans (hflight.append_right _)

theorem complete_mod_length (q : BoundedQueue β γ) (k : ℕ) (result : γ) :
    (q.complete (k % q.inFlight.length) result).inFlight.length = q.inFlight.length - 1 := by
  rcases Nat.eq_zero_or_pos q.inFlight.length with hzero | hpos
  · unfold complete
    rw [hzero, List.getElem?_eq_none (by omega)]
    exact hzero
  · have hlt := Nat.mod_lt k hpos
    unfold complete
    rw [List.getElem?_eq_getElem hlt]
    exact List.length_eraseIdx_of_lt hlt

theorem get_eq_some (h : q.get = some ((b, result), q')) : ∃ c,
    q.completed = ((b, c), result) :: q'.completed ∧ q'.inFlight = q.inFlight ∧
      q'.capacity = q.capacity := by
  unfold get at h
  cases hc : q.completed with
  | nil => simp [hc] at h
  | cons entry rest =>
      rw [hc] at h
      obtain ⟨hpair, hq⟩ := Prod.mk.inj (Option.some.inj h)
      obtain ⟨rfl, rfl⟩ := Prod.mk.inj hpair
      exact ⟨entry.1.2, by rw [← hq], by rw [← hq], by rw [← hq]⟩

theorem get_items (h : q.get = some ((b, result), q')) : q.items.Perm (b :: q'.items) := by
  obtain ⟨c, hcompleted, hflight, -⟩ := get_eq_some h
  unfold items
  rw [hcompleted, hflight]
  exact List.perm_middle

end BoundedQueue
