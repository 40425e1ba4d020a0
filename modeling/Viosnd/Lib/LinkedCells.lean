import Mathlib.Data.List.Nodup
import Mathlib.Logic.Function.Basic

/-!
# Singly linked lists in cells

Every node has a cell that points to the next node, and the list has a head cell. A list is edited
in place by writing to cells; a search carries the cell it came from.
-/

namespace LinkedCells

variable {ν : Type*}

/-- What each cell points to; `none` is the head cell, and the pointer of the last cell. -/
abbrev Cells (ν : Type*) := Option ν → Option ν

variable {next next' : Cells ν} {e : Option ν} {n : ν} {l l' : List ν}

/-- From the cell `e` on, the cells lead through the nodes `l`. -/
def Chain (next : Cells ν) : Option ν → List ν → Prop
  | e, [] => next e = none
  | e, n :: l => next e = some n ∧ Chain next (some n) l

/-- The cell behind the nodes `l` that start at `e`. -/
def lastCell (e : Option ν) (l : List ν) : Option ν := l.getLast?.or e

@[simp] theorem lastCell_nil (e : Option ν) : lastCell e [] = e := rfl

@[simp] theorem lastCell_cons (e : Option ν) (n : ν) (l : List ν) :
    lastCell e (n :: l) = lastCell (some n) l := by
  cases l with
  | nil => rfl
  | cons m l => simp [lastCell, List.getLast?_cons]

theorem lastCell_mem (e : Option ν) (l : List ν) : lastCell e l ∈ e :: l.map some := by
  induction l generalizing e with
  | nil => exact List.mem_cons_self
  | cons n l ih =>
      rw [lastCell_cons, List.map_cons]
      exact List.mem_cons_of_mem _ (ih (some n))

theorem Chain.congr (h : Chain next e l) (hsame : ∀ c ∈ e :: l.map some, next' c = next c) :
    Chain next' e l := by
  induction l generalizing e with
  | nil => exact (hsame e List.mem_cons_self).trans h
  | cons n l ih =>
      refine ⟨(hsame e List.mem_cons_self).trans h.1, ih h.2 fun c hc => ?_⟩
      exact hsame c (List.mem_cons_of_mem _ hc)

section

variable [DecidableEq ν]

/-- `PushEntryList`: the new node points to the old first one, the head to the new node. -/
def push (next : Cells ν) (n : ν) : Cells ν :=
  Function.update (Function.update next (some n) (next none)) none (some n)

/-- The cell before `n` is made to point behind it. -/
def unlink (next : Cells ν) (previous : Option ν) (n : ν) : Cells ν :=
  Function.update next previous (next (some n))

theorem Chain.push (h : Chain next none l) (hn : n ∉ l) : Chain (push next n) none (n :: l) := by
  have hself : LinkedCells.push next n (some n) = next none := by simp [LinkedCells.push]
  have hnone : none ∉ l.map some := by simp
  refine ⟨Function.update_self _ _ _, ?_⟩
  cases l with
  | nil => exact hself.trans h
  | cons m l =>
      refine ⟨hself.trans h.1, h.2.congr fun c hc => ?_⟩
      have hhead : c ≠ none := by
        rintro rfl
        exact hnone hc
      have hother : c ≠ some n := by
        rintro rfl
        exact hn (by simpa using hc)
      rw [LinkedCells.push, Function.update_of_ne hhead, Function.update_of_ne hother]

theorem Chain.unlink (h : Chain next e (l ++ n :: l'))
    (hnodup : (e :: (l ++ n :: l').map some).Nodup) :
    Chain (unlink next (lastCell e l) n) e (l ++ l') := by
  induction l generalizing e with
  | nil =>
      obtain ⟨hfirst, hrest⟩ := h
      have hself : LinkedCells.unlink next e n e = next (some n) := Function.update_self _ _ _
      cases l' with
      | nil => exact hself.trans hrest
      | cons m l' =>
          refine ⟨hself.trans hrest.1, hrest.2.congr fun c hc => ?_⟩
          apply Function.update_of_ne
          rintro rfl
          exact (List.nodup_cons.mp hnodup).1 (List.mem_cons_of_mem _ hc)
  | cons m l ih =>
      obtain ⟨hfirst, hrest⟩ := h
      obtain ⟨hnew, htail⟩ := List.nodup_cons.mp hnodup
      have hother : e ≠ lastCell (some m) l := by
        intro heq
        have hmem := lastCell_mem (some m) l
        rw [← heq] at hmem
        apply hnew
        rw [List.cons_append, List.map_cons, List.map_append]
        rcases List.mem_cons.mp hmem with hm | hl
        · exact hm ▸ List.mem_cons_self
        · exact List.mem_cons_of_mem _ (List.mem_append_left _ hl)
      rw [lastCell_cons]
      exact ⟨(Function.update_of_ne hother _ _).trans hfirst, ih hrest htail⟩

end

/-! ## Searching -/

/-- The loop of a search with `k` passes at most, at the node `current` points to and the cell that
points there. The result is that cell and the node; without enough passes there is none. -/
def search (next : Cells ν) (found : ν → Bool) :
    ℕ → Option ν → Option ν → Option (Option (Option ν × ν))
  | 0, _, _ => none
  | _ + 1, _, none => some none
  | k + 1, previous, some n =>
      if found n then some (some (previous, n)) else search next found k (some n) (next (some n))

variable {found : ν → Bool} {k : ℕ}

theorem search_absent (h : Chain next e l) (hall : ∀ m ∈ l, found m = false)
    (hk : l.length < k) : search next found k e (next e) = some none := by
  induction l generalizing e k with
  | nil =>
      obtain ⟨k, rfl⟩ := Nat.exists_eq_succ_of_ne_zero (Nat.ne_of_gt hk)
      have hend : next e = none := h
      rw [hend]
      rfl
  | cons n l ih =>
      obtain ⟨k, rfl⟩ := Nat.exists_eq_succ_of_ne_zero (Nat.ne_zero_of_lt hk)
      rw [h.1, search, hall n List.mem_cons_self]
      exact ih h.2 (fun m hm => hall m (List.mem_cons_of_mem _ hm)) (Nat.lt_of_succ_lt_succ hk)

theorem search_present (h : Chain next e (l ++ n :: l')) (hall : ∀ m ∈ l, found m = false)
    (hn : found n = true) (hk : l.length < k) :
    search next found k e (next e) = some (some (lastCell e l, n)) := by
  induction l generalizing e k with
  | nil =>
      obtain ⟨k, rfl⟩ := Nat.exists_eq_succ_of_ne_zero (Nat.ne_of_gt hk)
      rw [h.1, search, if_pos hn, lastCell_nil]
  | cons m l ih =>
      obtain ⟨k, rfl⟩ := Nat.exists_eq_succ_of_ne_zero (Nat.ne_zero_of_lt hk)
      rw [h.1, search, hall m List.mem_cons_self, lastCell_cons]
      exact ih h.2 (fun m hm => hall m (List.mem_cons_of_mem _ hm)) (Nat.lt_of_succ_lt_succ hk)

end LinkedCells
