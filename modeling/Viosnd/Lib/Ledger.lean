import Mathlib.Data.List.Nodup
import Mathlib.Data.List.Perm.Basic
import Mathlib.Data.List.Range
import Mathlib.Logic.Function.Basic

/-!
# The books of an allocator

An allocator numbers the blocks it grants and notes the numbers of those it gets back. Its books
balance with a list when that list has the blocks that are not back, each of them once.
-/

namespace Ledger

structure Book where
  granted : ℕ
  returned : List ℕ

/-- The next block is granted; its number is `granted`. -/
def Book.grant (b : Book) : Book := { b with granted := b.granted + 1 }

def Book.giveBack (b : Book) (block : ℕ) : Book := { b with returned := block :: b.returned }

/-- Every block granted is back or in the list `held`, and only once in one of them. -/
def Book.Balances (b : Book) (held : List ℕ) : Prop :=
  (b.returned ++ held).Perm (List.range b.granted)

variable {b : Book} {held held' rest : List ℕ} {block : ℕ}

theorem Book.Balances.of_perm (h : b.Balances held) (hperm : held'.Perm held) :
    b.Balances held' := (hperm.append_left b.returned).trans h

theorem Book.Balances.grant (h : b.Balances held) : b.grant.Balances (b.granted :: held) := by
  unfold Book.Balances Book.grant at *
  dsimp only
  rw [List.range_succ]
  apply List.perm_middle.trans
  exact (h.cons b.granted).trans (List.perm_append_singleton b.granted _).symm

theorem Book.Balances.giveBack (h : b.Balances held) (hperm : held.Perm (block :: rest)) :
    (b.giveBack block).Balances rest := by
  unfold Book.Balances Book.giveBack at *
  rw [List.cons_append]
  apply List.perm_middle.symm.trans
  exact (hperm.symm.append_left b.returned).trans h

theorem Book.Balances.nodup (h : b.Balances held) : (b.returned ++ held).Nodup :=
  h.nodup_iff.mpr List.nodup_range

theorem Book.Balances.returned_once (h : b.Balances held) (hgranted : block < b.granted)
    (hnot : block ∉ held) : b.returned.count block = 1 := by
  have hall : block ∈ b.returned ++ held := h.mem_iff.mpr (List.mem_range.mpr hgranted)
  have hback : block ∈ b.returned := (List.mem_append.mp hall).resolve_right hnot
  exact List.count_eq_one_of_mem (List.nodup_append.mp h.nodup).1 hback

theorem Book.Balances.outstanding (h : b.Balances held) (hheld : block ∈ held) :
    block < b.granted ∧ b.returned.count block = 0 := by
  constructor
  · apply List.mem_range.mp
    exact h.mem_iff.mp (List.mem_append_right _ hheld)
  · apply List.count_eq_zero_of_not_mem
    intro hback
    exact (List.nodup_append.mp h.nodup).2.2 block hback block hheld rfl

/-! ## Blocks in a table -/

/-- The blocks in the first `n` places of a table. -/
def inTable (slots : ℕ → Option ℕ) (n : ℕ) : List ℕ := (List.range n).filterMap slots

variable {slots : ℕ → Option ℕ} {n i : ℕ}

theorem inTable_empty (h : ∀ i, slots i = none) : inTable slots n = [] := by
  unfold inTable
  simp [h]

theorem inTable_split (slots : ℕ → Option ℕ) (hi : i < n) :
    (inTable slots n).Perm ((slots i).toList ++ inTable (Function.update slots i none) n) := by
  unfold inTable
  induction n with
  | zero => exact absurd hi (Nat.not_lt_zero i)
  | succ n ih =>
      rw [List.range_succ, List.filterMap_append, List.filterMap_append]
      rcases Nat.lt_succ_iff_lt_or_eq.mp hi with hlt | heq
      · have hother : Function.update slots i none n = slots n :=
          Function.update_of_ne (Nat.ne_of_gt hlt) none slots
        simp only [List.filterMap_cons, List.filterMap_nil, hother]
        rw [← List.append_assoc]
        exact (ih hlt).append_right _
      · have hsame : (List.range n).filterMap (Function.update slots i none) =
            (List.range n).filterMap slots := by
          apply List.filterMap_congr
          intro j hj
          have hne : j ≠ i := by
            have hjn := List.mem_range.mp hj
            omega
          exact Function.update_of_ne hne none slots
        rw [hsame, ← heq]
        cases hslot : slots i with
        | none => simp [hslot]
        | some a =>
            simp only [List.filterMap_cons, List.filterMap_nil, hslot, Function.update_self,
              Option.toList_some, List.append_nil]
            exact List.perm_append_singleton a _

theorem inTable_put (hi : i < n) (hempty : slots i = none) (a : ℕ) :
    (inTable (Function.update slots i (some a)) n).Perm (a :: inTable slots n) := by
  have hsplit := inTable_split (Function.update slots i (some a)) hi
  have hback : Function.update slots i none = slots := by
    rw [← hempty]
    exact Function.update_eq_self i slots
  rwa [Function.update_self, Function.update_idem, hback] at hsplit

theorem inTable_take {a : ℕ} (hi : i < n) (hslot : slots i = some a) :
    (inTable slots n).Perm (a :: inTable (Function.update slots i none) n) := by
  have hsplit := inTable_split slots hi
  rwa [hslot] at hsplit

end Ledger
