import Mathlib.Data.List.Nodup
import Mathlib.Data.List.Perm.Basic
import Viosnd.Lib.Slots

/-!
# Numbered items in three places

Items get numbers when they are allocated. From then on each is in one of three places: in a stack
of spare ones, lent out, or gone for good.
-/

namespace Stock

open Slots

variable {β : Type*}

def numbers (id : β → ℕ) (spare : List β) (lent gone : List ℕ) : List ℕ :=
  spare.map id ++ (lent ++ gone)

/-- The stack holds the items `spare`, every item is in one place only, and `next` is a new
number. -/
structure Kept (id : β → ℕ) (slots : ℕ → Option β) (count : ℕ) (spare : List β)
    (lent gone : List ℕ) (next : ℕ) : Prop where
  holds : Holds slots count spare
  distinct : (numbers id spare lent gone).Nodup
  allocated : ∀ i ∈ numbers id spare lent gone, i < next

variable {id : β → ℕ} {slots slots' : ℕ → Option β} {count count' : ℕ} {spare spare' : List β}
  {lent lent' gone gone' : List ℕ} {next : ℕ} {b : β}

theorem kept_nil (id : β → ℕ) : Kept id (fun _ => none) 0 [] [] [] 0 :=
  ⟨holds_nil, List.nodup_nil, fun _ h => absurd h List.not_mem_nil⟩

/-- Moving items from place to place keeps each in one place. -/
theorem Kept.of_perm (h : Kept id slots count spare lent gone next)
    (hholds : Holds slots' count' spare')
    (hperm : (numbers id spare' lent' gone').Perm (numbers id spare lent gone)) :
    Kept id slots' count' spare' lent' gone' next :=
  ⟨hholds, hperm.nodup_iff.mpr h.distinct, fun i hi => h.allocated i (hperm.mem_iff.mp hi)⟩

theorem Kept.gone_nodup (h : Kept id slots count spare lent gone next) : gone.Nodup :=
  (List.nodup_append'.mp (List.nodup_append'.mp h.distinct).2.1).2.1

theorem Kept.next_not_lent (h : Kept id slots count spare lent gone next) : next ∉ lent := by
  intro hlent
  have hall : next ∈ numbers id spare lent gone :=
    List.mem_append_right _ (List.mem_append_left _ hlent)
  exact absurd (h.allocated next hall) (Nat.lt_irrefl _)

theorem numbers_setAside {k i : ℕ} (hk : lent[k]? = some i) :
    (i :: numbers id spare (lent.eraseIdx k) gone).Perm (numbers id spare lent gone) := by
  obtain ⟨hlt, hget⟩ := List.getElem?_eq_some_iff.mp hk
  have hlent : (i :: lent.eraseIdx k).Perm lent := by
    have hperm := List.getElem_cons_eraseIdx_perm hlt
    rwa [hget] at hperm
  unfold numbers
  apply List.perm_middle.symm.trans
  exact (hlent.append_right _).append_left _

section

variable (h : Kept id slots count spare lent gone next)
include h

theorem Kept.top (hcount : count ≠ 0) (htop : slots (count - 1) = some b) :
    spare.map id = spare.dropLast.map id ++ [id b] := by
  have hsplit := h.holds.top hcount htop
  conv_lhs => rw [hsplit]
  rw [List.map_append, List.map_singleton]

theorem Kept.spare_not_lent {i : ℕ} (hi : i ∈ spare.map id) : i ∉ lent := by
  intro hlent
  exact (List.nodup_append'.mp h.distinct).2.2 hi (List.mem_append_left _ hlent)

theorem Kept.top_not_lent (hcount : count ≠ 0) (htop : slots (count - 1) = some b) :
    id b ∉ lent := by
  apply h.spare_not_lent
  rw [h.top hcount htop]
  exact List.mem_append_right _ (List.mem_singleton_self _)

theorem Kept.lend (hcount : count ≠ 0) (htop : slots (count - 1) = some b) :
    Kept id (Function.update slots (count - 1) none) (count - 1) spare.dropLast (lent ++ [id b])
      gone next := by
  apply h.of_perm h.holds.pop
  unfold numbers
  rw [h.top hcount htop, List.append_assoc, List.append_assoc]
  exact List.perm_middle.append_left _

theorem Kept.drop (hcount : count ≠ 0) (htop : slots (count - 1) = some b) :
    Kept id (Function.update slots (count - 1) none) (count - 1) spare.dropLast lent
      (id b :: gone) next := by
  apply h.of_perm h.holds.pop
  unfold numbers
  rw [h.top hcount htop, List.append_assoc]
  exact List.perm_middle.append_left _

theorem Kept.allocate (hb : id b = next) :
    Kept id (Function.update slots count (some b)) (count + 1) (spare ++ [b]) lent gone
      (next + 1) := by
  have hperm : (numbers id (spare ++ [b]) lent gone).Perm (next :: numbers id spare lent gone) := by
    unfold numbers
    rw [List.map_append, List.map_singleton, List.append_assoc, hb]
    exact List.perm_middle
  have hnew : next ∉ numbers id spare lent gone := fun hmem =>
    absurd (h.allocated next hmem) (Nat.lt_irrefl _)
  refine ⟨h.holds.push b, hperm.nodup_iff.mpr (List.nodup_cons.mpr ⟨hnew, h.distinct⟩), ?_⟩
  intro i hi
  rcases List.mem_cons.mp (hperm.mem_iff.mp hi) with rfl | hold
  · exact Nat.lt_succ_self _
  · exact Nat.lt_succ_of_lt (h.allocated i hold)

theorem Kept.giveBack {k : ℕ} (hk : lent[k]? = some (id b)) :
    Kept id (Function.update slots count (some b)) (count + 1) (spare ++ [b]) (lent.eraseIdx k)
      gone next := by
  apply h.of_perm (h.holds.push b)
  apply List.Perm.trans _ (numbers_setAside hk)
  unfold numbers
  rw [List.map_append, List.map_singleton, List.append_assoc]
  exact List.perm_middle

theorem Kept.giveUp {k : ℕ} {i : ℕ} (hk : lent[k]? = some i) :
    Kept id slots count spare (lent.eraseIdx k) (i :: gone) next := by
  apply h.of_perm h.holds
  apply List.Perm.trans _ (numbers_setAside hk)
  unfold numbers
  exact (List.perm_middle.append_left _).trans List.perm_middle

end

end Stock
