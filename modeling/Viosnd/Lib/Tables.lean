import Mathlib.Data.List.Basic
import Mathlib.Logic.Function.Basic

/-!
# Tables filled from a list

A table is filled by going through a list, where each element changes the entry at its key. An
element that is alone under its key decides the entry, whatever the order.
-/

namespace Tables

variable {α κ β : Type*}

theorem find?_of_alone {p : α → Bool} {l : List α} {a : α} (ha : a ∈ l) (hp : p a = true)
    (halone : ∀ b ∈ l, p b = true → b = a) : l.find? p = some a := by
  cases hfind : l.find? p with
  | none => exact absurd hp (List.find?_eq_none.mp hfind a ha)
  | some b =>
      have hb := halone b (List.mem_of_find?_eq_some hfind) (List.find?_some hfind)
      rw [hb]

/-- The table behind the list; an element without a key changes nothing. -/
def fill [DecidableEq κ] (key : α → Option κ) (change : α → β → β) (t : κ → β) (l : List α) :
    κ → β :=
  l.foldl (fun t a => match key a with
    | none => t
    | some k => Function.update t k (change a (t k))) t

variable [DecidableEq κ] {key : α → Option κ} {change : α → β → β} {t : κ → β} {k : κ} {a : α}

theorem fill_cons_none {l : List α} (h : key a = none) :
    fill key change t (a :: l) = fill key change t l := by
  simp [fill, h]

theorem fill_cons_some {l : List α} (h : key a = some k) :
    fill key change t (a :: l) = fill key change (Function.update t k (change a (t k))) l := by
  simp [fill, h]

theorem fill_of_absent {l : List α} (h : ∀ a ∈ l, key a ≠ some k) :
    fill key change t l k = t k := by
  induction l generalizing t with
  | nil => rfl
  | cons a l ih =>
      have hrest : ∀ b ∈ l, key b ≠ some k := fun b hb => h b (List.mem_cons_of_mem a hb)
      cases hkey : key a with
      | none => rw [fill_cons_none hkey, ih hrest]
      | some j =>
          have hne : k ≠ j := by
            intro hsame
            apply h a List.mem_cons_self
            rw [hkey, hsame]
          rw [fill_cons_some hkey, ih hrest, Function.update_of_ne hne]

theorem fill_of_alone {l : List α} (hnodup : l.Nodup) (ha : a ∈ l) (hkey : key a = some k)
    (halone : ∀ b ∈ l, key b = some k → b = a) : fill key change t l k = change a (t k) := by
  induction l generalizing t with
  | nil => simp at ha
  | cons b l ih =>
      obtain ⟨hb, hnodup⟩ := List.nodup_cons.mp hnodup
      have hrest : ∀ c ∈ l, key c = some k → c = a :=
        fun c hc => halone c (List.mem_cons_of_mem b hc)
      by_cases hfirst : a = b
      · -- nothing behind the first element has its key
        have habsent : ∀ c ∈ l, key c ≠ some k := by
          intro c hc hck
          apply hb
          rwa [← hfirst, ← hrest c hc hck]
        rw [← hfirst, fill_cons_some hkey, fill_of_absent habsent, Function.update_self]
      · have hmem : a ∈ l := (List.mem_cons.mp ha).resolve_left hfirst
        cases hbk : key b with
        | none => rw [fill_cons_none hbk, ih hnodup hmem hrest]
        | some j =>
            have hne : k ≠ j := by
              intro hsame
              apply hfirst
              symm
              apply halone b List.mem_cons_self
              rw [hbk, hsame]
            rw [fill_cons_some hbk, ih hnodup hmem hrest, Function.update_of_ne hne]

end Tables
