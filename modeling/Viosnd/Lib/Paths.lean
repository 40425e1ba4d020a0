import Mathlib.Data.List.Basic
import Mathlib.Logic.Function.Iterate

/-!
# Paths along links

Nodes are linked by a function `next`. A path is the list of nodes met on the way from one node to
another, the last one not included. Linked lists kept in an array are paths.
-/

namespace Paths

variable {α : Type*} {next next' : α → α} {a b c d : α} {l l₁ l₂ : List α}

/-- `next` leads from `a` over the nodes `l` to `b`. -/
def Leads (next : α → α) : α → List α → α → Prop
  | a, [], b => a = b
  | a, d :: l, b => a = d ∧ Leads next (next d) l b

@[simp] theorem leads_nil : Leads next a [] b ↔ a = b := Iff.rfl

@[simp] theorem leads_cons : Leads next a (d :: l) b ↔ a = d ∧ Leads next (next d) l b := Iff.rfl

theorem leads_append :
    Leads next a (l₁ ++ l₂) c ↔ ∃ b, Leads next a l₁ b ∧ Leads next b l₂ c := by
  induction l₁ generalizing a with
  | nil => simp
  | cons d l₁ ih => simp [ih, and_assoc]

theorem leads_concat : Leads next a (l ++ [d]) b ↔ Leads next a l d ∧ next d = b := by
  simp [leads_append]

theorem Leads.congr (h : Leads next a l b) (heq : ∀ d ∈ l, next' d = next d) :
    Leads next' a l b := by
  induction l generalizing a with
  | nil => exact h
  | cons d l ih =>
      obtain ⟨rfl, hrest⟩ := h
      rw [leads_cons, heq a List.mem_cons_self]
      exact ⟨rfl, ih hrest fun d hd => heq d (List.mem_cons_of_mem _ hd)⟩

theorem Leads.split (h : Leads next a l b) (hshort : Leads next a l₁ c)
    (hlength : l₁.length ≤ l.length) : ∃ l₂, l = l₁ ++ l₂ ∧ Leads next c l₂ b := by
  induction l₁ generalizing a l with
  | nil =>
      obtain rfl : a = c := hshort
      exact ⟨l, rfl, h⟩
  | cons d l₁ ih =>
      cases l with
      | nil => simp at hlength
      | cons d' l =>
          obtain ⟨rfl, hrest₁⟩ := hshort
          obtain ⟨rfl, hrest⟩ := h
          obtain ⟨l₂, rfl, htail⟩ := ih hrest hrest₁ (by simpa using hlength)
          exact ⟨l₂, rfl, htail⟩

theorem Leads.iterate_eq (h : Leads next a l b) : List.iterate next a l.length = l := by
  induction l generalizing a with
  | nil => rfl
  | cons d l ih =>
      obtain ⟨rfl, hrest⟩ := h
      rw [List.length_cons, List.iterate, ih hrest]

/-- Going on only from nodes with `more`, one stays on a path whose last node is without. -/
theorem Leads.visited {more : α → Bool} (h : Leads next a l b) (hlast : more b = false) {k : ℕ}
    (hmore : ∀ j < k, more (next^[j] a) = true) : next^[k] a ∈ l ++ [b] := by
  induction l generalizing a k with
  | nil =>
      obtain rfl : a = b := h
      cases k with
      | zero => simp
      | succ k =>
          have hfirst := hmore 0 (Nat.succ_pos k)
          simp [hlast] at hfirst
  | cons d l ih =>
      obtain ⟨rfl, hrest⟩ := h
      cases k with
      | zero => simp
      | succ k =>
          rw [List.cons_append, Function.iterate_succ_apply]
          apply List.mem_cons_of_mem
          apply ih hrest
          intro j hj
          have hnext := hmore (j + 1) (by omega)
          rwa [Function.iterate_succ_apply] at hnext

/-- A walk along the links that stops at the first node without `more`; `none` when it has not
stopped after `fuel` further nodes. -/
def walkTo (next : α → α) (more : α → Bool) : ℕ → α → Option (List α × α)
  | fuel, a =>
      if more a then
        match fuel with
        | 0 => none
        | fuel + 1 => (walkTo next more fuel (next a)).map fun r => (a :: r.1, r.2)
      else some ([], a)

/-- The walk follows a path all of whose nodes but the last go on. -/
theorem walkTo_eq {more : α → Bool} {fuel : ℕ} (h : Leads next a l b)
    (hmore : ∀ d ∈ l, more d = true) (hlast : more b = false) (hfuel : l.length ≤ fuel) :
    walkTo next more fuel a = some (l, b) := by
  induction l generalizing a fuel with
  | nil =>
      obtain rfl : a = b := h
      unfold walkTo
      rw [if_neg (by simp [hlast])]
  | cons d l ih =>
      obtain ⟨rfl, hrest⟩ := h
      obtain ⟨fuel, rfl⟩ : ∃ f, fuel = f + 1 := ⟨fuel - 1, by simp at hfuel; omega⟩
      unfold walkTo
      rw [if_pos (hmore a List.mem_cons_self)]
      dsimp only
      rw [ih hrest (fun d hd => hmore d (List.mem_cons_of_mem _ hd)) (by simpa using hfuel)]
      rfl

end Paths
