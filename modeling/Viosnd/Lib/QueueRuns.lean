import Viosnd.Lib.BoundedQueue
import Viosnd.Lib.Machines

/-!
# Runs of a bounded queue

A bounded queue as a machine, and what a run of it did: which items were accepted, which were
completed and which were got back, each in order.
-/

namespace BoundedQueue

open Machine

variable {β γ : Type*}

inductive Op (β γ : Type*) where
  | add (b : β) (cost : ℕ)
  | complete (k : ℕ) (result : γ)
  | get
  /-- The other party does what does not show in the queue. -/
  | idle

inductive Answer (β γ : Type*) where
  | added
  | noSpace
  | got (b : β) (result : γ)
  | nothing
  | silent
  deriving DecidableEq

def act (q : BoundedQueue β γ) : Op β γ → BoundedQueue β γ × Answer β γ
  | .add b cost =>
      match q.add b cost with
      | none => (q, .noSpace)
      | some q' => (q', .added)
  | .complete k result => (q.complete k result, .silent)
  | .get =>
      match q.get with
      | none => (q, .nothing)
      | some (r, q') => (q', .got r.1 r.2)
  | .idle => (q, .silent)

def accepted : List (Op β γ) → List (Answer β γ) → List β
  | .add b _ :: ops, .added :: answers => b :: accepted ops answers
  | _ :: ops, _ :: answers => accepted ops answers
  | _, _ => []

def fetched : List (Answer β γ) → List (β × γ)
  | [] => []
  | .got b result :: answers => (b, result) :: fetched answers
  | _ :: answers => fetched answers

def completion (q : BoundedQueue β γ) : Op β γ → List (β × γ)
  | .complete k result => (q.inFlight[k]?.map fun entry => (entry.1, result)).toList
  | _ => []

def completions (q : BoundedQueue β γ) : List (Op β γ) → List (β × γ)
  | [] => []
  | op :: ops => q.completion op ++ completions (q.act op).1 ops

def pending (q : BoundedQueue β γ) : List (β × γ) := q.completed.map fun c => (c.1.1, c.2)

theorem act_pending (q : BoundedQueue β γ) (op : Op β γ) :
    q.pending ++ q.completion op = fetched [(q.act op).2] ++ (q.act op).1.pending := by
  cases op with
  | add b cost =>
      simp only [completion, act]
      cases hadd : q.add b cost with
      | none => simp [fetched]
      | some q' =>
          rw [add_eq_some hadd]
          simp [fetched, pending]
  | complete k result =>
      simp only [completion, act, complete]
      cases hk : q.inFlight[k]? with
      | none => simp [fetched]
      | some entry => simp [fetched, pending]
  | get =>
      simp only [completion, act]
      cases hget : q.get with
      | none => simp [fetched]
      | some r =>
          obtain ⟨⟨b, result⟩, q'⟩ := r
          obtain ⟨c, hcompleted, -, -⟩ := get_eq_some hget
          simp [fetched, pending, hcompleted]
  | idle => simp [fetched, completion, act]

theorem act_items (q : BoundedQueue β γ) (op : Op β γ) :
    (accepted [op] [(q.act op).2] ++ q.items).Perm
      ((fetched [(q.act op).2]).map Prod.fst ++ (q.act op).1.items) := by
  cases op with
  | add b cost =>
      simp only [act]
      cases hadd : q.add b cost with
      | none => exact List.Perm.refl _
      | some q' => exact (add_items hadd).symm
  | complete k result => exact (complete_items q k result).symm
  | get =>
      simp only [act]
      cases hget : q.get with
      | none => exact List.Perm.refl _
      | some r => exact get_items hget
  | idle => exact List.Perm.refl _

theorem fetched_cons (answer : Answer β γ) (answers : List (Answer β γ)) :
    fetched (answer :: answers) = fetched [answer] ++ fetched answers := by
  cases answer <;> rfl

theorem accepted_cons (op : Op β γ) (ops : List (Op β γ)) (answer : Answer β γ)
    (answers : List (Answer β γ)) :
    accepted (op :: ops) (answer :: answers) = accepted [op] [answer] ++ accepted ops answers := by
  cases op <;> cases answer <;> rfl

/-- Items are got back in the order of completion, and none before it is completed. -/
theorem respond_completions (q : BoundedQueue β γ) (ops : List (Op β γ)) :
    q.pending ++ q.completions ops =
      fetched (respond act q ops).2 ++ (respond act q ops).1.pending := by
  induction ops generalizing q with
  | nil => simp [completions, fetched]
  | cons op ops ih =>
      rw [respond_cons, fetched_cons, completions, List.append_assoc, ← ih, ← List.append_assoc,
        ← List.append_assoc, act_pending]

/-- Every accepted item is in the queue or was got back, and neither twice. -/
theorem respond_items (q : BoundedQueue β γ) (ops : List (Op β γ)) :
    (accepted ops (respond act q ops).2 ++ q.items).Perm
      ((fetched (respond act q ops).2).map Prod.fst ++ (respond act q ops).1.items) := by
  induction ops generalizing q with
  | nil => exact List.Perm.refl _
  | cons op ops ih =>
      rw [respond_cons, fetched_cons, accepted_cons, List.map_append, List.append_assoc]
      have hfirst := (act_items q op).append_left (accepted ops (respond act (q.act op).1 ops).2)
      have hrest := (ih (q.act op).1).append_left ((fetched [(q.act op).2]).map Prod.fst)
      have hshift := (List.perm_append_comm_assoc
        (accepted ops (respond act (q.act op).1 ops).2) (accepted [op] [(q.act op).2]) q.items).symm
      have hshift' := List.perm_append_comm_assoc
        (accepted ops (respond act (q.act op).1 ops).2)
        ((fetched [(q.act op).2]).map Prod.fst) (q.act op).1.items
      exact (((hshift.trans hfirst).trans hshift').trans hrest).trans
        (List.Perm.of_eq (List.append_assoc _ _ _).symm)

end BoundedQueue
