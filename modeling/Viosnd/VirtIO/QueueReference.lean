import Viosnd.Lib.QueueRuns
import Viosnd.VirtIO.PackedLayout

/-!
# The queue that both rings implement

What driver and device do with a queue, and the bounded queue it comes to: its capacity is the size
of the ring, a direct chain costs as much as it has parts and an indirect one costs one.
-/

namespace Viosnd.VirtIO

open BoundedQueue

variable {β : Type}

/-- A device offers a power of two, as a 16-bit number. -/
structure QueueSize where
  num : ℕ
  power : ∃ k ≤ 15, num = 2 ^ k

theorem QueueSize.pos (size : QueueSize) : 0 < size.num := by
  obtain ⟨k, -, hnum⟩ := size.power
  rw [hnum]
  exact Nat.two_pow_pos k

theorem QueueSize.dvd (size : QueueSize) : size.num ∣ 2 ^ 15 := by
  obtain ⟨k, hk, hnum⟩ := size.power
  rw [hnum]
  exact Nat.pow_dvd_pow 2 hk

theorem QueueSize.le (size : QueueSize) : size.num ≤ 2 ^ 15 :=
  Nat.le_of_dvd (by decide) size.dvd

/-- The arguments of `virtqueue_add_buf`: at least one part, the first `out` of them read by the
device. An indirect page holds 256 parts (`virtio_get_indirect_page_capacity`), far fewer than a
16-bit index can count. -/
structure AddRequest (β : Type) where
  sg : Scatter
  rest : List Scatter
  out : ℕ
  io : β
  indirect : Option IndirectPage
  fits : indirect.isSome = true → rest.length + 1 < 2 ^ 16

inductive QueueInput (β : Type) where
  | add (request : AddRequest β)
  /-- The device takes the next chain. -/
  | take
  /-- The device completes the `k`-th of the chains in flight, in the order they were added. -/
  | complete (k : ℕ) (len : BitVec 32)
  | get

def QueueInput.op : QueueInput β → Op β (BitVec 32)
  | .add request => .add request.io (addCost request.rest request.indirect)
  | .take => .idle
  | .complete k len => .complete k len
  | .get => .get

/-! ## Chains and items -/

def Chain.item (c : Chain β) : β × ℕ := (c.data, c.descs.length)

/-- The bounded queue holds the items of the chains in flight and of those returned. -/
structure Mirrors (q : BoundedQueue β (BitVec 32)) (num : ℕ) (untaken held : List (Chain β))
    (returned : List (Chain β × BitVec 32)) : Prop where
  capacity : q.capacity = num
  inFlight : q.inFlight = (held ++ untaken).map Chain.item
  completed : q.completed = returned.map fun e => (e.1.item, e.2)

theorem mirrors_new (β : Type) (num : ℕ) :
    Mirrors (BoundedQueue.new num : BoundedQueue β (BitVec 32)) num [] [] [] := ⟨rfl, rfl, rfl⟩

namespace Mirrors

variable {q : BoundedQueue β (BitVec 32)} {num cost k : ℕ}
  {untaken held untaken' held' : List (Chain β)} {returned : List (Chain β × BitVec 32)}
  {c : Chain β} {len : BitVec 32}

private theorem load_eq (h : Mirrors q num untaken held returned) :
    q.load = chainSize (untaken ++ (held ++ returned.map Prod.fst)) := by
  have hcost : ∀ chains : List (Chain β), ((chains.map Chain.item).map Prod.snd).sum =
      chainSize chains := by
    intro chains
    rw [List.map_map]
    rfl
  have hdone : (q.completed.map fun e => e.1.2).sum = chainSize (returned.map Prod.fst) := by
    rw [h.completed, List.map_map, ← hcost, List.map_map, List.map_map]
    rfl
  unfold load
  rw [hdone, h.inFlight, hcost]
  simp only [chainSize_append]
  omega

/-- The device may take chains without a change of the bounded queue. -/
theorem of_taken (h : Mirrors q num untaken held returned)
    (htaken : held' ++ untaken' = held ++ untaken) : Mirrors q num untaken' held' returned :=
  ⟨h.capacity, by rw [h.inFlight, htaken], h.completed⟩

theorem add (h : Mirrors q num untaken held returned) (hcost : c.descs.length = cost)
    (hfit : chainSize (untaken ++ (held ++ returned.map Prod.fst)) + cost ≤ num) :
    ∃ q', q.act (.add c.data cost) = (q', .added) ∧
      Mirrors q' num (untaken ++ [c]) held returned := by
  have hroom : q.load + cost ≤ q.capacity := by
    rw [h.load_eq, h.capacity]
    exact hfit
  refine ⟨{ q with
    inFlight := q.inFlight ++ [(c.data, cost)] }, ?_, h.capacity, ?_, h.completed⟩
  · simp only [act, BoundedQueue.add, if_pos hroom]
  · show q.inFlight ++ [(c.data, cost)] = _
    rw [h.inFlight, ← hcost, ← List.append_assoc]
    show (held ++ untaken).map Chain.item ++ [c].map Chain.item = _
    rw [← List.map_append]

theorem add_noSpace (h : Mirrors q num untaken held returned) (b : β)
    (hfull : num < chainSize (untaken ++ (held ++ returned.map Prod.fst)) + cost) :
    q.act (.add b cost) = (q, .noSpace) := by
  have hnone : ¬ q.load + cost ≤ q.capacity := by
    rw [h.load_eq, h.capacity]
    omega
  simp only [act, BoundedQueue.add, if_neg hnone]

theorem complete (h : Mirrors q num untaken held returned) (hk : held[k]? = some c)
    (len : BitVec 32) :
    Mirrors (q.complete k len) num untaken (held.eraseIdx k) (returned ++ [(c, len)]) := by
  have hlt : k < held.length := (List.getElem?_eq_some_iff.mp hk).1
  have hget : q.inFlight[k]? = some c.item := by
    rw [h.inFlight, List.getElem?_map, List.getElem?_append_left hlt, hk]
    rfl
  unfold BoundedQueue.complete
  rw [hget]
  refine ⟨h.capacity, ?_, ?_⟩
  · show q.inFlight.eraseIdx k = _
    rw [h.inFlight, List.eraseIdx_map, List.eraseIdx_append_of_lt_length hlt]
  · show q.completed ++ _ = _
    rw [h.completed, List.map_append]
    rfl

theorem complete_none (h : Mirrors q num [] held returned) (hk : held[k]? = none)
    (len : BitVec 32) : q.complete k len = q := by
  have hget : q.inFlight[k]? = none := by
    rw [h.inFlight, List.append_nil, List.getElem?_map, hk]
    rfl
  unfold BoundedQueue.complete
  rw [hget]

theorem get_none (h : Mirrors q num untaken held []) : q.act .get = (q, .nothing) := by
  have hcompleted : q.completed = [] := h.completed
  simp only [act, BoundedQueue.get, hcompleted]

theorem get_some (h : Mirrors q num untaken held ((c, len) :: returned)) :
    ∃ q', q.act .get = (q', .got c.data len) ∧ Mirrors q' num untaken held returned := by
  have hcompleted : q.completed = (c.item, len) :: returned.map fun e => (e.1.item, e.2) :=
    h.completed
  refine ⟨{ q with
    completed := returned.map fun e => (e.1.item, e.2) }, ?_, h.capacity, h.inFlight, rfl⟩
  simp only [act, BoundedQueue.get, hcompleted]
  rfl

end Mirrors

/-! ## The device reaches a chain -/

theorem take_iterate {α σ : Type*} {C : List α → List α → σ → Prop} {f : σ → σ}
    (htake : ∀ untaken held s, C untaken held s → ∃ untaken' held',
      held' ++ untaken' = held ++ untaken ∧ C untaken' held' (f s) ∧
        (untaken' ≠ [] → held.length + 1 ≤ held'.length)) (n : ℕ) {untaken held : List α} {s : σ}
    (hs : C untaken held s) : ∃ untaken' held', held' ++ untaken' = held ++ untaken ∧
      C untaken' held' (f^[n] s) ∧ (untaken' ≠ [] → held.length + n ≤ held'.length) := by
  induction n generalizing untaken held s with
  | zero => exact ⟨untaken, held, rfl, hs, fun _ => Nat.le_refl _⟩
  | succ n ih =>
      obtain ⟨untaken', held', hkept, hnext, hone⟩ := htake untaken held s hs
      obtain ⟨untaken'', held'', hkept', hend, hmany⟩ := ih hnext
      refine ⟨untaken'', held'', hkept'.trans hkept, hend, fun hleft => ?_⟩
      have hreach := hmany hleft
      have htotal := congrArg List.length hkept'
      have hpos : 0 < untaken''.length := List.length_pos_iff.mpr hleft
      simp only [List.length_append] at htotal
      have hmore : untaken' ≠ [] := by
        rintro rfl
        simp only [List.length_nil] at htotal
        omega
      have hfirst := hone hmore
      omega

end Viosnd.VirtIO
